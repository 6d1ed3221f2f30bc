/-
  ArtifactPatch.Proofs.Pattern.Renaming
  ─────────────────────────────────────
  **NAMES REPLACED IN A TEXT.**

  A renaming is an injective map from identifier tokens to identifier tokens.
  Applied to a text, it puts the image in the place of every word that is a
  token and leaves the other words.  It keeps seams and edges, so what a
  renamed text begins with says what the text began with: the image of its
  first word (`exists_word_of_apply_eq`), a text without names that change
  (`Fixes.apply_eq_append_iff`), or the image of a token (`token?_apply_iff`).
-/
import Mathlib.Logic.Embedding.Basic
import ArtifactPatch.Proofs.Pattern.Words

namespace ArtifactPatch

open Text (words)

/-! ## §1. Renamings. -/

instance : DecidablePred IsToken
  | [] => inferInstanceAs (Decidable False)
  | c :: cs => decidable_of_iff (isIdentStart c = true ∧ cs.all isIdentChar = true)
      (and_congr_right fun _ => List.all_eq_true)

/-- The identifier tokens. -/
abbrev IdentToken :=
  { tok : Text // IsToken tok }

/-- An injective map from identifier tokens to identifier tokens. -/
abbrev Renaming :=
  IdentToken ↪ IdentToken

namespace Renaming

/-- The image of a word; a word that is no token stays as it is. -/
def word (ρ : Renaming) (w : Text) : Text :=
  if h : IsToken w then (ρ ⟨w, h⟩).1 else w

/-- A text with the image in the place of each word. -/
def apply (ρ : Renaming) (t : Text) : Text :=
  (words t).flatMap ρ.word

/-- Captures with the image in the place of what they bind. -/
def captures (ρ : Renaming) (bound : Captures) : Captures :=
  bound.map fun (name, tok) => (name, ρ.word tok)

/-- Every token among the words of a text is its own image. -/
def Fixes (ρ : Renaming) (t : Text) : Prop :=
  ∀ token : IdentToken, token.1 ∈ words t → ρ token = token

variable {ρ : Renaming} {w t rest : Text}

/-! ## §2. Words and their images. -/

theorem word_of_isToken (ρ : Renaming) (h : IsToken w) : ρ.word w = (ρ ⟨w, h⟩).1 :=
  dif_pos h

theorem word_of_not_isToken (ρ : Renaming) (h : ¬IsToken w) : ρ.word w = w :=
  dif_neg h

theorem isToken_word : IsToken (ρ.word w) ↔ IsToken w := by
  by_cases h : IsToken w
  · rw [word_of_isToken ρ h]
    exact iff_of_true (ρ ⟨w, h⟩).2 h
  · rw [word_of_not_isToken ρ h]

/-- **Words are told apart by their images.** -/
theorem word_injective (ρ : Renaming) : Function.Injective ρ.word := by
  intro v w h
  by_cases hv : IsToken v
  · have hw : IsToken w := isToken_word.1 (h ▸ isToken_word.2 hv)
    rw [word_of_isToken ρ hv, word_of_isToken ρ hw] at h
    exact congrArg Subtype.val (ρ.injective (Subtype.ext h))
  · have hw : ¬IsToken w := fun hw => hv (isToken_word.1 (h ▸ isToken_word.2 hw))
    rwa [word_of_not_isToken ρ hv, word_of_not_isToken ρ hw] at h

/-- A word and its image have the same edges. -/
theorem edges_word (ρ : Renaming) (w : Text) :
    beginsWithIdentChar (ρ.word w) = beginsWithIdentChar w ∧
      endsWithIdentChar (ρ.word w) = endsWithIdentChar w := by
  by_cases h : IsToken w
  · have himage := isToken_word (ρ := ρ).2 h
    rw [beginsWithIdentChar_of_isToken h, beginsWithIdentChar_of_isToken himage,
      h.endsWithIdentChar, himage.endsWithIdentChar]
    exact ⟨rfl, rfl⟩
  · rw [word_of_not_isToken ρ h]
    exact ⟨rfl, rfl⟩

theorem isWord_word (ρ : Renaming) (hw : IsWord w) : IsWord (ρ.word w) := by
  by_cases h : IsToken w
  · exact (isToken_word.2 h).isWord
  · rw [word_of_not_isToken ρ h]
    exact hw

/-! ## §3. Renamed texts. -/

theorem apply_append (ρ : Renaming) {a b : Text} (h : Seam a b) :
    ρ.apply (a ++ b) = ρ.apply a ++ ρ.apply b := by
  unfold apply
  rw [Text.words_append h, List.flatMap_append]

theorem apply_word_append (ρ : Renaming) (hw : IsWord w) (h : Seam w rest) :
    ρ.apply (w ++ rest) = ρ.word w ++ ρ.apply rest := by
  unfold apply
  rw [hw.words_append h, List.flatMap_cons]

theorem apply_ne_nil (ρ : Renaming) (h : t ≠ []) : ρ.apply t ≠ [] := by
  obtain ⟨w, rest, rfl, hw, hseam⟩ := exists_word h
  rw [apply_word_append ρ hw hseam]
  exact List.append_ne_nil_of_left_ne_nil (isWord_word ρ hw).ne_nil _

/-- A text and its image have the same edges. -/
theorem edges_apply (ρ : Renaming) (t : Text) :
    beginsWithIdentChar (ρ.apply t) = beginsWithIdentChar t ∧
      endsWithIdentChar (ρ.apply t) = endsWithIdentChar t := by
  induction t using word_induction with
  | nil => exact ⟨rfl, rfl⟩
  | word w rest hw hseam ih =>
      rw [apply_word_append ρ hw hseam, beginsWithIdentChar_append (isWord_word ρ hw).ne_nil,
        beginsWithIdentChar_append hw.ne_nil]
      refine ⟨(edges_word ρ w).1, ?_⟩
      by_cases hrest : rest = []
      · subst hrest
        rw [List.append_nil, show ρ.apply [] = [] from rfl, List.append_nil]
        exact (edges_word ρ w).2
      · rw [endsWithIdentChar_append _ hrest, endsWithIdentChar_append _ (apply_ne_nil ρ hrest)]
        exact ih.2

/-- A seam stays one in front of the image. -/
theorem seam_apply_iff {a b : Text} : Seam a (ρ.apply b) ↔ Seam a b := by
  unfold Seam
  rw [(edges_apply ρ b).1]

/-- **The first word of a renamed text** is the image of the first word. -/
theorem exists_word_of_apply_eq {w' s : Text} (hw' : IsWord w') (hs : Seam w' s)
    (h : ρ.apply t = w' ++ s) :
    ∃ w rest, t = w ++ rest ∧ IsWord w ∧ Seam w rest ∧ ρ.word w = w' ∧ ρ.apply rest = s := by
  have ht : t ≠ [] := by
    rintro rfl
    exact hw'.ne_nil (List.append_eq_nil_iff.1 h.symm).1
  obtain ⟨w, rest, rfl, hw, hseam⟩ := exists_word ht
  rw [apply_word_append ρ hw hseam] at h
  have hseam' : Seam (ρ.word w) (ρ.apply rest) := by
    intro hends
    rw [(edges_word ρ w).2] at hends
    exact seam_apply_iff.2 hseam hends
  obtain ⟨hword, hrest⟩ := (isWord_word ρ hw).append_inj hw' hseam' hs h
  exact ⟨w, rest, rfl, hw, hseam, hword, hrest⟩

/-! ## §4. Texts that are fixed. -/

theorem fixes_iff : ρ.Fixes t ↔ ∀ w ∈ words t, ρ.word w = w := by
  constructor
  · intro hfix w hw
    by_cases h : IsToken w
    · rw [word_of_isToken ρ h, hfix ⟨w, h⟩ hw]
    · exact word_of_not_isToken ρ h
  · intro hwords token htoken
    refine Subtype.ext ?_
    rw [← word_of_isToken ρ token.2]
    exact hwords _ htoken

instance (ρ : Renaming) (t : Text) : Decidable (ρ.Fixes t) :=
  decidable_of_iff _ fixes_iff.symm

/-- A fixed text has a fixed first word, and the rest is fixed. -/
theorem Fixes.of_word_append (hfix : ρ.Fixes (w ++ rest)) (hw : IsWord w) (h : Seam w rest) :
    ρ.word w = w ∧ ρ.Fixes rest := by
  rw [fixes_iff, hw.words_append h, List.forall_mem_cons] at hfix
  exact hfix.imp_right fixes_iff.2

theorem Fixes.apply_eq (hfix : ρ.Fixes t) : ρ.apply t = t := by
  induction t using word_induction with
  | nil => rfl
  | word w rest hw hseam ih =>
      obtain ⟨hword, hrest⟩ := hfix.of_word_append hw hseam
      rw [apply_word_append ρ hw hseam, hword, ih hrest]

/-- **A fixed text stands in front of a renamed text** where it stood in front of
the text. -/
theorem Fixes.apply_eq_append_iff {lit s : Text} (hfix : ρ.Fixes lit) :
    ρ.apply t = lit ++ s ∧ Seam lit s ↔
      ∃ rest, t = lit ++ rest ∧ Seam lit rest ∧ s = ρ.apply rest := by
  constructor
  · rintro ⟨h, hs⟩
    induction lit using word_induction generalizing t with
    | nil =>
        refine ⟨t, rfl, fun hends => ?_, h.symm⟩
        cases hends
    | word w lit hw hseam ih =>
        obtain ⟨hword, hfix'⟩ := hfix.of_word_append hw hseam
        rw [List.append_assoc] at h
        obtain ⟨v, t', rfl, -, hv, himage, hrest⟩ :=
          exists_word_of_apply_eq hw (hseam.append hs) h
        -- the word is its own image, so it was there before
        obtain rfl := word_injective ρ (himage.trans hword.symm)
        obtain ⟨rest, rfl, -, rfl⟩ := ih hfix' hrest hs.tail
        exact ⟨rest, (List.append_assoc ..).symm, seam_apply_iff.1 hs, rfl⟩
  · rintro ⟨rest, rfl, hseam, rfl⟩
    exact ⟨by rw [apply_append ρ hseam, hfix.apply_eq], seam_apply_iff.2 hseam⟩

/-! ## §5. Tokens and captures. -/

/-- **The first token of a renamed text** is the image of the first token. -/
theorem token?_apply_iff {tok' s : Text} : Pattern.token? (ρ.apply t) = some (tok', s) ↔
    ∃ tok rest, Pattern.token? t = some (tok, rest) ∧ tok' = ρ.word tok ∧ s = ρ.apply rest := by
  simp only [Pattern.token?_eq_some_iff]
  constructor
  · rintro ⟨h, htok, hs⟩
    obtain ⟨w, rest, rfl, hw, -, rfl, rfl⟩ := exists_word_of_apply_eq htok.isWord (fun _ => hs) h
    exact ⟨w, rest, ⟨rfl, isToken_word.1 htok, (edges_apply ρ rest).1 ▸ hs⟩, rfl, rfl⟩
  · rintro ⟨tok, rest, ⟨rfl, htok, hrest⟩, rfl, rfl⟩
    refine ⟨apply_word_append ρ htok.isWord fun _ => hrest, isToken_word.2 htok, ?_⟩
    rw [(edges_apply ρ rest).1]
    exact hrest

variable {bound bound' : Captures} {name : String}

theorem lookup_captures (ρ : Renaming) (bound : Captures) (name : String) :
    (ρ.captures bound).lookup name = (bound.lookup name).map ρ.word := by
  induction bound with
  | nil => rfl
  | cons entry bound ih =>
      obtain ⟨other, tok⟩ := entry
      show List.lookup name ((other, ρ.word tok) :: ρ.captures bound) = _
      rw [List.lookup_cons, List.lookup_cons]
      split
      next => rfl
      next => exact ih

/-- The image of a token may be bound where the token may. -/
theorem after_captures_iff {tok : Text} : (ρ.captures bound).After name (ρ.word tok) bound' ↔
    ∃ bound₁, bound.After name tok bound₁ ∧ bound' = ρ.captures bound₁ := by
  unfold Captures.After
  rw [lookup_captures, Option.map_eq_none_iff, Option.map_eq_some_iff]
  constructor
  · rintro (⟨⟨tok', hbound, himage⟩, rfl⟩ | ⟨hfree, rfl⟩)
    · obtain rfl := word_injective ρ himage
      exact ⟨bound, .inl ⟨hbound, rfl⟩, rfl⟩
    · refine ⟨_, .inr ⟨hfree, rfl⟩, ?_⟩
      unfold captures
      rw [List.map_append]
      rfl
  · rintro ⟨bound₁, ⟨hbound, rfl⟩ | ⟨hfree, rfl⟩, rfl⟩
    · exact .inl ⟨⟨tok, hbound, rfl⟩, rfl⟩
    · refine .inr ⟨hfree, ?_⟩
      unfold captures
      rw [List.map_append]
      rfl

end Renaming

end ArtifactPatch
