/-
  ArtifactPatch.Proofs.Pattern.Words
  ──────────────────────────────────
  **THE WORDS OF A TEXT.**

  A text is cut between two characters unless both are identifier characters.
  The pieces are its words: the maximal runs of identifier characters, and
  every other character by itself.  Words are cut apart at seams and nowhere
  else (`Text.words_append`), so a text is a first word and what is behind its
  seam in one way (`IsWord.append_inj`), and a proof may go from word to word
  (`word_induction`).
-/
import Mathlib.Data.List.SplitBy
import ArtifactPatch.Proofs.Pattern.Reading

namespace ArtifactPatch

/-! ## §1. Words. -/

/-- A run of identifier characters, or another character by itself. -/
inductive IsWord : Text → Prop
  | run {w : Text} (hne : w ≠ []) (hrun : ∀ c ∈ w, isIdentChar c = true) : IsWord w
  | other {c : Char} (hc : isIdentChar c = false) : IsWord [c]

/-- The maximal runs of identifier characters and the other characters, in order. -/
def Text.words (t : Text) : List Text :=
  t.splitBy fun c d => isIdentChar c && isIdentChar d

theorem IsToken.isWord {tok : Text} (h : IsToken tok) : IsWord tok :=
  .run h.ne_nil fun _ hc => h.isIdentChar hc

namespace IsWord

variable {w : Text}

theorem ne_nil (h : IsWord w) : w ≠ [] := by
  cases h with
  | run hne _ => exact hne
  | other _ => exact List.cons_ne_nil _ _

/-- A word is one piece. -/
theorem words_eq (h : IsWord w) : Text.words w = [w] := by
  refine List.splitBy_of_isChain h.ne_nil ?_
  cases h with
  | run hne hrun =>
      refine List.Pairwise.isChain (List.pairwise_of_forall_mem_list fun c hc d hd => ?_)
      rw [hrun c hc, hrun d hd]
      rfl
  | other _ => exact List.isChain_singleton _

/-- Within a word, an identifier goes on. -/
theorem goes_on {x v : Text} (h : IsWord (x ++ v)) (hx : x ≠ []) (hv : v ≠ []) :
    endsWithIdentChar x = true ∧ beginsWithIdentChar v = true := by
  generalize hw : x ++ v = w at h
  cases h with
  | run _ hrun =>
      subst hw
      constructor
      · exact endsWithIdentChar_of_forall_mem hx fun c hc => hrun c (List.mem_append_left v hc)
      · obtain ⟨c, cs, rfl⟩ := List.exists_cons_of_ne_nil hv
        exact hrun c (List.mem_append_right x List.mem_cons_self)
  | other _ =>
      rcases List.append_eq_singleton_iff.1 hw with ⟨hnil, -⟩ | ⟨-, hnil⟩
      · exact absurd hnil hx
      · exact absurd hnil hv

end IsWord

/-! ## §2. Seams. -/

theorem Seam.append {a b c : Text} (hab : Seam a b) (hc : Seam (a ++ b) c) : Seam a (b ++ c) := by
  cases b with
  | nil =>
      rw [List.append_nil] at hc
      exact hc
  | cons d b => exact hab

/-- **A seam cuts no word.** -/
theorem Text.words_append {a b : Text} (h : Seam a b) : words (a ++ b) = words a ++ words b := by
  refine List.splitBy_append fun c hc d hd => ?_
  rw [Bool.and_eq_false_iff]
  cases hident : isIdentChar c with
  | false => exact .inl rfl
  | true =>
      have hends : endsWithIdentChar a = true := by
        unfold endsWithIdentChar
        rw [Option.mem_def.1 hc]
        exact hident
      have hbegins := h hends
      unfold beginsWithIdentChar at hbegins
      rw [Option.mem_def.1 hd] at hbegins
      exact .inr hbegins

theorem IsWord.words_append {w rest : Text} (hw : IsWord w) (h : Seam w rest) :
    Text.words (w ++ rest) = w :: Text.words rest := by
  rw [Text.words_append h, hw.words_eq]
  rfl

/-- **A text has one first word.** -/
theorem IsWord.append_inj {v w s t : Text} (hv : IsWord v) (hw : IsWord w) (hs : Seam v s)
    (ht : Seam w t) (h : v ++ s = w ++ t) : v = w ∧ s = t := by
  have hwords := hv.words_append hs
  rw [h, hw.words_append ht] at hwords
  obtain rfl := (List.cons.inj hwords).1
  exact ⟨rfl, List.append_cancel_left h⟩

/-- A text that is not empty has a first word. -/
theorem exists_word {t : Text} (h : t ≠ []) :
    ∃ w rest, t = w ++ rest ∧ IsWord w ∧ Seam w rest := by
  obtain ⟨c, cs, rfl⟩ := List.exists_cons_of_ne_nil h
  cases hc : isIdentChar c with
  | false => exact ⟨[c], cs, rfl, .other hc, seam_of_closed (u := [c]) hc cs⟩
  | true =>
      refine ⟨c :: cs.takeWhile isIdentChar, cs.dropWhile isIdentChar, ?_,
        .run (List.cons_ne_nil _ _) ?_, fun _ => beginsWithIdentChar_dropWhile cs⟩
      · rw [List.cons_append, List.takeWhile_append_dropWhile]
      · rintro d (_ | ⟨_, hd⟩)
        · exact hc
        · exact List.all_eq_true.1 List.all_takeWhile d hd

/-- A text is empty, or a first word and what is behind its seam. -/
@[elab_as_elim] theorem word_induction {motive : Text → Prop} (nil : motive [])
    (word : ∀ w rest, IsWord w → Seam w rest → motive rest → motive (w ++ rest)) (t : Text) :
    motive t := by
  generalize hn : t.length = n
  induction n using Nat.strongRecOn generalizing t with
  | ind n ih =>
    subst hn
    by_cases ht : t = []
    · rw [ht]
      exact nil
    · obtain ⟨w, rest, rfl, hw, hseam⟩ := exists_word ht
      have hpos := List.length_pos_iff.2 hw.ne_nil
      have hlength : (w ++ rest).length = w.length + rest.length := List.length_append
      exact word w rest hw hseam (ih rest.length (by omega) rest rfl)

end ArtifactPatch
