/-
  ArtifactPatch.Proofs.Pattern.Notation
  ─────────────────────────────────────
  **SOURCES AND SEGMENTS ARE TWO FORMS OF ONE THING.**

  A source is made of characters that stand for themselves, of pairs of dollar
  signs, and of dollar signs with a name behind them (`Source`).  Reading is the
  inverse of `render` between sources and normal segments:

      parse? n t = .ok segments   ↔   Normal segments ∧ render segments = t

  Every text is a source up to its end or up to its first stray dollar sign, and
  that is where reading fails (`parse?_eq_error_iff`).
-/
import Mathlib.Data.List.Chain
import ArtifactPatch.Proofs.Except
import ArtifactPatch.Proofs.Pattern.Reading
import ArtifactPatch.Proofs.Text.Bytes

namespace ArtifactPatch

open Text (byteLen)

namespace Segment

/-! ## §1. Sources. -/

/-- A placeholder name. -/
def IsName : Text → Prop
  | [] => False
  | c :: cs => isNameStart c = true ∧ ∀ d ∈ cs, isNameChar d = true

instance : DecidablePred IsName
  | [] => inferInstanceAs (Decidable False)
  | c :: cs =>
      decidable_of_iff (isNameStart c = true ∧ cs.all isNameChar = true)
        (and_congr_right fun _ => List.all_eq_true)

/-- A name in front of this text ends there. -/
def NameEnds (t : Text) : Prop :=
  t.head?.any isNameChar = false

instance : DecidablePred NameEnds := fun t =>
  inferInstanceAs (Decidable (t.head?.any isNameChar = false))

/-- A dollar sign in front that starts neither form. -/
def Stray (t : Text) : Prop :=
  ∃ rest, t = '$' :: rest ∧ rest.head? ≠ some '$' ∧ rest.head?.any isNameStart = false

/-- A text made of the forms of the notation, every name as long as it goes. -/
inductive Source : Text → Prop
  | nil : Source []
  | char {c : Char} {rest : Text} (hc : c ≠ '$') (h : Source rest) : Source (c :: rest)
  | dollar {rest : Text} (h : Source rest) : Source ('$' :: '$' :: rest)
  | name {name rest : Text} (hname : IsName name) (hend : NameEnds rest) (h : Source rest) :
      Source ('$' :: (name ++ rest))

theorem isNameChar_of_isNameStart {c : Char} (h : isNameStart c = true) : isNameChar c = true := by
  unfold isNameStart at h
  unfold isNameChar
  rw [h, Bool.true_or, Bool.true_or]

/-- A name is no dollar sign. -/
theorem ne_dollar_of_isNameStart {c : Char} (h : isNameStart c = true) : c ≠ '$' := by
  intro heq
  rw [heq] at h
  exact absurd h (by decide)

theorem IsName.isNameChar {name : Text} (h : IsName name) :
    ∀ d ∈ name, Segment.isNameChar d = true := by
  cases name with
  | nil => exact h.elim
  | cons c cs =>
      intro d hd
      rcases List.mem_cons.1 hd with heq | hd
      · rw [heq]
        exact isNameChar_of_isNameStart h.1
      · exact h.2 d hd

/-- Every name character is a character of identifiers. -/
theorem asciiOnly_isNameChar : AsciiOnly isNameChar := by
  intro c hc
  refine toNat_lt_of_isIdentChar ?_
  unfold isNameChar at hc
  unfold isIdentChar isIdentStart
  simp only [Bool.or_eq_true] at hc ⊢
  rcases hc with (hc | hc) | hc
  · exact .inl (.inl (.inl (.inr hc)))
  · exact .inr hc
  · exact .inl (.inl (.inr hc))

theorem IsName.byteLen_eq {name : Text} (h : IsName name) : byteLen name = name.length := by
  have hall := h.isNameChar
  clear h
  induction name with
  | nil => rfl
  | cons c name ih =>
      have hc := asciiOnly_isNameChar.utf8Size_eq (hall c List.mem_cons_self)
      have hrest := ih fun d hd => hall d (List.mem_cons_of_mem c hd)
      rw [Text.byteLen_cons, hc, hrest, List.length_cons, Nat.add_comm]

/-- Where a name ends is not changed by what follows a text that is not empty. -/
theorem nameEnds_append {a : Text} (hne : a ≠ []) (b : Text) : NameEnds (a ++ b) ↔ NameEnds a := by
  cases a with
  | nil => exact absurd rfl hne
  | cons c a => exact Iff.rfl

/-! ## §2. Reading, form by form. -/

theorem parse?_nil (n : Nat) : parse? n [] = .ok [] := by
  rw [parse?.eq_def]

theorem parse?_char {c : Char} (hc : c ≠ '$') (n : Nat) (rest : Text) :
    parse? n (c :: rest) = (parse? (n + c.utf8Size) rest).map (consChar c) := by
  rw [parse?.eq_def]
  exact if_pos hc

theorem parse?_dollar (n : Nat) (rest : Text) :
    parse? n ('$' :: '$' :: rest) = (parse? (n + 2) rest).map (consChar '$') := by
  rw [parse?.eq_def]
  rfl

theorem parse?_name {name rest : Text} (hname : IsName name) (hend : NameEnds rest) (n : Nat) :
    parse? n ('$' :: (name ++ rest))
      = (parse? (n + byteLen ('$' :: name)) rest).map (.placeholder (String.ofList name) :: ·) := by
  have hlen := hname.byteLen_eq
  cases name with
  | nil => exact hname.elim
  | cons d ds =>
      obtain ⟨htake, hdrop⟩ := takeWhile_append_of_seam hname.2 hend
      have hsize : n + byteLen ('$' :: d :: ds) = n + 1 + (d :: ds).length := by
        rw [Text.byteLen_cons, hlen, Nat.add_assoc]
        rfl
      rw [parse?.eq_def, hsize, List.cons_append]
      dsimp only
      rw [if_neg (by decide), if_neg (ne_dollar_of_isNameStart hname.1), if_pos hname.1, htake, hdrop]

theorem parse?_stray {t : Text} (h : Stray t) (n : Nat) : parse? n t = .error n := by
  obtain ⟨rest, rfl, hdollar, hname⟩ := h
  rw [parse?.eq_def]
  cases rest with
  | nil => rfl
  | cons d rest =>
      have hd : d ≠ '$' := fun heq => hdollar (congrArg some heq)
      have hstart : ¬isNameStart d = true := Bool.eq_false_iff.1 hname
      dsimp only
      rw [if_neg (by decide), if_neg hd, if_neg hstart]

/-- **A text is at its end, begins with one of the three forms, or with a stray
dollar sign.** -/
@[elab_as_elim] theorem source_induction {motive : Text → Prop} (nil : motive [])
    (char : ∀ c rest, c ≠ '$' → motive rest → motive (c :: rest))
    (dollar : ∀ rest, motive rest → motive ('$' :: '$' :: rest))
    (name : ∀ name rest, IsName name → NameEnds rest → motive rest →
      motive ('$' :: (name ++ rest)))
    (stray : ∀ t, Stray t → motive t) (t : Text) : motive t := by
  -- a name takes more than one character, so the length decides
  generalize hn : t.length = n
  induction n using Nat.strongRecOn generalizing t with
  | ind n ih =>
    subst hn
    cases t with
    | nil => exact nil
    | cons c rest =>
        by_cases hc : c = '$'
        · subst hc
          cases rest with
          | nil => exact stray _ ⟨[], rfl, by simp, rfl⟩
          | cons d rest =>
              by_cases hd : d = '$'
              · subst hd
                exact dollar rest (ih _ (by simp only [List.length_cons]; omega) rest rfl)
              · cases hstart : isNameStart d with
                | false => exact stray _ ⟨d :: rest, rfl, by simpa using hd, hstart⟩
                | true =>
                    have hshort := (List.dropWhile_suffix isNameChar (l := rest)).length_le
                    have hname := name (d :: rest.takeWhile isNameChar) (rest.dropWhile isNameChar)
                      ⟨hstart, fun e he => List.all_eq_true.1 List.all_takeWhile e he⟩
                      (any_head?_dropWhile isNameChar rest)
                      (ih _ (by simp only [List.length_cons]; omega) _ rfl)
                    rw [List.cons_append, List.takeWhile_append_dropWhile] at hname
                    exact hname
        · exact char c rest hc (ih _ (by simp) rest rfl)

/-! ## §3. Normal segments. -/

/-- Literals have a character, and names are well formed. -/
def WellFormed : Segment → Prop
  | .literal text => text ≠ []
  | .placeholder name => IsName name.toList

instance : DecidablePred WellFormed
  | .literal text => inferInstanceAs (Decidable (text ≠ []))
  | .placeholder name => inferInstanceAs (Decidable (IsName name.toList))

/-- What may stand behind a segment: a literal neither joins a literal nor goes on
with a name. -/
def Precedes : Segment → Segment → Prop
  | .literal _, .literal _ => False
  | .placeholder _, .literal text => NameEnds text
  | _, .placeholder _ => True

instance : DecidableRel Precedes
  | .literal _, .literal _ => inferInstanceAs (Decidable False)
  | .placeholder _, .literal text => inferInstanceAs (Decidable (NameEnds text))
  | .literal _, .placeholder _ => inferInstanceAs (Decidable True)
  | .placeholder _, .placeholder _ => inferInstanceAs (Decidable True)

/-- Segments that are the only ones with their source. -/
structure Normal (segments : List Segment) : Prop where
  wellFormed : ∀ s ∈ segments, s.WellFormed
  chain : segments.IsChain Precedes

instance (segments : List Segment) : Decidable (Normal segments) :=
  decidable_of_iff ((∀ s ∈ segments, s.WellFormed) ∧ segments.IsChain Precedes)
    ⟨fun h => ⟨h.1, h.2⟩, fun h => ⟨h.wellFormed, h.chain⟩⟩

theorem normal_nil : Normal [] :=
  ⟨by simp, List.isChain_nil⟩

/-- No literal of normal segments is without a character. -/
theorem Normal.solid {segments : List Segment} (h : Normal segments) : .literal [] ∉ segments :=
  fun hmem => h.wellFormed (.literal []) hmem rfl

theorem normal_cons_iff {s : Segment} {segments : List Segment} :
    Normal (s :: segments) ↔
      s.WellFormed ∧ (∀ s' ∈ segments.head?, s.Precedes s') ∧ Normal segments := by
  constructor
  · intro h
    obtain ⟨hs, hsegments⟩ := List.forall_mem_cons.1 h.wellFormed
    obtain ⟨hhead, hchain⟩ := List.isChain_cons.1 h.chain
    exact ⟨hs, hhead, hsegments, hchain⟩
  · intro h
    obtain ⟨hs, hhead, hsegments⟩ := h
    exact ⟨List.forall_mem_cons.2 ⟨hs, hsegments.wellFormed⟩,
      List.isChain_cons.2 ⟨hhead, hsegments.chain⟩⟩

/-- A character joins the literal in front, which keeps its neighbour. -/
theorem normal_consChar {segments : List Segment} (h : Normal segments) (c : Char) :
    Normal (consChar c segments) := by
  unfold consChar
  split
  next text rest =>
      obtain ⟨-, hhead, hrest⟩ := normal_cons_iff.1 h
      refine normal_cons_iff.2 ⟨List.cons_ne_nil c text, fun s hs => ?_, hrest⟩
      have hbefore := hhead s hs
      cases s with
      | literal lit => exact hbefore
      | placeholder name => trivial
  next hother =>
      refine normal_cons_iff.2 ⟨List.cons_ne_nil c [], fun s hs => ?_, h⟩
      cases segments with
      | nil => cases hs
      | cons s' rest =>
          obtain rfl := Option.some.inj hs
          cases s' with
          | literal lit => exact (hother lit rest rfl).elim
          | placeholder name => trivial

/-! ## §4. Sources of segments. -/

theorem render_cons (s : Segment) (segments : List Segment) :
    render (s :: segments) = renderOne s ++ render segments :=
  List.flatMap_cons

/-- How a character of a literal is written. -/
theorem renderOne_literal_cons (c : Char) (text : Text) : renderOne (.literal (c :: text))
    = (if c = '$' then ['$', '$'] else [c]) ++ renderOne (.literal text) :=
  List.flatMap_cons

/-- The source with a character in front. -/
theorem render_consChar (c : Char) (segments : List Segment) :
    render (consChar c segments) = (if c = '$' then ['$', '$'] else [c]) ++ render segments := by
  unfold consChar
  split
  next text rest =>
      rw [render_cons, render_cons, renderOne_literal_cons, List.append_assoc]
  next =>
      rw [render_cons, renderOne_literal_cons]
      simp [renderOne]

/-- A literal begins as its source does, a dollar sign being no name character. -/
theorem nameEnds_render_literal {text : Text} (hne : text ≠ []) (rest : List Segment) :
    NameEnds (render (.literal text :: rest)) ↔ NameEnds text := by
  cases text with
  | nil => exact absurd rfl hne
  | cons c text =>
      rw [render_cons, renderOne_literal_cons]
      unfold NameEnds
      by_cases hc : c = '$' <;> simp [hc]

/-- A placeholder may precede normal segments if its name ends where their source
begins. -/
theorem nameEnds_render_iff {segments : List Segment} (h : Normal segments) (name : String) :
    NameEnds (render segments) ↔ ∀ s ∈ segments.head?, (placeholder name).Precedes s := by
  cases segments with
  | nil => exact iff_of_true rfl (by simp)
  | cons s rest =>
      cases s with
      | literal text =>
          have hne : text ≠ [] := (normal_cons_iff.1 h).1
          rw [nameEnds_render_literal hne]
          simp [Precedes]
      | placeholder other =>
          refine iff_of_true rfl ?_
          simp [Precedes]

/-! ## §5. Reading and writing. -/

/-- **What is read is normal, and its source is the text.** -/
theorem normal_and_render_of_parse? {n : Nat} {t : Text} {segments : List Segment}
    (h : parse? n t = .ok segments) : Normal segments ∧ render segments = t := by
  induction t using source_induction generalizing n segments with
  | nil =>
      rw [parse?_nil] at h
      obtain rfl := Except.ok.inj h
      exact ⟨normal_nil, rfl⟩
  | char c rest hc ih =>
      rw [parse?_char hc] at h
      obtain ⟨segments, hrest, rfl⟩ := Except.exists_of_map_eq_ok h
      obtain ⟨hnormal, rfl⟩ := ih hrest
      refine ⟨normal_consChar hnormal c, ?_⟩
      rw [render_consChar, if_neg hc]
      rfl
  | dollar rest ih =>
      rw [parse?_dollar] at h
      obtain ⟨segments, hrest, rfl⟩ := Except.exists_of_map_eq_ok h
      obtain ⟨hnormal, rfl⟩ := ih hrest
      exact ⟨normal_consChar hnormal '$', render_consChar '$' segments⟩
  | name name rest hname hend ih =>
      rw [parse?_name hname hend] at h
      obtain ⟨segments, hrest, rfl⟩ := Except.exists_of_map_eq_ok h
      obtain ⟨hnormal, rfl⟩ := ih hrest
      refine ⟨normal_cons_iff.2 ⟨?_, (nameEnds_render_iff hnormal _).1 hend, hnormal⟩, ?_⟩
      · show IsName (String.ofList name).toList
        rw [String.toList_ofList]
        exact hname
      · rw [render_cons, renderOne, String.toList_ofList]
        rfl
  | stray t hstray =>
      rw [parse?_stray hstray] at h
      cases h

/-- Reading a literal puts its characters in front. -/
theorem parse?_literal (text : Text) (n : Nat) (t : Text) :
    parse? n (renderOne (.literal text) ++ t)
      = (parse? (n + byteLen (renderOne (.literal text))) t).map
          fun segments => text.foldr consChar segments := by
  induction text generalizing n with
  | nil =>
      show parse? n t = (parse? n t).map id
      cases parse? n t <;> rfl
  | cons c text ih =>
      rw [renderOne_literal_cons, List.append_assoc, Text.byteLen_append, ← Nat.add_assoc]
      have hmap (r : Except Nat (List Segment)) :
          (r.map fun segments => text.foldr consChar segments).map (consChar c)
            = r.map fun segments => (c :: text).foldr consChar segments := by
        cases r <;> rfl
      by_cases hc : c = '$'
      · subst hc
        rw [if_pos rfl, ← hmap, ← ih]
        exact parse?_dollar n _
      · rw [if_neg hc, ← hmap, ← ih]
        exact parse?_char hc n _

/-- The characters of a literal make it up again, if no literal follows. -/
theorem foldr_consChar {text : Text} (hne : text ≠ []) {rest : List Segment}
    (hrest : ∀ lit others, rest ≠ .literal lit :: others) :
    text.foldr consChar rest = .literal text :: rest := by
  induction text with
  | nil => exact absurd rfl hne
  | cons c text ih =>
      cases text with
      | nil =>
          show consChar c rest = _
          unfold consChar
          split
          next lit others => exact absurd rfl (hrest lit others)
          next => rfl
      | cons d text =>
          rw [List.foldr_cons, ih (List.cons_ne_nil d text)]
          rfl

/-- **Normal segments are read from their source.** -/
theorem parse?_render {segments : List Segment} (h : Normal segments) (n : Nat) :
    parse? n (render segments) = .ok segments := by
  induction segments generalizing n with
  | nil => exact parse?_nil n
  | cons s rest ih =>
      obtain ⟨hs, hhead, hrest⟩ := normal_cons_iff.1 h
      cases s with
      | literal text =>
          rw [render_cons, parse?_literal, ih hrest]
          refine congrArg Except.ok (foldr_consChar hs fun lit others heq => ?_)
          exact hhead (.literal lit) (by rw [heq]; rfl)
      | placeholder name =>
          have hend := (nameEnds_render_iff hrest name).2 hhead
          show parse? n ('$' :: (name.toList ++ render rest)) = _
          rw [parse?_name hs hend, ih hrest, String.ofList_toList]
          rfl

/-- **Reading is the inverse of writing.** -/
theorem parse?_eq_ok_iff {n : Nat} {t : Text} {segments : List Segment} :
    parse? n t = .ok segments ↔ Normal segments ∧ render segments = t := by
  constructor
  · exact normal_and_render_of_parse?
  · intro h
    obtain ⟨hnormal, rfl⟩ := h
    exact parse?_render hnormal n

/-! ## §6. Where reading fails. -/

/-- **Reading fails at the first stray dollar sign**: what stands in front of it is
made of the forms of the notation. -/
theorem parse?_eq_error_iff {n k : Nat} {t : Text} :
    parse? n t = .error k ↔
      ∃ front rest, t = front ++ rest ∧ Source front ∧ Stray rest ∧ k = n + byteLen front := by
  constructor
  · intro h
    induction t using source_induction generalizing n with
    | nil =>
        rw [parse?_nil] at h
        cases h
    | char c rest hc ih =>
        rw [parse?_char hc] at h
        obtain ⟨front, rest, rfl, hfront, hstray, rfl⟩ := ih (Except.error_of_map_eq_error h)
        refine ⟨c :: front, rest, rfl, .char hc hfront, hstray, ?_⟩
        rw [Text.byteLen_cons, Nat.add_assoc]
    | dollar rest ih =>
        rw [parse?_dollar] at h
        obtain ⟨front, rest, rfl, hfront, hstray, rfl⟩ := ih (Except.error_of_map_eq_error h)
        refine ⟨'$' :: '$' :: front, rest, rfl, .dollar hfront, hstray, ?_⟩
        show n + 2 + byteLen front = n + (1 + (1 + byteLen front))
        omega
    | name name rest hname hend ih =>
        rw [parse?_name hname hend] at h
        obtain ⟨front, rest, rfl, hfront, hstray, rfl⟩ := ih (Except.error_of_map_eq_error h)
        refine ⟨'$' :: (name ++ front), rest, ?_, .name hname ?_ hfront, hstray, ?_⟩
        · simp
        · -- the name ends where it did, or at the end of what is in front
          by_cases hne : front = []
          · rw [hne]
            rfl
          · exact (nameEnds_append hne rest).1 hend
        · rw [← List.cons_append, Text.byteLen_append, Nat.add_assoc]
    | stray t hstray =>
        rw [parse?_stray hstray] at h
        exact ⟨[], t, rfl, .nil, hstray, (Except.error.inj h).symm⟩
  · intro h
    obtain ⟨front, rest, rfl, hfront, hstray, rfl⟩ := h
    induction hfront generalizing n with
    | nil => exact parse?_stray hstray n
    | char hc _ ih =>
        rw [List.cons_append, parse?_char hc, ih, Text.byteLen_cons, Nat.add_assoc]
        rfl
    | @dollar front _ ih =>
        show parse? n ('$' :: '$' :: (front ++ rest)) = _
        rw [parse?_dollar, ih]
        have hsize : byteLen ('$' :: '$' :: front) = 2 + byteLen front := by
          show 1 + (1 + byteLen front) = _
          omega
        rw [hsize, Nat.add_assoc]
        rfl
    | @name name front hname hend _ ih =>
        have hend' : NameEnds (front ++ rest) := by
          by_cases hne : front = []
          · -- a dollar sign ends the name
            obtain ⟨others, rfl, -⟩ := hstray
            rw [hne]
            rfl
          · exact (nameEnds_append hne rest).2 hend
        rw [List.cons_append, List.append_assoc, parse?_name hname hend', ih, ← List.cons_append,
          Text.byteLen_append, Nat.add_assoc]
        rfl

/-! ## §7. What can be read. -/

theorem Source.exists_parse? {t : Text} (h : Source t) (n : Nat) :
    ∃ segments, parse? n t = .ok segments := by
  induction h generalizing n with
  | nil => exact ⟨[], parse?_nil n⟩
  | char hc _ ih =>
      obtain ⟨segments, hrest⟩ := ih (n + Char.utf8Size _)
      exact ⟨_, by rw [parse?_char hc, hrest]; rfl⟩
  | dollar _ ih =>
      obtain ⟨segments, hrest⟩ := ih (n + 2)
      exact ⟨_, by rw [parse?_dollar, hrest]; rfl⟩
  | name hname hend _ ih =>
      obtain ⟨segments, hrest⟩ := ih (n + byteLen ('$' :: _))
      exact ⟨_, by rw [parse?_name hname hend, hrest]; rfl⟩

/-- **What can be read is what is made of the forms of the notation.** -/
theorem exists_parse?_iff {n : Nat} {t : Text} :
    (∃ segments, parse? n t = .ok segments) ↔ Source t := by
  constructor
  · intro h
    obtain ⟨segments, h⟩ := h
    induction t using source_induction generalizing n segments with
    | nil => exact .nil
    | char c rest hc ih =>
        rw [parse?_char hc] at h
        obtain ⟨segments, hrest, -⟩ := Except.exists_of_map_eq_ok h
        exact .char hc (ih segments hrest)
    | dollar rest ih =>
        rw [parse?_dollar] at h
        obtain ⟨segments, hrest, -⟩ := Except.exists_of_map_eq_ok h
        exact .dollar (ih segments hrest)
    | name name rest hname hend ih =>
        rw [parse?_name hname hend] at h
        obtain ⟨segments, hrest, -⟩ := Except.exists_of_map_eq_ok h
        exact .name hname hend (ih segments hrest)
    | stray t hstray =>
        rw [parse?_stray hstray] at h
        cases h
  · intro h
    exact h.exists_parse? n

/-! ## §8. Named sources. -/

theorem parse_eq_ok_iff {source : String} {segments : List Segment} :
    parse source = .ok segments ↔ parse? 0 source.toList = .ok segments := by
  unfold parse
  cases parse? 0 source.toList with
  | error position => exact iff_of_false (fun h => nomatch h) (fun h => nomatch h)
  | ok segments' =>
      constructor
      · intro h
        exact congrArg Except.ok (Except.ok.inj h)
      · intro h
        exact congrArg Except.ok (Except.ok.inj h)

/-- A source that writes one literal is read as that literal. -/
theorem parse_literal_source {source : String} {lit : Text} (hne : lit ≠ [])
    (h : source.toList = renderOne (.literal lit)) : parse source = .ok [.literal lit] := by
  have hnormal : Normal [.literal lit] := normal_cons_iff.2 ⟨hne, by simp, normal_nil⟩
  rw [parse_eq_ok_iff, parse?_eq_ok_iff, render_cons, h]
  exact ⟨hnormal, List.append_nil _⟩

theorem parse_eq_error_iff {source : String} {e : RuleError} :
    parse source = .error e ↔
      ∃ k, parse? 0 source.toList = .error k ∧ e = .invalidPlaceholder k source := by
  unfold parse
  cases parse? 0 source.toList with
  | error position =>
      constructor
      · intro h
        exact ⟨position, rfl, (Except.error.inj h).symm⟩
      · intro h
        obtain ⟨k, hk, rfl⟩ := h
        rw [Except.error.inj hk]
        rfl
  | ok segments => exact iff_of_false (fun h => nomatch h) (fun ⟨_, h, _⟩ => nomatch h)

/-- A source can be told from what it is read as. -/
theorem source_eq_of_parse {source : String} {segments : List Segment}
    (h : parse source = .ok segments) : String.ofList (render segments) = source := by
  rw [(normal_and_render_of_parse? (parse_eq_ok_iff.1 h)).2, String.ofList_toList]

end Segment

end ArtifactPatch
