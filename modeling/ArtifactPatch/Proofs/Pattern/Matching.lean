/-
  ArtifactPatch.Proofs.Pattern.Matching
  ─────────────────────────────────────
  **WHAT A MATCH IS.**

  A match is its pattern filled in with tokens (`Pattern.IsMatch`), in
  surroundings that no token crosses.  It is found again wherever its edges
  are clear (`matchFront?_congr`), and a filled pattern is found where they are
  (`matchFront?_complete`).  All matches of a pattern have the same number of
  characters that are no identifier characters, so none ends within another
  that began before it (`length_le_of_matchFront?_inside`).
-/
import ArtifactPatch.Proofs.Pattern.Reading

namespace ArtifactPatch

namespace Pattern

variable {segments : List Segment} {captures captures' : Captures}

/-! ## §1. Matches. -/

/-- A pattern with the captures in the place of the placeholders. -/
def fill (p : Pattern) (captures : Captures) : Text :=
  p.segments.flatMap (Segment.fill captures)

/-- Every literal of a pattern has a character. -/
def Solid (p : Pattern) : Prop :=
  .literal [] ∉ p.segments

/-- A text that a pattern matches as a whole, with what it binds. -/
structure IsMatch (p : Pattern) (captures : Captures) (u : Text) : Prop where
  tokens : captures.AllTokens
  binds : captures.Binds p.segments
  eq_fill : u = p.fill captures

variable {p : Pattern} {before before' : Option Char}

/-- What a match in front of a text is. -/
theorem matchFront?_eq_some_iff {t : Text} {n : Nat} :
    p.matchFront? before t = some (captures, n) ↔
      (p.beginsWithIdent && before.any isIdentChar) = false ∧
      ∃ u rest, t = u ++ rest ∧ u.length = n ∧
        readSegments p.segments [] t = some (captures, rest) ∧
        (p.endsWithIdentLiteral && beginsWithIdentChar rest) = false := by
  unfold matchFront?
  constructor
  · intro h
    split at h
    next => cases h
    next hfirst =>
      split at h
      next => cases h
      next captures' rest hread =>
        split at h
        next => cases h
        next hlast =>
          obtain ⟨rfl, rfl⟩ := Prod.mk.inj (Option.some.inj h)
          obtain ⟨u, rfl⟩ := exists_append_of_readSegments hread
          refine ⟨Bool.eq_false_iff.2 hfirst, u, rest, rfl, ?_, hread, Bool.eq_false_iff.2 hlast⟩
          rw [List.length_append]
          omega
  · rintro ⟨hfirst, u, rest, rfl, rfl, hread, hlast⟩
    have hlength : (u ++ rest).length - rest.length = u.length := by
      rw [List.length_append]
      omega
    rw [hfirst, hread]
    dsimp only
    rw [hlast, hlength]
    rfl

/-- **A match is the pattern filled in.** -/
theorem isMatch_of_matchFront? {t : Text} {n : Nat}
    (h : p.matchFront? before t = some (captures, n)) :
    ∃ u rest, t = u ++ rest ∧ u.length = n ∧ p.IsMatch captures u := by
  obtain ⟨-, u, rest, rfl, hlength, hread, -⟩ := matchFront?_eq_some_iff.1 h
  obtain ⟨-, htokens, hfill⟩ := readSegments_sound hread
  have hall := htokens Captures.allTokens_nil
  refine ⟨u, rest, rfl, hlength, hall, ?_, List.append_cancel_right hfill⟩
  intro name hname
  obtain ⟨tok, hbound⟩ :=
    Option.isSome_iff_exists.1 (isSome_lookup_of_readSegments hread name (.inr hname))
  exact ⟨tok, hbound, hall name tok hbound⟩

theorem IsMatch.ne_nil {u : Text} (h : p.IsMatch captures u) (hsolid : p.Solid) : u ≠ [] := by
  rw [h.eq_fill]
  exact Segment.flatMap_fill_ne_nil p.segments_ne_nil hsolid h.binds

/-- Whether the matches of a pattern end with an identifier character. -/
def endsWithIdent (p : Pattern) : Bool :=
  Segment.endsWithIdent p.segments

theorem IsMatch.endsWithIdentChar {u : Text} (h : p.IsMatch captures u) (hsolid : p.Solid) :
    endsWithIdentChar u = p.endsWithIdent := by
  rw [h.eq_fill]
  exact Segment.endsWithIdentChar_fill p.segments_ne_nil hsolid h.binds

theorem beginsWithIdentChar_of_isMatch {u : Text} (h : p.IsMatch captures u) (hsolid : p.Solid) :
    beginsWithIdentChar u = p.beginsWithIdent := by
  obtain ⟨s, rest, hsegments⟩ := List.exists_cons_of_ne_nil p.segments_ne_nil
  have hmem : s ∈ p.segments := hsegments ▸ List.mem_cons_self
  rw [h.eq_fill, fill, hsegments, List.flatMap_cons,
    beginsWithIdentChar_append (Segment.fill_ne_nil hmem hsolid h.binds)]
  unfold beginsWithIdent
  rw [hsegments, List.head?_cons]
  cases s with
  | literal lit => rfl
  | placeholder name =>
      obtain ⟨tok, hbound, htok⟩ := h.binds name hmem
      rw [Segment.fill_placeholder hbound]
      exact beginsWithIdentChar_of_isToken htok

/-! ## §2. Matches in other surroundings. -/

/-- A match at the front of a text, and what follows it. -/
theorem matchFront?_append_iff {u rest : Text} :
    p.matchFront? before (u ++ rest) = some (captures, u.length) ↔
      (p.beginsWithIdent && before.any isIdentChar) = false ∧
      readSegments p.segments [] (u ++ rest) = some (captures, rest) ∧
      (p.endsWithIdentLiteral && beginsWithIdentChar rest) = false := by
  rw [matchFront?_eq_some_iff]
  refine and_congr_right fun _ => ?_
  constructor
  · rintro ⟨u', rest', hsplit, hlength, hread, hlast⟩
    obtain ⟨rfl, rfl⟩ := List.append_inj hsplit hlength.symm
    exact ⟨hread, hlast⟩
  · rintro ⟨hread, hlast⟩
    exact ⟨u, rest, rfl, rfl, hread, hlast⟩

theorem isMatch_of_matchFront?_append {u rest : Text}
    (h : p.matchFront? before (u ++ rest) = some (captures, u.length)) : p.IsMatch captures u := by
  obtain ⟨u', rest', hsplit, hlength, hmatch⟩ := isMatch_of_matchFront? h
  obtain ⟨rfl, -⟩ := List.append_inj hsplit hlength.symm
  exact hmatch

theorem endsWithIdent_of_literal (h : p.endsWithIdentLiteral = true) : p.endsWithIdent = true := by
  unfold endsWithIdentLiteral at h
  unfold endsWithIdent Segment.endsWithIdent
  cases hlast : p.segments.getLast? with
  | none =>
      rw [hlast] at h
      cases h
  | some s =>
      rw [hlast] at h
      cases s with
      | literal lit => exact h
      | placeholder name => rfl

/-- Behind a placeholder at the end, no token goes on. -/
theorem beginsWithIdentChar_of_readSegments {t rest : Text} {name : String}
    (h : readSegments segments captures t = some (captures', rest))
    (hlast : segments.getLast? = some (.placeholder name)) : beginsWithIdentChar rest = false := by
  induction segments generalizing captures t with
  | nil => cases hlast
  | cons s segments ih =>
      cases segments with
      | nil =>
          obtain rfl := Option.some.inj hlast
          obtain ⟨tok, t', captures₁, htoken, -, hrest⟩ := readSegments_placeholder_iff.1 h
          obtain ⟨-, rfl⟩ := Prod.mk.inj (Option.some.inj hrest)
          exact (token?_eq_some_iff.1 htoken).2.2
      | cons s' segments =>
          rw [List.getLast?_cons_cons] at hlast
          cases s with
          | literal lit =>
              obtain ⟨t', -, hrest⟩ := readSegments_literal_iff.1 h
              exact ih hrest hlast
          | placeholder other =>
              obtain ⟨tok, t', captures₁, -, -, hrest⟩ := readSegments_placeholder_iff.1 h
              exact ih hrest hlast

/-- **A match ends where no token goes on.** -/
theorem seam_of_matchFront? {u rest : Text} (hsolid : p.Solid)
    (h : p.matchFront? before (u ++ rest) = some (captures, u.length)) : Seam u rest := by
  intro hends
  rw [(isMatch_of_matchFront?_append h).endsWithIdentChar hsolid] at hends
  obtain ⟨-, hread, hlast⟩ := matchFront?_append_iff.1 h
  unfold endsWithIdent Segment.endsWithIdent at hends
  cases hsegment : p.segments.getLast? with
  | none =>
      rw [hsegment] at hends
      cases hends
  | some s =>
      rw [hsegment] at hends
      cases s with
      | literal lit =>
          have hliteral : p.endsWithIdentLiteral = true := by
            unfold endsWithIdentLiteral
            rw [hsegment]
            exact hends
          rw [hliteral, Bool.true_and] at hlast
          exact hlast
      | placeholder name => exact beginsWithIdentChar_of_readSegments hread hsegment

/-- **A match is found again in other surroundings.** -/
theorem matchFront?_congr {u rest rest' : Text} (hsolid : p.Solid)
    (h : p.matchFront? before (u ++ rest) = some (captures, u.length))
    (hbefore : before'.any isIdentChar = before.any isIdentChar) (hseam : Seam u rest') :
    p.matchFront? before' (u ++ rest') = some (captures, u.length) := by
  obtain ⟨hfirst, hread, -⟩ := matchFront?_append_iff.1 h
  refine matchFront?_append_iff.2 ⟨hbefore ▸ hfirst, readSegments_congr hread hseam, ?_⟩
  rw [Bool.and_eq_false_iff]
  cases hliteral : p.endsWithIdentLiteral with
  | false => exact .inl rfl
  | true =>
      refine .inr (hseam ?_)
      rw [(isMatch_of_matchFront?_append h).endsWithIdentChar hsolid]
      exact endsWithIdent_of_literal hliteral

/-- **A filled pattern is found**, where its edges are clear, with its tokens. -/
theorem matchFront?_complete {u rest : Text} (hsolid : p.Solid) (hmatch : p.IsMatch captures u)
    (hfirst : (p.beginsWithIdent && before.any isIdentChar) = false) (hseam : Seam u rest) :
    ∃ captures', p.matchFront? before (u ++ rest) = some (captures', u.length) ∧
      captures'.Extends captures := by
  have hfill : p.segments.flatMap (Segment.fill captures) = u := hmatch.eq_fill.symm
  rw [← hfill] at hseam
  obtain ⟨captures', hread, hextends⟩ := readSegments_complete p.boundaries_clear hsolid
    hmatch.binds (Captures.extends_nil captures) hseam
  rw [hfill] at hread hseam
  refine ⟨captures', matchFront?_append_iff.2 ⟨hfirst, hread, ?_⟩, hextends⟩
  rw [Bool.and_eq_false_iff]
  cases hliteral : p.endsWithIdentLiteral with
  | false => exact .inl rfl
  | true =>
      refine .inr (hseam ?_)
      rw [hmatch.endsWithIdentChar hsolid]
      exact endsWithIdent_of_literal hliteral

/-! ## §3. No match within another. -/

/-- Number of characters that are no identifier characters. -/
def marks (t : Text) : Nat :=
  t.countP fun c => !isIdentChar c

theorem marks_append (a b : Text) : marks (a ++ b) = marks a + marks b :=
  List.countP_append

theorem marks_eq_zero_iff {t : Text} : marks t = 0 ↔ ∀ c ∈ t, isIdentChar c = true := by
  unfold marks
  rw [List.countP_eq_zero]
  simp

/-- All matches have the same number of them. -/
theorem IsMatch.marks_eq {u : Text} (h : p.IsMatch captures u) :
    marks u = Segment.literalCount (fun c => !isIdentChar c) p.segments := by
  rw [h.eq_fill]
  exact Segment.countP_fill (fun c hc => by rw [hc]; rfl) h.binds

/-- **A match that begins within another does not end before it.**  All matches
have the same number of other characters, so what the outer one has behind the
inner one would be identifier characters; but there the inner one would go on. -/
theorem length_le_of_matchFront?_inside {a v rest : Text} {n : Nat} (hsolid : p.Solid)
    (houter : p.matchFront? before (a ++ v ++ rest) = some (captures, (a ++ v).length))
    (hinner : p.matchFront? before' (v ++ rest) = some (captures', n)) : v.length ≤ n := by
  obtain ⟨u, rest', hsplit, rfl, hmatch⟩ := isMatch_of_matchFront? hinner
  rw [hsplit] at hinner
  have hout := isMatch_of_matchFront?_append houter
  refine Nat.le_of_not_lt fun hshort => ?_
  -- the inner match is followed by the rest of the outer one
  obtain ⟨w, rfl, rfl⟩ : ∃ w, v = u ++ w ∧ rest' = w ++ rest := by
    obtain ⟨w, hw, hrest⟩ | ⟨w, hw, hrest⟩ := List.append_eq_append_iff.1 hsplit
    · have hlength := congrArg List.length hw
      rw [List.length_append] at hlength
      omega
    · exact ⟨w, hw, hrest⟩
  have hw : w ≠ [] := by
    intro hnil
    rw [hnil, List.append_nil] at hshort
    omega
  have hmarks : marks (a ++ (u ++ w)) = marks u := hout.marks_eq.trans hmatch.marks_eq.symm
  rw [marks_append, marks_append] at hmarks
  have hall : ∀ c ∈ w, isIdentChar c = true := marks_eq_zero_iff.1 (by omega)
  -- the outer match ends with an identifier character, so the inner one does, too
  have hends : endsWithIdentChar u = true := by
    rw [hmatch.endsWithIdentChar hsolid, ← hout.endsWithIdentChar hsolid, ← List.append_assoc,
      endsWithIdentChar_append _ hw]
    exact endsWithIdentChar_of_forall_mem hw hall
  have hstop := seam_of_matchFront? hsolid hinner hends
  rw [beginsWithIdentChar_append hw] at hstop
  cases w with
  | nil => exact hw rfl
  | cons c w =>
      have hc : isIdentChar c = false := hstop
      rw [hall c List.mem_cons_self] at hc
      cases hc

end Pattern

end ArtifactPatch
