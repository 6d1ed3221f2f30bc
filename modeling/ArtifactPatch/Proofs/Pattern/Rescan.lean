/-
  ArtifactPatch.Proofs.Pattern.Rescan
  ───────────────────────────────────
  **SCANNING WHAT A RULE HAS WRITTEN.**

  A rule leaves the gaps between the matches and puts a new text in the place
  of each.  A match in the result would lie in a gap, where the scan before has
  found none, or it would meet a new text.  Where no match can be laid over a
  new text, there is none (`Splits.scan_weave`).  And what every new text shows
  in any surroundings is found at least once for each (`packs_weave`).
-/
import ArtifactPatch.Proofs.Pattern.Scan
import ArtifactPatch.Proofs.Text.Overlap

namespace ArtifactPatch

open Text (byteLen lastFrom lastFrom_cons)

/-! ## §1. Weaving. -/

namespace Text

theorem weave_cons_char (c : Char) (gap : Text) (gs pieces : List Text) :
    weave ((c :: gap) :: gs) pieces = c :: weave (gap :: gs) pieces := by
  cases pieces with
  | nil => rfl
  | cons piece pieces => rfl

/-- A first piece stands behind the first gap, if there is one. -/
theorem weave_cons_piece (gs : List Text) (piece : Text) (pieces : List Text) :
    ∃ gap gs', weave gs (piece :: pieces) = gap ++ (piece ++ weave gs' pieces) := by
  cases gs with
  | nil => exact ⟨[], [], rfl⟩
  | cons gap gs => exact ⟨gap, gs, List.append_assoc gap piece _⟩

/-- A text has a hit, whatever stands around it. -/
def Shows (front : Front) (t : Text) : Prop :=
  ∃ x s y, t = x ++ (s ++ y) ∧ s ≠ [] ∧
    ∀ before rest, front (lastFrom before x) (s ++ (y ++ rest)) s.length

/-- **What the pieces show is packed in a splice.** -/
theorem packs_weave {front : Front} {pieces : List Text} (h : ∀ piece ∈ pieces, Shows front piece)
    (before : Option Char) (gs : List Text) :
    Packs front before pieces.length (weave gs pieces) := by
  induction pieces generalizing before gs with
  | nil => exact .none before _
  | cons piece pieces ih =>
      obtain ⟨gap, gs', hweave⟩ := weave_cons_piece gs piece pieces
      obtain ⟨x, s, y, rfl, hne, hhit⟩ := h piece List.mem_cons_self
      rw [hweave, List.append_assoc, List.append_assoc]
      -- the hit is taken, and nothing else up to the next piece
      refine Packs.skips gap (Packs.skips x (.hit s _ hne (hhit _ _) (Packs.skips y ?_)))
      exact ih (fun other hother => h other (List.mem_cons_of_mem _ hother)) _ gs'

theorem shows_needle {needle t : Text} (hne : needle ≠ []) (h : needle <:+: t) :
    Shows (needleFront needle) t := by
  obtain ⟨x, y, rfl⟩ := h
  exact ⟨x, needle, y, List.append_assoc x needle y, hne,
    fun _ rest => ⟨List.prefix_append needle (y ++ rest), rfl⟩⟩

end Text

/-- What a text ends with decides what the next one is seen behind. -/
theorem any_lastFrom {t : Text} (h : t ≠ []) (before : Option Char) :
    (lastFrom before t).any isIdentChar = endsWithIdentChar t := by
  unfold lastFrom endsWithIdentChar
  rw [List.getLast?_eq_some_getLast h]
  rfl

namespace Pattern

variable {p : Pattern} {before before' : Option Char} {captures : Captures}

/-! ## §2. Passing a text. -/

/-- A text in which no match begins is passed. -/
theorem scan_pass {a rest : Text}
    (h : ∀ x v, a = x ++ v → v ≠ [] → p.matchFront? (lastFrom before x) (v ++ rest) = none)
    (offset : Nat) :
    p.scan before offset 0 (a ++ rest) = p.scan (lastFrom before a) (offset + byteLen a) 0 rest := by
  induction a generalizing before offset with
  | nil => rfl
  | cons c a ih =>
      have hfirst : p.matchFront? before (c :: (a ++ rest)) = none :=
        h [] (c :: a) rfl (List.cons_ne_nil c a)
      rw [List.cons_append, scan_miss hfirst, ih, lastFrom_cons, Text.byteLen_cons, Nat.add_assoc]
      intro x v ha hv
      have hlater := h (c :: x) v (by rw [ha, List.cons_append]) hv
      rwa [lastFrom_cons] at hlater

/-- No match begins in a text that none can be laid over. -/
theorem matchFront?_eq_none_of_apart {a x v rest : Text}
    (hapart : ∀ captures u, p.IsMatch captures u → Text.Apart u a) (ha : a = x ++ v) (hv : v ≠ []) :
    p.matchFront? before (v ++ rest) = none := by
  cases hmatch : p.matchFront? before (v ++ rest) with
  | none => rfl
  | some found =>
      obtain ⟨u, rest', hsplit, -, hu⟩ := isMatch_of_matchFront? hmatch
      exact ((hapart _ u hu).symm.append_ne ha hv rest rest' hsplit).elim

/-! ## §3. The scan of a rewritten text. -/

/-- What follows the first gap, before and after new texts are put in. -/
theorem Splits.first_gap {t gap : Text} {ms : List Match} {gs : List Text} (new : Match → Text)
    (h : p.Splits before t ms (gap :: gs)) :
    ∃ tail tail', t = gap ++ tail ∧ Text.weave (gap :: gs) (ms.map new) = gap ++ tail' ∧
      (tail' = [] ∨ ∃ m rest, p.IsMatch m.captures m.text ∧ tail' = new m ++ rest) := by
  generalize hgs : gap :: gs = all at h
  induction h generalizing gap gs with
  | nil before =>
      obtain ⟨rfl, rfl⟩ := List.cons.inj hgs
      exact ⟨[], [], rfl, rfl, .inl rfl⟩
  | @miss before c t gap' ms gs' _ _ ih =>
      obtain ⟨rfl, rfl⟩ := List.cons.inj hgs
      obtain ⟨tail, tail', rfl, hweave, hfollows⟩ := ih rfl
      refine ⟨tail, tail', rfl, ?_, hfollows⟩
      rw [Text.weave_cons_char, hweave, List.cons_append]
  | @hit before rest ms gs' m _ hmatch _ _ =>
      obtain ⟨rfl, rfl⟩ := List.cons.inj hgs
      exact ⟨m.text ++ rest, _, rfl, rfl,
        .inr ⟨m, _, isMatch_of_matchFront?_append hmatch, rfl⟩⟩

/-- **Nothing is found in a rewritten text** if no match ends with an identifier
character, and no match can be laid over a new text.  The characters in front
of the old and of the new text need not be the same, if both or neither could go
on in an identifier. -/
theorem Splits.scan_weave {t : Text} {ms : List Match} {gs : List Text} (hsolid : p.Solid)
    (hclosed : p.endsWithIdent = false) {new : Match → Text}
    (hnew : ∀ m, p.IsMatch m.captures m.text → new m ≠ [] ∧ endsWithIdentChar (new m) = false ∧
      ∀ captures u, p.IsMatch captures u → Text.Apart u (new m))
    (h : p.Splits before t ms gs) (hbefore : before'.any isIdentChar = before.any isIdentChar)
    (offset : Nat) : p.scan before' offset 0 (Text.weave gs (ms.map new)) = [] := by
  -- a match ends where a token could not go on
  have hends {captures : Captures} {u : Text} (hu : p.IsMatch captures u) :
      endsWithIdentChar u = false := (hu.endsWithIdentChar hsolid).trans hclosed
  induction h generalizing before' offset with
  | nil before => rfl
  | @miss before c t gap ms gs hnone h ih =>
      obtain ⟨tail, tail', rfl, hweave, hfollows⟩ := h.first_gap new
      have hmiss : p.matchFront? before' (c :: (gap ++ tail')) = none := by
        cases hmatch : p.matchFront? before' (c :: (gap ++ tail')) with
        | none => rfl
        | some found =>
            exfalso
            obtain ⟨captures, n⟩ := found
            obtain ⟨u, rest, hsplit, rfl, hu⟩ := isMatch_of_matchFront? hmatch
            rw [hsplit] at hmatch
            rw [← List.cons_append] at hsplit
            -- within the gap, the match would have been there before
            have hinside (w : Text) (hw : c :: gap = u ++ w) : False := by
              have hfound := matchFront?_congr hsolid hmatch hbefore.symm
                (seam_of_closed (hends hu) (w ++ tail))
              rw [← List.append_assoc, ← hw, List.cons_append, hnone] at hfound
              cases hfound
            obtain ⟨w, rfl, hrest⟩ | ⟨w, hw, -⟩ := List.append_eq_append_iff.1 hsplit
            · by_cases hw : w = []
              · exact hinside [] (by rw [hw, List.append_nil, List.append_nil])
              · -- beyond the gap, it would meet the new text
                rcases hfollows with rfl | ⟨m, rest', hm, rfl⟩
                · exact hw (List.append_eq_nil_iff.1 hrest.symm).1
                · exact ((hnew m hm).2.2 _ _ hu).append_ne rfl hw rest rest' hrest.symm
            · exact hinside w hw
      rw [Text.weave_cons_char, hweave, scan_miss hmiss, ← hweave]
      exact ih rfl _
  | @hit before rest ms gs m hne hmatch _ ih =>
      have hm := isMatch_of_matchFront?_append hmatch
      obtain ⟨hnewne, hnewends, hapart⟩ := hnew m hm
      show p.scan before' offset 0 (new m ++ Text.weave gs (ms.map new)) = []
      rw [scan_pass fun x v hsplit hv => matchFront?_eq_none_of_apart hapart hsplit hv]
      refine ih ?_ _
      rw [any_lastFrom hnewne, any_lastFrom hne, hnewends, hends hm]

/-! ## §4. A pattern within a new text. -/

/-- Filled segments show a pattern that they end with, if nothing in front of it
or in it could go on in an identifier. -/
theorem shows_fill {first : List Segment} (hsolid : p.Solid) (hclosed : p.endsWithIdent = false)
    (htokens : captures.AllTokens) (hbinds : captures.Binds (first ++ p.segments))
    (hfirst : first ≠ []) (hfirstsolid : .literal [] ∉ first)
    (hedge : Segment.endsWithIdent first = false) :
    Text.Shows p.front ((first ++ p.segments).flatMap (Segment.fill captures)) := by
  have hbindsFirst : captures.Binds first :=
    fun name h => hbinds name (List.mem_append_left _ h)
  have hmatch : p.IsMatch captures (p.fill captures) :=
    ⟨htokens, fun name h => hbinds name (List.mem_append_right _ h), rfl⟩
  refine ⟨first.flatMap (Segment.fill captures), p.fill captures, [], ?_, hmatch.ne_nil hsolid, ?_⟩
  · rw [List.flatMap_append, List.append_nil]
    rfl
  · intro before rest
    have hedges : (p.beginsWithIdent &&
        (Text.lastFrom before (first.flatMap (Segment.fill captures))).any isIdentChar) = false := by
      rw [any_lastFrom (Segment.flatMap_fill_ne_nil hfirst hfirstsolid hbindsFirst),
        Segment.endsWithIdentChar_fill hfirst hfirstsolid hbindsFirst, hedge, Bool.and_false]
    have hends : endsWithIdentChar (p.fill captures) = false := by
      rw [hmatch.endsWithIdentChar hsolid, hclosed]
    obtain ⟨captures', hfound, -⟩ :=
      matchFront?_complete hsolid hmatch hedges (seam_of_closed hends ([] ++ rest))
    exact ⟨captures', hfound⟩

end Pattern

end ArtifactPatch
