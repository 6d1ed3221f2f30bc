/-
  ArtifactPatch.Proofs.Pattern.Scan
  ─────────────────────────────────
  **THE SCAN, MATCH BY MATCH.**

  The scan walks over a text with a number of characters to skip.  The
  equations here have no such number: a character at which nothing matches is
  passed alone, and a match is passed as a whole; every text is built in one of
  these two ways (`scan_induction`).  `Splits` says the same of a whole text, and
  keeps what the scan found out about the gaps: no match begins there.  A count
  of matches is a search from the left, so it is the greatest number of matches
  that stand one behind the other (`Pattern.le_count`).
-/
import ArtifactPatch.Proofs.Pattern.Matching
import ArtifactPatch.Proofs.Text.Greedy

namespace ArtifactPatch

open Text (byteLen lastFrom lastFrom_cons)

namespace Pattern

variable {p : Pattern} {before : Option Char} {captures : Captures}

/-! ## §1. Equations. -/

/-- The rest of a match is skipped. -/
theorem scan_skip (p : Pattern) (before : Option Char) (offset : Nat) (a t : Text) :
    p.scan before offset a.length (a ++ t) = p.scan (lastFrom before a) (offset + byteLen a) 0 t := by
  induction a generalizing before offset with
  | nil => rfl
  | cons c a ih =>
      show p.scan (some c) (offset + c.utf8Size) a.length (a ++ t) = _
      rw [ih, lastFrom_cons, Text.byteLen_cons, Nat.add_assoc]

/-- A character at which nothing matches is passed alone. -/
theorem scan_miss {c : Char} {t : Text} (h : p.matchFront? before (c :: t) = none) (offset : Nat) :
    p.scan before offset 0 (c :: t) = p.scan (some c) (offset + c.utf8Size) 0 t := by
  rw [scan, h]

/-- A match is passed as a whole. -/
theorem scan_hit {u rest : Text} (hne : u ≠ [])
    (h : p.matchFront? before (u ++ rest) = some (captures, u.length)) (offset : Nat) :
    p.scan before offset 0 (u ++ rest)
      = ⟨offset, offset + byteLen u, u, captures⟩
        :: p.scan (lastFrom before u) (offset + byteLen u) 0 rest := by
  cases u with
  | nil => exact absurd rfl hne
  | cons c u =>
      rw [List.cons_append] at h ⊢
      rw [scan, h]
      have htake : (c :: (u ++ rest)).take (c :: u).length = c :: u := by
        rw [← List.cons_append, List.take_left]
      dsimp only
      rw [htake, List.length_cons, Nat.add_sub_cancel, scan_skip, lastFrom_cons,
        Text.byteLen_cons, Nat.add_assoc]

/-- A text is empty, or nothing matches at its first character, or it begins with
a match. -/
@[elab_as_elim] theorem scan_induction {motive : Option Char → Text → Prop} (hsolid : p.Solid)
    (nil : ∀ before, motive before [])
    (miss : ∀ before c t, p.matchFront? before (c :: t) = none → motive (some c) t →
      motive before (c :: t))
    (hit : ∀ before u rest captures, u ≠ [] →
      p.matchFront? before (u ++ rest) = some (captures, u.length) →
      motive (lastFrom before u) rest → motive before (u ++ rest))
    (before : Option Char) (t : Text) : motive before t := by
  -- a match is longer than one character, so the length decides
  generalize hn : t.length = n
  induction n using Nat.strongRecOn generalizing before t with
  | ind n ih =>
    subst hn
    cases t with
    | nil => exact nil before
    | cons c t =>
        cases hmatch : p.matchFront? before (c :: t) with
        | none => exact miss before c t hmatch (ih t.length (Nat.lt_succ_self _) (some c) t rfl)
        | some r =>
            obtain ⟨captures, n⟩ := r
            obtain ⟨u, rest, hsplit, rfl, hfound⟩ := isMatch_of_matchFront? hmatch
            have hne := hfound.ne_nil hsolid
            have hpos := List.length_pos_iff.2 hne
            have hlength := congrArg List.length hsplit
            rw [List.length_append] at hlength
            rw [hsplit] at hmatch ⊢
            exact hit before u rest captures hne hmatch (ih rest.length (by omega) _ rest rfl)

/-! ## §2. Texts that a scan has split. -/

/-- A text split into gaps and matches: in a gap no match begins. -/
inductive Splits (p : Pattern) : (before : Option Char) → Text → List Match → List Text → Prop
  | nil (before : Option Char) : Splits p before [] [] [[]]
  | miss {before : Option Char} {c : Char} {t gap : Text} {ms : List Match} {gs : List Text}
      (hnone : p.matchFront? before (c :: t) = none) (h : Splits p (some c) t ms (gap :: gs)) :
      Splits p before (c :: t) ms ((c :: gap) :: gs)
  | hit {before : Option Char} {rest : Text} {ms : List Match} {gs : List Text} (m : Match)
      (hne : m.text ≠ [])
      (hmatch : p.matchFront? before (m.text ++ rest) = some (m.captures, m.text.length))
      (h : Splits p (lastFrom before m.text) rest ms gs) :
      Splits p before (m.text ++ rest) (m :: ms) ([] :: gs)

/-- A character in front of tiled matches belongs to the first gap. -/
theorem gaps_cons_char {pre t : Text} {c : Char} {ms : List Match}
    (h : Tiles (byteLen pre + c.utf8Size) ms t) : ∃ gap gs,
      gaps (pre ++ c :: t) (byteLen pre + c.utf8Size) ms = gap :: gs ∧
        gaps (pre ++ c :: t) (byteLen pre) ms = (c :: gap) :: gs := by
  have hpre : byteLen pre + c.utf8Size = byteLen (pre ++ [c]) := by
    rw [Text.byteLen_append]
    rfl
  have hassoc : pre ++ c :: t = pre ++ [c] ++ t := by simp
  -- the first gap is the same text, with or without the character
  have hgap (gap rest : Text) :
      Text.slice? (byteLen pre + c.utf8Size) (byteLen pre + c.utf8Size + byteLen gap)
          (pre ++ c :: (gap ++ rest)) = some gap ∧
        Text.slice? (byteLen pre) (byteLen pre + c.utf8Size + byteLen gap)
          (pre ++ c :: (gap ++ rest)) = some (c :: gap) := by
    constructor
    · have hslice := Text.slice?_append (pre ++ [c]) gap rest
      rw [← hpre] at hslice
      rw [← hslice]
      congr 1
      simp
    · have hslice := Text.slice?_append pre (c :: gap) rest
      rw [Text.byteLen_cons, ← Nat.add_assoc] at hslice
      rw [← hslice]
      congr 1
      simp
  cases h with
  | nil =>
      obtain ⟨hshort, hlong⟩ := hgap t []
      have hlength : byteLen (pre ++ c :: t) = byteLen pre + c.utf8Size + byteLen t := by
        rw [hassoc, Text.byteLen_append, ← hpre]
      rw [List.append_nil] at hshort hlong
      refine ⟨t, [], ?_, ?_⟩
      · rw [gaps, hlength, hshort]
        rfl
      · rw [gaps, hlength, hlong]
        rfl
  | @cons _ m ms gap rest hstart hstop _ =>
      obtain ⟨hshort, hlong⟩ := hgap gap (m.text ++ rest)
      rw [← List.append_assoc, ← hstart] at hshort hlong
      refine ⟨gap, gaps (pre ++ c :: (gap ++ m.text ++ rest)) m.stop ms, ?_, ?_⟩
      · rw [gaps, hshort]
        rfl
      · rw [gaps, hlong]
        rfl

/-- **The scan splits a text.** -/
theorem scan_splits (hsolid : p.Solid) (before : Option Char) (pre t : Text) :
    p.Splits before t (p.scan before (byteLen pre) 0 t)
      (gaps (pre ++ t) (byteLen pre) (p.scan before (byteLen pre) 0 t)) := by
  induction before, t using scan_induction hsolid generalizing pre with
  | nil before =>
      have hslice : Text.slice? (byteLen pre) (byteLen (pre ++ [])) (pre ++ []) = some [] := by
        have h := Text.slice?_append pre [] []
        rw [List.append_nil, List.append_nil, Text.byteLen_nil, Nat.add_zero] at h
        rw [List.append_nil]
        exact h
      rw [scan, gaps, hslice]
      exact .nil before
  | miss before c t hmatch ih =>
      rw [scan_miss hmatch]
      have htiles : Tiles (byteLen pre + c.utf8Size)
          (p.scan (some c) (byteLen pre + c.utf8Size) 0 t) t :=
        p.scan_tiles (some c) (byteLen pre + c.utf8Size) 0 t (Nat.zero_le _)
      obtain ⟨gap, gs, hshort, hlong⟩ := gaps_cons_char htiles
      rw [hlong]
      refine .miss hmatch ?_
      have h := ih (pre ++ [c])
      have hpre : byteLen (pre ++ [c]) = byteLen pre + c.utf8Size := by
        rw [Text.byteLen_append]
        rfl
      rw [hpre, List.append_assoc] at h
      rw [← hshort]
      exact h
  | hit before u rest captures hne hmatch ih =>
      rw [scan_hit hne hmatch]
      have hgap : Text.slice? (byteLen pre) (byteLen pre) (pre ++ (u ++ rest)) = some [] := by
        have h := Text.slice?_append pre [] (u ++ rest)
        rw [List.append_nil] at h
        exact h
      rw [gaps, hgap]
      refine .hit ⟨byteLen pre, byteLen pre + byteLen u, u, captures⟩ hne hmatch ?_
      have h := ih (pre ++ u)
      rw [Text.byteLen_append, List.append_assoc] at h
      exact h

theorem matches_splits (hsolid : p.Solid) (content : Text) :
    p.Splits none content (p.matches content) (gaps content 0 (p.matches content)) :=
  scan_splits hsolid none [] content

theorem Splits.isMatch {t : Text} {ms : List Match} {gs : List Text} (h : p.Splits before t ms gs) :
    ∀ m ∈ ms, p.IsMatch m.captures m.text := by
  induction h with
  | nil before =>
      intro m hm
      cases hm
  | miss _ _ ih => exact ih
  | hit m _ hmatch _ ih => exact List.forall_mem_cons.2 ⟨isMatch_of_matchFront?_append hmatch, ih⟩

/-- Every match that is listed is one. -/
theorem isMatch_of_mem_matches {content : Text} {m : Match} (hsolid : p.Solid)
    (h : m ∈ p.matches content) : p.IsMatch m.captures m.text :=
  (matches_splits hsolid content).isMatch m h

/-! ## §3. Counting. -/

/-- A match begins the text. -/
def front (p : Pattern) : Text.Front :=
  fun before t n => ∃ captures, p.matchFront? before t = some (captures, n)

/-- Scanning is a search from the left. -/
theorem Splits.greedy {t : Text} {ms : List Match} {gs : List Text} (h : p.Splits before t ms gs) :
    Text.Greedy p.front before ms.length t := by
  induction h with
  | nil before => exact .nil before
  | miss hnone _ ih =>
      refine .miss (fun n hfront => ?_) ih
      obtain ⟨captures, hmatch⟩ := hfront
      rw [hnone] at hmatch
      cases hmatch
  | hit m hne hmatch _ ih => exact .hit m.text _ hne ⟨m.captures, hmatch⟩ ih

/-- **As many matches are counted as stand one behind the other.** -/
theorem le_count {n : Nat} {content : Text} (hsolid : p.Solid)
    (h : Text.Packs p.front none n content) : n ≤ p.count content := by
  refine h.le_of_greedy ?_ (matches_splits hsolid content).greedy
  intro before a v rest k houter hinner
  obtain ⟨captures, houter⟩ := houter
  obtain ⟨captures', hinner⟩ := hinner
  exact length_le_of_matchFront?_inside hsolid houter hinner

end Pattern

end ArtifactPatch
