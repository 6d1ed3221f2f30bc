/-
  ArtifactPatch.Proofs.Pattern.Maximal
  ────────────────────────────────────
  **THE SCAN COUNTS AS MANY MATCHES AS CAN STAND APART.**

  Taking the leftmost match first is not the best choice in general: a long
  match may cover two short ones.  Here it is, since all matches of a pattern
  have the same number of characters that are no identifier characters, and
  begin and end where no identifier goes on.  So no match lies within another
  (`length_lt_of_matchFront?_inside`), starts and ends are in the same order
  (`Found.stop_lt_stop`), and matches that stand apart can be packed one behind
  the other (`packs_of_pairwise`).  Main result: `count_isGreatest`.
-/
import Mathlib.Data.Finset.Card
import Mathlib.Order.Bounds.Basic
import ArtifactPatch.Proofs.Pattern.Occurrence
import ArtifactPatch.Proofs.Pattern.Rescan
import ArtifactPatch.Proofs.Patch.Reference

namespace ArtifactPatch

open Text (byteLen lastFrom)

/-- Two matches that do not overlap. -/
def Match.Apart (m m' : Match) : Prop :=
  m.stop ≤ m'.start ∨ m'.stop ≤ m.start

instance : Std.Symm Match.Apart := ⟨fun _ _ => Or.symm⟩

namespace Pattern

variable {p : Pattern} {before : Option Char} {captures captures' : Captures} {content : Text}
  {m m' : Match}

/-! ## §1. Matches at a position. -/

/-- What the matcher finds in a text at the start of `m` is `m`. -/
def Found (p : Pattern) (content : Text) (m : Match) : Prop :=
  p.matchAt? content m.start = some (some m)

/-- A match that is found lies between two cuts of the text. -/
theorem exists_slice_of_matchAt? {start : Nat} (h : p.matchAt? content start = some (some m)) :
    ∃ a b, content = a ++ b ∧ byteLen a = start := by
  unfold matchAt? at h
  split at h
  next => cases h
  next =>
    obtain ⟨r, -, h⟩ := Option.bind_eq_some_iff.1 h
    cases r with
    | none => cases h
    | some r =>
        dsimp only at h
        split at h
        next => cases h
        next =>
          obtain ⟨text, hslice, -⟩ := Option.map_eq_some_iff.1 h
          obtain ⟨a, b, rfl, ha, -⟩ := Text.slice?_eq_some_iff.1 hslice
          exact ⟨a, text ++ b, List.append_assoc .., ha⟩

/-- **What is found** at a position is a match at the front of the text there. -/
theorem found_iff : p.Found content m ↔
    ∃ a b, content = a ++ (m.text ++ b) ∧ byteLen a = m.start ∧
      m.start + byteLen m.text = m.stop ∧
      p.matchFront? (lastFrom none a) (m.text ++ b) = some (m.captures, m.text.length) := by
  constructor
  · intro h
    obtain ⟨a, t, rfl, ha⟩ := exists_slice_of_matchAt? h
    unfold Found at h
    rw [← ha, matchAt?_eq] at h
    obtain ⟨⟨captures, n⟩, hmatch, rfl⟩ := Option.map_eq_some_iff.1 (Option.some.inj h)
    obtain ⟨u, rest, rfl, rfl, -⟩ := isMatch_of_matchFront? hmatch
    have htake : (u ++ rest).take u.length = u := List.take_left
    dsimp only
    rw [htake]
    exact ⟨a, rest, rfl, rfl, rfl, hmatch⟩
  · rintro ⟨a, b, rfl, ha, hstop, hmatch⟩
    unfold Found
    rw [← ha, matchAt?_eq, hmatch, Option.map_some, List.take_left, ha, hstop]

/-- At each start one match at most is found. -/
theorem Found.eq_of_start (h : p.Found content m) (h' : p.Found content m')
    (hstart : m.start = m'.start) : m = m' := by
  unfold Found at h h'
  rw [hstart, h'] at h
  exact (Option.some.inj (Option.some.inj h)).symm

theorem Found.start_lt_stop (hsolid : p.Solid) (h : p.Found content m) : m.start < m.stop := by
  obtain ⟨a, b, -, -, hstop, hmatch⟩ := found_iff.1 h
  have hne := (isMatch_of_matchFront?_append hmatch).ne_nil hsolid
  have hpos : byteLen m.text ≠ 0 := fun hzero => hne (Text.eq_nil_of_byteLen_eq_zero hzero)
  omega

/-! ## §2. No match within another. -/

/-- **A match that begins within another ends behind it.**  If both ended at one
place, what the outer one has in front of the inner one would be identifier
characters; but a match that begins with one does not begin behind one. -/
theorem length_lt_of_matchFront?_inside {a v rest : Text} {n : Nat} (hsolid : p.Solid)
    (ha : a ≠ [])
    (houter : p.matchFront? before (a ++ v ++ rest) = some (captures, (a ++ v).length))
    (hinner : p.matchFront? (lastFrom before a) (v ++ rest) = some (captures', n)) :
    v.length < n := by
  refine Nat.lt_of_le_of_ne (length_le_of_matchFront?_inside hsolid houter hinner) ?_
  rintro rfl
  have hout := isMatch_of_matchFront?_append houter
  have hin := isMatch_of_matchFront?_append hinner
  have hmarks : marks (a ++ v) = marks v := hout.marks_eq.trans hin.marks_eq.symm
  rw [marks_append] at hmarks
  have hall : ∀ c ∈ a, isIdentChar c = true := marks_eq_zero_iff.1 (by omega)
  have hbegins : p.beginsWithIdent = true := by
    rw [← beginsWithIdentChar_of_isMatch hout hsolid, beginsWithIdentChar_append ha]
    cases a with
    | nil => exact absurd rfl ha
    | cons c a => exact hall c List.mem_cons_self
  have hlast : (lastFrom before a).any isIdentChar = true :=
    (any_lastFrom ha before).trans (endsWithIdentChar_of_forall_mem ha hall)
  have hfirst := (matchFront?_append_iff.1 hinner).1
  rw [hbegins, hlast] at hfirst
  cases hfirst

/-- **Starts and ends are in the same order.** -/
theorem Found.stop_lt_stop (hsolid : p.Solid) (h : p.Found content m) (h' : p.Found content m')
    (hlt : m.start < m'.start) : m.stop < m'.stop := by
  obtain ⟨a, b, rfl, ha, hstop, hmatch⟩ := found_iff.1 h
  obtain ⟨a', b', hcontent, ha', hstop', hmatch'⟩ := found_iff.1 h'
  obtain ⟨gap, rfl, hgap⟩ := Text.exists_append_of_byteLen_le hcontent (by omega)
  rw [Text.byteLen_append] at ha'
  rcases begins_within_or_behind hgap.symm with ⟨v, -, htext, hrest⟩ | ⟨w, rfl, -⟩
  · -- the later match begins within the earlier one
    rw [htext, Text.byteLen_append] at hstop
    have hne : gap ≠ [] := by
      rintro rfl
      rw [Text.byteLen_nil] at ha'
      omega
    rw [htext] at hmatch
    rw [Text.lastFrom_append, hrest] at hmatch'
    have hlength := length_lt_of_matchFront?_inside hsolid hne hmatch hmatch'
    obtain ⟨w, hv, -⟩ | ⟨w, htext', -⟩ := List.append_eq_append_iff.1 hrest
    · have hlonger := congrArg List.length hv
      rw [List.length_append] at hlonger
      omega
    · have hw : byteLen w ≠ 0 := by
        intro hzero
        rw [htext', Text.eq_nil_of_byteLen_eq_zero hzero, List.append_nil] at hlength
        exact Nat.lt_irrefl _ hlength
      rw [htext', Text.byteLen_append] at hstop'
      omega
  · have hpos := h'.start_lt_stop hsolid
    rw [Text.byteLen_append] at ha'
    omega

theorem Found.start_lt_start_iff (hsolid : p.Solid) (h : p.Found content m)
    (h' : p.Found content m') : m.start < m'.start ↔ m.stop < m'.stop := by
  refine ⟨h.stop_lt_stop hsolid h', fun hlt => ?_⟩
  rcases Nat.lt_trichotomy m.start m'.start with hstart | hstart | hstart
  · exact hstart
  · rw [h.eq_of_start h' hstart] at hlt
    exact absurd hlt (Nat.lt_irrefl _)
  · have := h'.stop_lt_stop hsolid h hstart
    omega

/-- **No match is properly contained in another.** -/
theorem Found.eq_of_contained (hsolid : p.Solid) (h : p.Found content m) (h' : p.Found content m')
    (hstart : m'.start ≤ m.start) (hstop : m.stop ≤ m'.stop) : m = m' := by
  refine h.eq_of_start h' (Nat.le_antisymm (Nat.le_of_not_lt fun hlt => ?_) hstart)
  have := h'.stop_lt_stop hsolid h hlt
  omega

/-! ## §3. Packing. -/

/-- Matches one behind the other are packed into the text behind a place in front
of them. -/
theorem packs_of_pairwise {ms : List Match} (hsolid : p.Solid) (pre t : Text)
    (hfound : ∀ m ∈ ms, p.Found (pre ++ t) m) (hbehind : ∀ m ∈ ms, byteLen pre ≤ m.start)
    (hpair : ms.Pairwise fun m m' => m.stop ≤ m'.start) :
    Text.Packs p.front (lastFrom none pre) ms.length t := by
  induction ms generalizing pre t with
  | nil => exact .none _ _
  | cons m ms ih =>
      obtain ⟨hfirst, hpair⟩ := List.pairwise_cons.1 hpair
      obtain ⟨a, b, hcontent, ha, hstop, hmatch⟩ := found_iff.1 (hfound m List.mem_cons_self)
      have hne := (isMatch_of_matchFront?_append hmatch).ne_nil hsolid
      have hle := hbehind m List.mem_cons_self
      -- the text in front of the match goes on where `pre` ends
      obtain ⟨gap, rfl, rfl⟩ := Text.exists_append_of_byteLen_le hcontent (ha ▸ hle)
      have hsplit : pre ++ (gap ++ (m.text ++ b)) = pre ++ gap ++ m.text ++ b := by simp
      have hrest := ih (pre ++ gap ++ m.text) b
        (fun m' hm' => hsplit ▸ hfound m' (List.mem_cons_of_mem m hm'))
        (fun m' hm' => by
          have := hfirst m' hm'
          rw [Text.byteLen_append]
          omega)
        hpair
      rw [Text.lastFrom_append] at hrest
      refine Text.Packs.skips gap ?_
      rw [← Text.lastFrom_append]
      exact .hit m.text b hne ⟨m.captures, hmatch⟩ hrest

/-- Matches that stand apart can be listed one behind the other. -/
theorem exists_pairwise_of_apart (hsolid : p.Solid) {S : Finset Match}
    (hfound : ∀ m ∈ S, p.Found content m) (hapart : (S : Set Match).Pairwise Match.Apart) :
    ∃ ms : List Match, ms.length = S.card ∧ (∀ m ∈ ms, m ∈ S) ∧
      ms.Pairwise fun m m' => m.stop ≤ m'.start := by
  have hperm : (S.toList.mergeSort fun m m' => m.start ≤ m'.start).Perm S.toList :=
    List.mergeSort_perm _ _
  have hmem : ∀ m ∈ S.toList.mergeSort fun m m' => m.start ≤ m'.start, m ∈ S :=
    fun m hm => Finset.mem_toList.1 (hperm.mem_iff.1 hm)
  have hsorted : (S.toList.mergeSort fun m m' => m.start ≤ m'.start).Pairwise
      fun m m' => decide (m.start ≤ m'.start) = true :=
    List.pairwise_mergeSort
      (fun a b c hab hbc => by
        rw [decide_eq_true_eq] at hab hbc ⊢
        exact Nat.le_trans hab hbc)
      (fun a b => by
        rw [Bool.or_eq_true, decide_eq_true_eq, decide_eq_true_eq]
        exact Nat.le_total a.start b.start) _
  have hnodup := hperm.nodup_iff.2 S.nodup_toList
  refine ⟨_, by rw [hperm.length_eq, Finset.length_toList], hmem, ?_⟩
  refine (hsorted.and hnodup).imp_of_mem fun {m m'} hm hm' h => ?_
  have hle := of_decide_eq_true h.1
  rcases hapart (hmem m hm) (hmem m' hm') h.2 with hbefore | hbefore
  · exact hbefore
  · -- the later one would end before it begins
    have := (hfound m' (hmem m' hm')).start_lt_stop hsolid
    omega

/-! ## §4. Counts. -/

theorem found_of_mem_matches (hsolid : p.Solid) (hm : m ∈ p.matches content) :
    p.Found content m := by
  obtain ⟨a, b, hcontent, ha, hstop, -, hmatch⟩ := mem_scan hsolid [] content m hm
  rw [List.nil_append, List.append_assoc] at hcontent
  exact found_iff.2 ⟨a, b, hcontent, ha, hstop, hmatch⟩

/-- **A count of matches is the greatest number that stand apart.**  For every
source that compiles and every text: no match that is found at some position is
properly contained in another one, so their starts and ends are in the same
order; and the number of matches that the scan lists is the greatest size of a
set of matches that do not overlap.  The same number is counted for the pattern,
for a shape, and in the outcome of a rule. -/
theorem count_isGreatest {source : String} (hp : compile source = .ok p) (content : Text) :
    (∀ m m', p.Found content m → p.Found content m' →
      (m'.start ≤ m.start → m.stop ≤ m'.stop → m = m') ∧
      (m.start < m'.start ↔ m.stop < m'.stop)) ∧
    IsGreatest {n | ∃ S : Finset Match, S.card = n ∧ (∀ m ∈ S, p.Found content m) ∧
      (S : Set Match).Pairwise Match.Apart} (p.matches content).length ∧
    p.count content = (p.matches content).length ∧
    (∀ r : Rule, r.pattern = p → ∃ outcome text, Rule.runAll [r] content = .ok ([outcome], text) ∧
      outcome.occurrences = (p.matches content).length) ∧
    ∀ min, (Expectation.shape p min).count content = (p.matches content).length := by
  have hsolid := solid_of_compile hp
  refine ⟨fun m m' h h' => ⟨h.eq_of_contained hsolid h', h.start_lt_start_iff hsolid h'⟩,
    ⟨?_, ?_⟩, rfl, ?_, fun min => rfl⟩
  · -- the scan's own matches stand apart
    have hnodup : (p.matches content).Nodup :=
      (p.matches_starts content).imp fun {m m'} hlt heq => by
        rw [heq] at hlt
        exact Nat.lt_irrefl _ hlt
    refine ⟨(p.matches content).toFinset, List.toFinset_card_of_nodup hnodup, ?_, ?_⟩
    · intro m hm
      exact found_of_mem_matches hsolid (List.mem_toFinset.1 hm)
    · rw [List.coe_toFinset]
      have hpair : (p.matches content).Pairwise Match.Apart :=
        (p.matches_tiles content).pairwise_stop_le.2.imp Or.inl
      exact hpair.set_pairwise
  · rintro n ⟨S, rfl, hfound, hapart⟩
    obtain ⟨ms, hlength, hmem, hpair⟩ := exists_pairwise_of_apart hsolid hfound hapart
    rw [← hlength]
    exact le_count hsolid (packs_of_pairwise hsolid [] content
      (fun m hm => hfound m (hmem m hm)) (fun m _ => Nat.zero_le m.start) hpair)
  · rintro r rfl
    exact ⟨r.outcomeOn content, _, Rule.runAll_eq [r] content, rfl⟩

/-- A pattern of two tokens. -/
def samplePair : Pattern :=
  ⟨[.placeholder "A", .literal ",".toList, .placeholder "B"], by decide, by decide⟩

/-- Three pairs overlap in a row of four tokens.  The scan passes the one in the
middle, and no choice among them has more than two that stand apart. -/
theorem count_isGreatest_sample :
    compile "$A,$B" = .ok samplePair ∧
    samplePair.Found "i,j,k,l".toList ⟨2, 5, "j,k".toList, [("A", "j".toList), ("B", "k".toList)]⟩ ∧
    ∀ S : Finset Match, (∀ m ∈ S, samplePair.Found "i,j,k,l".toList m) →
      (S : Set Match).Pairwise Match.Apart → S.card ≤ 2 := by
  have hcompile : compile "$A,$B" = .ok samplePair := by decide +kernel
  have hlength : (samplePair.matches "i,j,k,l".toList).length = 2 := by decide +kernel
  obtain ⟨-, hgreatest, -⟩ := count_isGreatest hcompile "i,j,k,l".toList
  refine ⟨hcompile, by unfold Found; decide +kernel, fun S hfound hapart => ?_⟩
  rw [← hlength]
  exact hgreatest.2 ⟨S, rfl, hfound, hapart⟩

end Pattern

end ArtifactPatch
