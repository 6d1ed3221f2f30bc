/-
  ArtifactPatch.Proofs.Edit.Splice
  ────────────────────────────────
  **SPLICING A TILED TEXT.**

  A batch that replaces the matches of a tiling passes every check, and its
  splices, carried out from the last edit to the first, leave the gaps with
  the new texts woven in:

      applyAll content edits = .ok (weave (gaps content 0 ms) new texts)

  The laws of the parts (`admits_ofText`, `splice_append`, `overlap?`,
  `lastFirst`) stand on their own.
-/
import Mathlib.Data.List.Nodup
import ArtifactPatch.Edit
import ArtifactPatch.Proofs.Pattern.Tiling

namespace ArtifactPatch

open Text (byteLen)

/-! ## §1. Checks. -/

/-- What was expected of a text admits that text, hashed or not. -/
@[simp] theorem Expected.admits_ofText (t : Text) : (Expected.ofText t).admits t = true := by
  unfold Expected.ofText
  split
  · exact decide_eq_true rfl
  · exact decide_eq_true rfl

namespace Edit

/-- An edit passes its check exactly when its range holds what it expects. -/
theorem check_eq_ok_iff {content : Text} {e : Edit} :
    check content e = .ok ()
      ↔ ∃ found, Text.slice? e.start e.stop content = some found
          ∧ e.expected.admits found = true := by
  unfold check
  cases hs : Text.slice? e.start e.stop content with
  | none => simp
  | some found =>
      cases ha : e.expected.admits found with
      | true => simp [ha]
      | false => simp [ha]

theorem forM_check_eq_ok {content : Text} {edits : List Edit}
    (h : ∀ e ∈ edits, check content e = .ok ()) :
    edits.forM (check content) = .ok () := by
  induction edits with
  | nil => rfl
  | cons e edits ih =>
      show (check content e >>= fun _ => edits.forM (check content)) = .ok ()
      rw [h e List.mem_cons_self]
      exact ih fun e' he' => h e' (List.mem_cons_of_mem e he')

/-! ## §2. Order and overlap. -/

/-- The order in which a batch is taken, as a relation. -/
theorem pairwise_lastFirst (edits : List Edit) :
    (lastFirst edits).Pairwise fun e e' => e'.start ≤ e.start := by
  unfold lastFirst
  have h : (edits.mergeSort fun a b => decide (b.start ≤ a.start)).Pairwise
      fun a b => decide (b.start ≤ a.start) = true := List.pairwise_mergeSort
    (fun a b c hab hbc => by
      rw [decide_eq_true_eq] at hab hbc ⊢
      exact Nat.le_trans hbc hab)
    (fun a b => by
      rw [Bool.or_eq_true, decide_eq_true_eq, decide_eq_true_eq]
      exact Nat.le_total b.start a.start) edits
  exact h.imp of_decide_eq_true

theorem lastFirst_perm (edits : List Edit) : (lastFirst edits).Perm edits :=
  List.mergeSort_perm edits _

/-- Edits that are listed by their starts, no two at one place, are taken in
the reverse order. -/
theorem lastFirst_eq_reverse {edits : List Edit}
    (h : edits.Pairwise fun e e' => e.start < e'.start) : lastFirst edits = edits.reverse := by
  -- with no two starts alike, there is one sorted order
  have hnodup : (edits.map Edit.start).Nodup :=
    List.pairwise_map.2 (h.imp fun hlt => Nat.ne_of_lt hlt)
  have hinj := List.inj_on_of_nodup_map hnodup
  have hperm : (lastFirst edits).Perm edits.reverse :=
    (lastFirst_perm edits).trans (List.reverse_perm edits).symm
  refine List.Perm.eq_of_pairwise ?_ (pairwise_lastFirst edits) ?_ hperm
  · intro a b ha hb hba hab
    exact hinj ((lastFirst_perm edits).mem_iff.1 ha) (List.mem_reverse.1 hb)
      (Nat.le_antisymm hab hba)
  · rw [List.pairwise_reverse]
    exact h.imp fun hlt => Nat.le_of_lt hlt

/-- Neighbours that keep out of each other's way do not overlap. -/
theorem overlap?_eq_none {edits : List Edit}
    (h : edits.Pairwise fun later earlier => earlier.stop ≤ later.start) :
    overlap? edits = none := by
  induction edits with
  | nil => rfl
  | cons later edits ih =>
      obtain ⟨hlater, hrest⟩ := List.pairwise_cons.1 h
      cases edits with
      | nil => rfl
      | cons earlier rest =>
          unfold overlap?
          rw [if_neg (Nat.not_lt.2 (hlater earlier List.mem_cons_self))]
          exact ih hrest

/-! ## §3. Splices. -/

/-- What one splice does to a text that has the range of the edit. -/
theorem splice_append (a b c : Text) {e : Edit} (hstart : e.start = byteLen a)
    (hstop : e.stop = e.start + byteLen b) : splice (a ++ b ++ c) e = a ++ e.new ++ c := by
  -- both cuts exist: the first behind `a`, the second behind `b`
  have hlen : e.stop - byteLen a = byteLen b := by omega
  unfold splice
  rw [hstart, List.append_assoc, Text.cutAt_append]
  dsimp only
  rw [hlen, Text.cutAt_append]

/-- A batch whose edits all pass and keep apart is spliced. -/
theorem applyAll_eq_ok {content : Text} {edits ordered : List Edit}
    (hordered : lastFirst edits = ordered) (hcheck : ∀ e ∈ ordered, check content e = .ok ())
    (hoverlap : overlap? ordered = none) :
    applyAll content edits = .ok (ordered.foldl splice content) := by
  subst hordered
  unfold applyAll
  dsimp only
  rw [forM_check_eq_ok hcheck, hoverlap]
  rfl

/-! ## §4. A batch over a tiling. -/

/-- The edit that puts a new text in the place of a match. -/
def ofMatch (new : Match → Text) (m : Match) : Edit :=
  ⟨m.start, m.stop, new m, Expected.ofText m.text⟩

/-- Splicing from the last match to the first replaces the matched texts and
leaves the gaps.  The induction is on the tiling: the splices of the later
matches are done before the first match is touched, and leave what stands in
front of them as it was. -/
theorem foldr_splice_tiles (new : Match → Text) {offset : Nat} {ms : List Match} {body : Text}
    (h : Tiles offset ms body) :
    ∀ (pre : Text), byteLen pre = offset →
      (ms.map (ofMatch new)).foldr (fun e t => splice t e) (pre ++ body)
        = pre ++ Text.weave (gaps (pre ++ body) offset ms) (ms.map new) := by
  induction h with
  | nil offset rest =>
      rintro pre rfl
      have hs := Text.slice?_append pre rest []
      rw [List.append_nil, ← Text.byteLen_append] at hs
      rw [gaps, hs]
      show pre ++ rest = pre ++ (rest ++ [])
      rw [List.append_nil]
  | @cons offset m ms gap rest hstart hstop _ ih =>
      rintro pre rfl
      have hgap := Text.slice?_append pre gap (m.text ++ rest)
      have hassoc : pre ++ gap ++ (m.text ++ rest) = pre ++ (gap ++ m.text ++ rest) := by simp
      rw [hassoc, ← hstart] at hgap
      -- the later splices see all that stands before them as their front part
      have hlater := ih (pre ++ gap ++ m.text) (by
        rw [hstop, hstart, Text.byteLen_append, Text.byteLen_append])
      have hassoc' : pre ++ gap ++ m.text ++ rest = pre ++ (gap ++ m.text ++ rest) := by simp
      rw [hassoc'] at hlater
      rw [gaps, hgap, List.map_cons, List.foldr_cons, hlater]
      rw [splice_append (pre ++ gap) m.text _ (e := ofMatch new m)
        (by rw [Text.byteLen_append]; exact hstart) hstop]
      show pre ++ gap ++ new m ++ _ = pre ++ (gap ++ new m ++ _)
      simp

/-- **A batch over the matches of a pattern succeeds**, and weaves the new texts
into the gaps. -/
theorem applyAll_ofMatch (new : Match → Text) {content : Text} {ms : List Match}
    (htiles : Tiles 0 ms content) (hstarts : ms.Pairwise fun m m' => m.start < m'.start) :
    applyAll content (ms.map (ofMatch new))
      = .ok (Text.weave (gaps content 0 ms) (ms.map new)) := by
  have hsorted : lastFirst (ms.map (ofMatch new)) = (ms.map (ofMatch new)).reverse :=
    lastFirst_eq_reverse (List.pairwise_map.2 hstarts)
  have hcheck : ∀ e ∈ (ms.map (ofMatch new)).reverse, check content e = .ok () := by
    -- each edit expects the text that its match was read from
    intro e he
    obtain ⟨m, hm, rfl⟩ := List.mem_map.1 (List.mem_reverse.1 he)
    exact check_eq_ok_iff.2
      ⟨m.text, htiles.slice?_eq_text [] rfl m hm, Expected.admits_ofText m.text⟩
  have hoverlap : overlap? (ms.map (ofMatch new)).reverse = none := by
    refine overlap?_eq_none ?_
    rw [List.pairwise_reverse]
    exact List.pairwise_map.2 htiles.pairwise_stop_le.2
  rw [applyAll_eq_ok hsorted hcheck hoverlap, List.foldl_reverse]
  exact congrArg Except.ok (foldr_splice_tiles new htiles [] rfl)

end Edit

end ArtifactPatch
