/-
  ArtifactPatch.Proofs.Edit.Batch
  ───────────────────────────────
  **WHAT A BATCH OF EDITS DOES.**

  `Edited` says it without offsets that move: the edits stand one behind the
  other in the text, each finds what it expects, and the result has the new
  texts in their place and everything between them as it was.  A batch succeeds
  exactly with such a result, its edits taken by their starts:

      applyAll content edits = .ok text  ↔  Edited 0 (lastFirst edits).reverse content text

  Only neighbours are compared for overlap; since no edit ends before it starts,
  that keeps all edits apart (`pairwise_of_overlap?`).  And no splice ever meets
  an offset that the splices before it have moved, so a splice that may break
  (`splice?`) does not (`Edited.foldrM_splice?`).  Main result:
  `applyAll_sound_complete`.
-/
import ArtifactPatch.Proofs.Edit.Splice

namespace ArtifactPatch.Edit

open Text (byteLen)

variable {content text t u : Text} {e e' : Edit} {edits : List Edit} {offset : Nat}

/-! ## §1. Edits of a text. -/

/-- The range of an edit is cut out of a text, and holds what the edit expects. -/
def Fits (content : Text) (e : Edit) : Prop :=
  ∃ found, Text.slice? e.start e.stop content = some found ∧ e.expected.admits found = true

/-- One of the edits ends at or before the start of the other. -/
def Apart (e e' : Edit) : Prop :=
  e.stop ≤ e'.start ∨ e'.stop ≤ e.start

instance (e e' : Edit) : Decidable (Apart e e') :=
  inferInstanceAs (Decidable (_ ∨ _))

/-- A text that begins at byte `offset`, before and after some edits that stand
one behind the other in it. -/
inductive Edited : (offset : Nat) → List Edit → (before after : Text) → Prop
  | nil (offset : Nat) (rest : Text) : Edited offset [] rest rest
  | cons {offset : Nat} {e : Edit} {edits : List Edit} {rest rest' : Text} (gap found : Text)
      (hstart : e.start = offset + byteLen gap) (hstop : e.stop = e.start + byteLen found)
      (hfound : e.expected.admits found = true) (h : Edited e.stop edits rest rest') :
      Edited offset (e :: edits) (gap ++ found ++ rest) (gap ++ e.new ++ rest')

theorem Fits.start_le_stop (h : Fits content e) : e.start ≤ e.stop := by
  obtain ⟨found, hslice, -⟩ := h
  obtain ⟨a, c, -, -, hstop⟩ := Text.slice?_eq_some_iff.1 hslice
  omega

namespace Edited

/-- Edits begin behind the offset and end before the next one begins. -/
theorem pairwise (h : Edited offset edits t u) :
    (∀ e ∈ edits, offset ≤ e.start ∧ e.start ≤ e.stop) ∧
      edits.Pairwise fun e e' => e.stop ≤ e'.start := by
  induction h with
  | nil => exact ⟨fun e he => (List.not_mem_nil he).elim, .nil⟩
  | @cons offset e edits rest rest' gap found hstart hstop _ _ ih =>
      obtain ⟨hle, hpair⟩ := ih
      refine ⟨?_, List.pairwise_cons.2 ⟨fun e' he' => (hle e' he').1, hpair⟩⟩
      intro e' he'
      rcases List.mem_cons.1 he' with rfl | he'
      · omega
      · have := hle e' he'
        omega

/-- Every edit fits the text as it was. -/
theorem fits (h : Edited offset edits t u) (pre : Text) (hpre : byteLen pre = offset) :
    ∀ e ∈ edits, Fits (pre ++ t) e := by
  induction h generalizing pre with
  | nil => exact fun e he => (List.not_mem_nil he).elim
  | @cons offset e edits rest rest' gap found hstart hstop hfound _ ih =>
      have hassoc : pre ++ (gap ++ found ++ rest) = pre ++ gap ++ found ++ rest := by simp
      rw [hassoc]
      refine List.forall_mem_cons.2 ⟨⟨found, ?_, hfound⟩, ih _ ?_⟩
      · rw [hstop, hstart, ← hpre, ← Text.byteLen_append]
        exact Text.slice?_append (pre ++ gap) found rest
      · rw [hstop, hstart, ← hpre, Text.byteLen_append, Text.byteLen_append]

end Edited

/-- **Edits that fit and stand one behind the other** can be carried out. -/
theorem exists_edited (pre t : Text) (hfits : ∀ e ∈ edits, Fits (pre ++ t) e)
    (hbehind : ∀ e ∈ edits, byteLen pre ≤ e.start)
    (hpair : edits.Pairwise fun e e' => e.stop ≤ e'.start) :
    ∃ u, Edited (byteLen pre) edits t u := by
  induction edits generalizing pre t with
  | nil => exact ⟨t, .nil _ t⟩
  | cons e edits ih =>
      obtain ⟨hfirst, hpair⟩ := List.pairwise_cons.1 hpair
      obtain ⟨found, hslice, hfound⟩ := hfits e List.mem_cons_self
      obtain ⟨a, rest, hcontent, ha, hstop⟩ := Text.slice?_eq_some_iff.1 hslice
      have hle := hbehind e List.mem_cons_self
      obtain ⟨gap, rfl, rfl⟩ : ∃ gap, a = pre ++ gap ∧ t = gap ++ found ++ rest := by
        rw [List.append_assoc] at hcontent
        obtain ⟨gap, hgap, ht⟩ := Text.exists_append_of_byteLen_le hcontent (ha ▸ hle)
        exact ⟨gap, hgap, by rw [ht, List.append_assoc]⟩
      rw [Text.byteLen_append] at ha
      have hassoc : pre ++ (gap ++ found ++ rest) = pre ++ gap ++ found ++ rest := by simp
      have hend : byteLen (pre ++ gap ++ found) = e.stop := by
        rw [Text.byteLen_append, Text.byteLen_append, ha, hstop]
      obtain ⟨u, h⟩ := ih (pre ++ gap ++ found) rest
        (fun e' he' => hassoc ▸ hfits e' (List.mem_cons_of_mem e he'))
        (fun e' he' => hend ▸ hfirst e' he') hpair
      rw [hend] at h
      exact ⟨_, .cons gap found ha.symm hstop.symm hfound h⟩

/-! ## §2. Splices that may break. -/

/-- Put the new text in the place of the range, which must be in order and have
both its ends at cuts of the text. -/
def splice? (content : Text) (e : Edit) : Option Text :=
  if e.start ≤ e.stop then
    (Text.cutAt e.start content).bind fun (head, _) =>
      (Text.cutAt e.stop content).map fun (_, tail) => head ++ e.new ++ tail
  else none

/-- A batch with such splices: `none` where one of them breaks. -/
def applyAll? (content : Text) (edits : List Edit) : Option (Except EditError Text) :=
  let ordered := lastFirst edits
  match ordered.forM (check content) with
  | .error e => some (.error e)
  | .ok () =>
      match overlap? ordered with
      | some e => some (.error e)
      | none => (ordered.foldlM splice? content).map .ok

theorem splice?_append (a b c : Text) (hstart : e.start = byteLen a)
    (hstop : e.stop = e.start + byteLen b) :
    splice? (a ++ b ++ c) e = some (a ++ e.new ++ c) := by
  have hend : e.stop = byteLen (a ++ b) := by rw [hstop, hstart, Text.byteLen_append]
  have hcut := Text.cutAt_append a (b ++ c)
  rw [← List.append_assoc, ← hstart] at hcut
  unfold splice?
  rw [if_pos (by omega), hcut, hend, Text.cutAt_append]
  rfl

/-- A splice that does not break is the splice. -/
theorem splice_of_splice? (h : splice? content e = some text) : splice content e = text := by
  unfold splice? at h
  split at h
  next hle =>
    obtain ⟨⟨a, b⟩, ha, h⟩ := Option.bind_eq_some_iff.1 h
    obtain ⟨⟨a', c⟩, hc, rfl⟩ := Option.map_eq_some_iff.1 h
    obtain ⟨rfl, hstart⟩ := Text.cutAt_eq_some_iff.1 ha
    obtain ⟨hsplit, hstop⟩ := Text.cutAt_eq_some_iff.1 hc
    obtain ⟨found, rfl, rfl⟩ := Text.exists_append_of_byteLen_le hsplit (by omega)
    rw [Text.byteLen_append] at hstop
    rw [← List.append_assoc]
    exact splice_append a found c hstart.symm (by omega)
  next => cases h

theorem foldl_splice_of_foldlM (h : edits.foldlM splice? content = some text) :
    edits.foldl splice content = text := by
  induction edits generalizing content with
  | nil => exact Option.some.inj h
  | cons e edits ih =>
      rw [List.foldlM_cons] at h
      obtain ⟨next, hnext, h⟩ := Option.bind_eq_some_iff.1 h
      rw [List.foldl_cons, splice_of_splice? hnext]
      exact ih h

/-- **Splicing from the last edit to the first** breaks nowhere and carries the
edits out.  The splices of the later edits are done before an edit is touched,
and leave what stands in front of them as it was. -/
theorem Edited.foldrM_splice? (h : Edited offset edits t u) (pre : Text)
    (hpre : byteLen pre = offset) :
    edits.foldrM (fun e t => splice? t e) (pre ++ t) = some (pre ++ u) := by
  induction h generalizing pre with
  | nil => rfl
  | @cons offset e edits rest rest' gap found hstart hstop _ _ ih =>
      have hend : byteLen (pre ++ gap ++ found) = e.stop := by
        rw [Text.byteLen_append, Text.byteLen_append, hpre, ← hstart, ← hstop]
      have hlater := ih _ hend
      have hassoc : pre ++ (gap ++ found ++ rest) = pre ++ gap ++ found ++ rest := by simp
      rw [List.foldrM_cons, hassoc, hlater]
      have hsplice := splice?_append (e := e) (pre ++ gap) found rest'
        (by rw [Text.byteLen_append, hpre, hstart]) hstop
      show splice? (pre ++ gap ++ found ++ rest') e = _
      rw [hsplice]
      simp

/-! ## §3. Checks. -/

/-- A batch is let through if every edit passes its check. -/
theorem forM_check_eq_ok_iff :
    edits.forM (check content) = .ok () ↔ ∀ e ∈ edits, Fits content e := by
  constructor
  · intro h
    induction edits with
    | nil => exact fun e he => (List.not_mem_nil he).elim
    | cons e edits ih =>
        have hboth : (check content e >>= fun _ => edits.forM (check content)) = .ok () := h
        cases hcheck : check content e with
        | error err =>
            rw [hcheck] at hboth
            cases hboth
        | ok u =>
            rw [hcheck] at hboth
            exact List.forall_mem_cons.2 ⟨check_eq_ok_iff.1 hcheck, ih hboth⟩
  · exact fun h => forM_check_eq_ok fun e he => check_eq_ok_iff.2 (h e he)

/-- **Neighbours that do not overlap keep all edits apart**, as none of them ends
before it starts. -/
theorem pairwise_of_overlap? (h : overlap? edits = none) (hle : ∀ e ∈ edits, e.start ≤ e.stop) :
    edits.Pairwise fun later earlier => earlier.stop ≤ later.start := by
  induction edits with
  | nil => exact .nil
  | cons later edits ih =>
      have hrest := fun e he => hle e (List.mem_cons_of_mem later he)
      cases edits with
      | nil => exact List.pairwise_singleton _ _
      | cons earlier edits =>
          unfold overlap? at h
          split at h
          next => cases h
          next hnext =>
            have hpair := ih h hrest
            refine List.pairwise_cons.2 ⟨?_, hpair⟩
            intro e he
            rcases List.mem_cons.1 he with rfl | he
            · exact Nat.le_of_not_lt hnext
            · -- an edit further down ends before its neighbour starts
              have hbefore := List.rel_of_pairwise_cons hpair he
              have := hle earlier (List.mem_cons_of_mem later List.mem_cons_self)
              omega

/-! ## §4. Batches. -/

theorem Edited.foldlM_splice? {ordered : List Edit} (h : Edited 0 ordered.reverse content text) :
    ordered.foldlM splice? content = some text := by
  have hfold := h.foldrM_splice? [] rfl
  rw [List.foldrM_reverse] at hfold
  exact hfold

/-- A batch that passes all checks does what its splices do. -/
theorem exists_edited_of_checks {ordered : List Edit}
    (hchecks : ordered.forM (check content) = .ok ()) (hoverlap : overlap? ordered = none) :
    ∃ text, Edited 0 ordered.reverse content text := by
  have hfits := forM_check_eq_ok_iff.1 hchecks
  have hpair := pairwise_of_overlap? hoverlap fun e he => (hfits e he).start_le_stop
  exact exists_edited [] content (fun e he => hfits e (List.mem_reverse.1 he))
    (fun e _ => Nat.zero_le e.start) (List.pairwise_reverse.2 hpair)

/-- **What a batch does**: it succeeds exactly if its edits, taken by their starts,
can be carried out on the text, and with what comes of that. -/
theorem applyAll_eq_ok_iff :
    applyAll content edits = .ok text ↔ Edited 0 (lastFirst edits).reverse content text := by
  constructor
  · intro h
    unfold applyAll at h
    dsimp only [bind, Except.bind] at h
    cases hchecks : (lastFirst edits).forM (check content) with
    | error err =>
        rw [hchecks] at h
        cases h
    | ok u =>
        rw [hchecks] at h
        cases hoverlap : overlap? (lastFirst edits) with
        | some err =>
            rw [hoverlap] at h
            cases h
        | none =>
            obtain ⟨u, hedited⟩ := exists_edited_of_checks hchecks hoverlap
            have hsplices := foldl_splice_of_foldlM hedited.foldlM_splice?
            rw [hoverlap, hsplices] at h
            obtain rfl := Except.ok.inj h
            exact hedited
  · intro h
    have hfits := h.fits [] rfl
    have hchecks : ∀ e ∈ lastFirst edits, check content e = .ok () :=
      fun e he => check_eq_ok_iff.2 (hfits e (List.mem_reverse.2 he))
    have hoverlap := overlap?_eq_none (List.pairwise_reverse.1 h.pairwise.2)
    rw [applyAll_eq_ok rfl hchecks hoverlap, foldl_splice_of_foldlM h.foldlM_splice?]

/-- The edits of a batch that succeeds fit the text and are apart. -/
theorem fits_and_apart (h : applyAll content edits = .ok text) :
    (∀ e ∈ edits, Fits content e) ∧ edits.Pairwise Apart := by
  have hedited := applyAll_eq_ok_iff.1 h
  have hperm : (lastFirst edits).reverse.Perm edits :=
    (List.reverse_perm _).trans (lastFirst_perm edits)
  exact ⟨fun e he => hedited.fits [] rfl e (hperm.mem_iff.2 he),
    hperm.pairwise (hedited.pairwise.2.imp Or.inl) Or.symm⟩

/-- **No splice of a batch breaks.** -/
theorem applyAll?_eq (content : Text) (edits : List Edit) :
    applyAll? content edits = some (applyAll content edits) := by
  unfold applyAll? applyAll
  dsimp only [bind, Except.bind]
  cases hchecks : (lastFirst edits).forM (check content) with
  | error err => rfl
  | ok u =>
      cases hoverlap : overlap? (lastFirst edits) with
      | some err => rfl
      | none =>
          obtain ⟨text, h⟩ := exists_edited_of_checks hchecks hoverlap
          dsimp only
          rw [h.foldlM_splice?, foldl_splice_of_foldlM h.foldlM_splice?]
          rfl

/-- Of two edits that are apart, the first ends where the second starts at the
latest: it starts before it, or it starts there, too, and does not end later. -/
theorem Apart.stop_le (h : Apart e e') (hle' : e'.start ≤ e'.stop)
    (horder : e.start < e'.start ∨ e.start = e'.start ∧ e.stop ≤ e'.stop) : e.stop ≤ e'.start := by
  rcases h with h | h
  · exact h
  · omega

/-- Edits taken by their starts, no two alike, stand one behind the other. -/
theorem pairwise_stop_le (hfits : ∀ e ∈ edits, Fits content e)
    (hstarts : (edits.map Edit.start).Nodup) (hapart : edits.Pairwise Apart) :
    (lastFirst edits).reverse.Pairwise fun e e' => e.stop ≤ e'.start := by
  have hperm := lastFirst_perm edits
  have hapart' : (lastFirst edits).Pairwise Apart := hperm.symm.pairwise hapart Or.symm
  have hnodup := List.pairwise_map.1 ((hperm.map Edit.start).nodup_iff.2 hstarts)
  have hall := (pairwise_lastFirst edits).and (hapart'.and hnodup)
  refine List.pairwise_reverse.2 (hall.imp_of_mem fun {later earlier} hlater hearlier h => ?_)
  obtain ⟨hsorted, hboth, hne⟩ := h
  have hboth' : Apart earlier later := Or.symm hboth
  exact hboth'.stop_le (hfits later (hperm.mem_iff.1 hlater)).start_le_stop
    (.inl (Nat.lt_of_le_of_ne hsorted (Ne.symm hne)))

/-- **A batch is sound and complete, and never breaks.**  If it succeeds, every
edit fits the text as it was, any two edits are apart, and the result is the text
with the new text in the place of each range and all else as it was, the edits
taken by their starts.  If every edit fits, no two start at one place and any two
are apart, it succeeds.  Whatever the edits are, no splice is made at an offset
that is no cut of the text at that point. -/
theorem applyAll_sound_complete (content : Text) (edits : List Edit) :
    (∀ text, applyAll content edits = .ok text →
      (∀ e ∈ edits, Fits content e) ∧ edits.Pairwise Apart ∧
      ∃ ordered : List Edit, ordered.Perm edits ∧
        (ordered.Pairwise fun e e' => e.start ≤ e'.start) ∧ Edited 0 ordered content text) ∧
    ((∀ e ∈ edits, Fits content e) → (edits.map Edit.start).Nodup → edits.Pairwise Apart →
      ∃ text, applyAll content edits = .ok text) ∧
    applyAll? content edits = some (applyAll content edits) := by
  have hperm : (lastFirst edits).reverse.Perm edits :=
    (List.reverse_perm _).trans (lastFirst_perm edits)
  refine ⟨fun text h => ?_, fun hfits hstarts hapart => ?_, applyAll?_eq content edits⟩
  · obtain ⟨hfits, hapart⟩ := fits_and_apart h
    exact ⟨hfits, hapart, (lastFirst edits).reverse, hperm,
      List.pairwise_reverse.2 (pairwise_lastFirst edits), applyAll_eq_ok_iff.1 h⟩
  · obtain ⟨text, h⟩ := exists_edited [] content
      (fun e he => hfits e (hperm.mem_iff.1 he)) (fun e _ => Nat.zero_le e.start)
      (pairwise_stop_le hfits hstarts hapart)
    exact ⟨text, applyAll_eq_ok_iff.2 h⟩

/-- Three edits of a text with a character of two bytes, listed as they come: one of
them is an insertion where another one ends. -/
def sampleEdits : List Edit :=
  [⟨1, 3, "e".toList, .exact "é".toList⟩, ⟨4, 5, [], .exact "c".toList⟩,
    ⟨3, 3, "--".toList, .exact []⟩]

theorem applyAll_sound_complete_sample :
    (∀ e ∈ sampleEdits, Fits "aébc".toList e) ∧ (sampleEdits.map Edit.start).Nodup ∧
    sampleEdits.Pairwise Apart ∧ applyAll "aébc".toList sampleEdits = .ok "ae--b".toList ∧
    ∃ ordered : List Edit, ordered.Perm sampleEdits ∧
      Edited 0 ordered "aébc".toList "ae--b".toList := by
  have hfits : ∀ e ∈ sampleEdits, Fits "aébc".toList e := forM_check_eq_ok_iff.1 (by decide +kernel)
  have hstarts : (sampleEdits.map Edit.start).Nodup := by decide
  have hapart : sampleEdits.Pairwise Apart := by decide
  have hordered : lastFirst sampleEdits = [⟨4, 5, [], .exact "c".toList⟩,
      ⟨3, 3, "--".toList, .exact []⟩, ⟨1, 3, "e".toList, .exact "é".toList⟩] := by
    simp [lastFirst, sampleEdits, List.mergeSort, List.MergeSort.Internal.splitInTwo]
  obtain ⟨hsound, hcomplete, -⟩ := applyAll_sound_complete "aébc".toList sampleEdits
  obtain ⟨text, htext⟩ := hcomplete hfits hstarts hapart
  have hresult : applyAll "aébc".toList sampleEdits = .ok "ae--b".toList := by
    unfold applyAll
    rw [hordered]
    decide +kernel
  rw [hresult] at htext
  obtain rfl := Except.ok.inj htext
  obtain ⟨-, -, ordered, hperm, -, hedited⟩ := hsound _ hresult
  exact ⟨hfits, hstarts, hapart, hresult, ordered, hperm, hedited⟩

end ArtifactPatch.Edit
