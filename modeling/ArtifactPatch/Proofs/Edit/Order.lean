/-
  ArtifactPatch.Proofs.Edit.Order
  ───────────────────────────────
  **WHEN THE ORDER OF A BATCH DOES NOT MATTER.**

  A batch is sorted by starts alone, so edits that start at one place keep the
  order in which they are listed: an insertion in front of a longer edit passes
  the check for overlap in one order and not in the other, and two insertions
  come out in the reverse order (`order_matters`).  Nothing else depends on the
  order.  Edits that may change places can be brought into any order of their
  starts (`Edited.of_perm`), and if they may not, there are two orders with
  different results (`OrderIrrelevant.interchangeable`).  Main result:
  `order_irrelevant_iff`.
-/
import ArtifactPatch.Proofs.Edit.Batch
import ArtifactPatch.Proofs.Except

namespace ArtifactPatch.Edit

open Text (byteLen)

variable {content text t u : Text} {e e' : Edit} {edits edits' : List Edit} {offset : Nat}

/-- If the edits start at one place, both are insertions, and their texts may be
put in either order. -/
def Interchangeable (e e' : Edit) : Prop :=
  e.start = e'.start →
    e.stop = e.start ∧ e'.stop = e'.start ∧ e.new ++ e'.new = e'.new ++ e.new

instance (e e' : Edit) : Decidable (Interchangeable e e') :=
  inferInstanceAs (Decidable (e.start = e'.start →
    e.stop = e.start ∧ e'.stop = e'.start ∧ e.new ++ e'.new = e'.new ++ e.new))

theorem Interchangeable.symm (h : Interchangeable e e') : Interchangeable e' e := by
  intro hstart
  obtain ⟨hstop, hstop', hcomm⟩ := h hstart.symm
  exact ⟨hstop', hstop, hcomm.symm⟩

/-! ## §1. Changing places. -/

namespace Edited

/-- Insertions at one place may change places in a batch; their texts do so, too. -/
theorem exchange {first last : List Edit} (h : Edited offset (first ++ e :: e' :: last) t u)
    (hstart : e.start = e'.start) (hstop : e.stop = e.start) (hstop' : e'.stop = e'.start) :
    ∃ a b, u = a ++ (e.new ++ e'.new) ++ b ∧
      Edited offset (first ++ e' :: e :: last) t (a ++ (e'.new ++ e.new) ++ b) := by
  induction first generalizing offset t u with
  | nil =>
      cases h with
      | cons gap found hgap hfound hadmits h =>
        cases h with
        | @cons _ _ _ rest rest' gap' found' hgap' hfound' hadmits' hlast =>
          -- both find nothing, and there is nothing between them
          obtain rfl : found = [] := Text.eq_nil_of_byteLen_eq_zero (by omega)
          obtain rfl : gap' = [] := Text.eq_nil_of_byteLen_eq_zero (by omega)
          obtain rfl : found' = [] := Text.eq_nil_of_byteLen_eq_zero (by omega)
          refine ⟨gap, rest', by simp, ?_⟩
          have hrest : Edited e.stop last rest rest' := by
            rw [hstop, hstart, ← hstop']
            exact hlast
          have hone : Edited e'.stop (e :: last) ([] ++ [] ++ rest) ([] ++ e.new ++ rest') :=
            .cons [] [] (by rw [hstop', hstart, Text.byteLen_nil, Nat.add_zero]) hfound hadmits hrest
          have hboth := Edited.cons gap [] (hstart ▸ hgap) hfound' hadmits' hone
          simpa using hboth
  | cons d first ih =>
      cases h with
      | cons gap found hgap hfound hadmits hlater =>
        obtain ⟨a, b, rfl, hswapped⟩ := ih hlater
        refine ⟨gap ++ d.new ++ a, b, by simp, ?_⟩
        have hall := Edited.cons gap found hgap hfound hadmits hswapped
        simpa using hall

/-- An edit that may change places with all edits in front of it can be taken first. -/
theorem brought_forward {first last : List Edit} (hstart : ∀ d ∈ first, d.start = e.start)
    (hchange : ∀ d ∈ first, Interchangeable d e) (h : Edited offset (first ++ e :: last) t u) :
    Edited offset (e :: (first ++ last)) t u := by
  induction first generalizing offset t u with
  | nil => exact h
  | cons d first ih =>
      have hsame := hstart d List.mem_cons_self
      obtain ⟨hstop, hstop', hcomm⟩ := hchange d List.mem_cons_self hsame
      have hrest : Edited offset ([] ++ d :: e :: (first ++ last)) t u := by
        cases h with
        | cons gap found hgap hfound hadmits hlater =>
          exact .cons gap found hgap hfound hadmits
            (ih (fun d hd => hstart d (List.mem_cons_of_mem _ hd))
              (fun d hd => hchange d (List.mem_cons_of_mem _ hd)) hlater)
      obtain ⟨a, b, rfl, hswapped⟩ := hrest.exchange hsame hstop hstop'
      rw [hcomm]
      exact hswapped

/-- **Edits that may change places** can be taken in any order of their starts. -/
theorem of_perm {ordered ordered' : List Edit} (hperm : ordered'.Perm ordered)
    (hsorted : ordered'.Pairwise fun e e' => e.start ≤ e'.start)
    (hchange : ordered.Pairwise Interchangeable) (h : Edited offset ordered t u) :
    Edited offset ordered' t u := by
  induction ordered' generalizing offset ordered t u with
  | nil =>
      obtain rfl := hperm.nil_eq
      exact h
  | cons e ordered' ih =>
      obtain ⟨first, last, rfl⟩ := List.append_of_mem (hperm.mem_iff.1 List.mem_cons_self)
      have hrest : ordered'.Perm (first ++ last) := (hperm.trans List.perm_middle).cons_inv
      -- what stands in front of the edit starts where it does
      have hle := h.pairwise
      obtain ⟨-, hmiddle, hacross⟩ := List.pairwise_append.1 hle.2
      have hstart : ∀ d ∈ first, d.start = e.start := by
        intro d hd
        have hbefore := hacross d hd e List.mem_cons_self
        have hself := hle.1 d (List.mem_append_left _ hd)
        have hafter := List.rel_of_pairwise_cons hsorted (hrest.mem_iff.2 (List.mem_append_left _ hd))
        omega
      have hpair := (List.pairwise_append.1 hchange).2.2
      have hfirst := h.brought_forward hstart fun d hd => hpair d hd e List.mem_cons_self
      have hsub : (first ++ last).Sublist (first ++ e :: last) :=
        (List.sublist_cons_self e last).append_left first
      cases hfirst with
      | cons gap found hgap hfound hadmits hlater =>
        exact .cons gap found hgap hfound hadmits
          (ih hrest (List.pairwise_cons.1 hsorted).2 (hchange.sublist hsub) hlater)

end Edited

/-! ## §2. Batches that are listed last start first. -/

/-- Edits that are listed last start first keep their order. -/
theorem lastFirst_eq (h : edits.Pairwise fun e e' => e'.start ≤ e.start) : lastFirst edits = edits :=
  List.mergeSort_of_pairwise (h.imp decide_eq_true)

/-- Such a batch is taken as it is listed. -/
theorem applyAll_reverse_eq_ok_iff {ordered : List Edit}
    (hsorted : ordered.Pairwise fun e e' => e.start ≤ e'.start) :
    applyAll content ordered.reverse = .ok text ↔ Edited 0 ordered content text := by
  rw [applyAll_eq_ok_iff, lastFirst_eq (List.pairwise_reverse.2 hsorted), List.reverse_reverse]

theorem Edited.sorted (h : Edited offset edits t u) :
    edits.Pairwise fun e e' => e.start ≤ e'.start := by
  obtain ⟨hle, hpair⟩ := h.pairwise
  exact hpair.imp_of_mem fun {e e'} he _ hbefore => Nat.le_trans (hle e he).2 hbefore

/-- Edits lead to one text. -/
theorem Edited.unique {text' : Text} (h : Edited 0 edits content text)
    (h' : Edited 0 edits content text') : text = text' := by
  have hresult := (applyAll_reverse_eq_ok_iff h.sorted).2 h'
  rw [(applyAll_reverse_eq_ok_iff h.sorted).2 h] at hresult
  exact Except.ok.inj hresult

/-- By their starts, and insertions in front of what starts there, too. -/
def comesFirst (e e' : Edit) : Bool :=
  decide (e.start < e'.start ∨ e.start = e'.start ∧ e.stop ≤ e'.stop)

/-- Edits that fit and are apart can be listed one behind the other. -/
theorem exists_perm_pairwise (hfits : ∀ e ∈ edits, Fits content e) (hapart : edits.Pairwise Apart) :
    ∃ ordered : List Edit, ordered.Perm edits ∧
      ordered.Pairwise fun e e' => e.stop ≤ e'.start := by
  have hperm : (edits.mergeSort comesFirst).Perm edits := List.mergeSort_perm _ _
  have hsorted : (edits.mergeSort comesFirst).Pairwise fun e e' => comesFirst e e' = true := by
    refine List.pairwise_mergeSort ?_ ?_ edits
    · intro a b c hab hbc
      have hab := of_decide_eq_true hab
      have hbc := of_decide_eq_true hbc
      refine decide_eq_true ?_
      omega
    · intro a b
      unfold comesFirst
      rw [Bool.or_eq_true, decide_eq_true_eq, decide_eq_true_eq]
      omega
  refine ⟨_, hperm, ?_⟩
  refine (hsorted.and (hperm.symm.pairwise hapart Or.symm)).imp_of_mem fun {e e'} _ he' h => ?_
  have hboth : Apart e e' := h.2
  exact hboth.stop_le (hfits e' (hperm.mem_iff.1 he')).start_le_stop (of_decide_eq_true h.1)

/-- A batch with an insertion `e` and an edit `e'` that starts there can be listed so
that the insertion stands in front of the edit, and nothing between them. -/
theorem exists_around {rest : List Edit} (hstart : e.start = e'.start) (hstop : e.stop = e.start)
    (hfits : ∀ d ∈ e :: e' :: rest, Fits content d) (hapart : (e :: e' :: rest).Pairwise Apart) :
    ∃ first last : List Edit, (first ++ last).Perm rest ∧
      (first ++ e :: e' :: last).Pairwise fun d d' => d.stop ≤ d'.start := by
  obtain ⟨-, hapart⟩ := List.pairwise_cons.1 hapart
  obtain ⟨hapart', hrest⟩ := List.pairwise_cons.1 hapart
  have hfits' : ∀ d ∈ rest, Fits content d :=
    fun d hd => hfits d (List.mem_cons_of_mem _ (List.mem_cons_of_mem _ hd))
  have hle' := (hfits e' (List.mem_cons_of_mem _ List.mem_cons_self)).start_le_stop
  -- what ends there or before goes in front of both, all else behind them
  have hkeep (q : Edit → Bool) : ∃ ordered : List Edit, ordered.Perm (rest.filter q) ∧
      ordered.Pairwise fun d d' => d.stop ≤ d'.start :=
    exists_perm_pairwise (fun d hd => hfits' d (List.mem_filter.1 hd).1)
      (hrest.sublist List.filter_sublist)
  obtain ⟨first, hfirst, hpair⟩ := hkeep fun d => decide (d.stop ≤ e.start)
  obtain ⟨last, hlast, hpair'⟩ := hkeep fun d => !decide (d.stop ≤ e.start)
  have hbefore : ∀ d ∈ first, d.stop ≤ e.start := fun d hd =>
    of_decide_eq_true (List.mem_filter.1 (hfirst.mem_iff.1 hd)).2
  have hafter : ∀ d ∈ last, e'.stop ≤ d.start := by
    intro d hd
    obtain ⟨hmem, hlate⟩ := List.mem_filter.1 (hlast.mem_iff.1 hd)
    have hnot : ¬d.stop ≤ e.start := by simpa using hlate
    rcases hapart' d hmem with h | h
    · exact h
    · omega
  refine ⟨first, last, (hfirst.append hlast).trans (List.filter_append_perm _ rest), ?_⟩
  refine List.pairwise_append.2 ⟨hpair, ?_, ?_⟩
  · refine List.pairwise_cons.2 ⟨?_, List.pairwise_cons.2 ⟨hafter, hpair'⟩⟩
    intro d hd
    rcases List.mem_cons.1 hd with rfl | hd
    · omega
    · have := hafter d hd
      omega
  · intro d hd d' hd'
    have hd := hbefore d hd
    rcases List.mem_cons.1 hd' with rfl | hd'
    · exact hd
    · rcases List.mem_cons.1 hd' with rfl | hd'
      · omega
      · have := hafter d' hd'
        omega

/-! ## §3. The order. -/

/-- Every order of a batch gives the same text, or none gives one. -/
def OrderIrrelevant (content : Text) (edits : List Edit) : Prop :=
  ∀ edits' : List Edit, edits'.Perm edits →
    (applyAll content edits').toOption = (applyAll content edits).toOption

/-- Where the order does not matter, what is done by their starts in one order is
done in any other. -/
theorem OrderIrrelevant.edited {ordered ordered' : List Edit} (h : OrderIrrelevant content edits)
    (hperm : ordered.Perm edits) (hperm' : ordered'.Perm edits)
    (hstarts : ordered'.map Edit.start = ordered.map Edit.start)
    (hedited : Edited 0 ordered content text) : Edited 0 ordered' content text := by
  have hsorted := hedited.sorted
  have hsorted' : ordered'.Pairwise fun d d' => d.start ≤ d'.start := by
    refine List.pairwise_map.1 ?_
    rw [hstarts]
    exact List.pairwise_map.2 hsorted
  have hsame := h _ ((List.reverse_perm _).trans hperm)
  have hsame' := h _ ((List.reverse_perm _).trans hperm')
  have hresult := Except.toOption_eq_some_iff.2 ((applyAll_reverse_eq_ok_iff hsorted).2 hedited)
  rw [hsame, ← hsame'] at hresult
  exact (applyAll_reverse_eq_ok_iff hsorted').1 (Except.toOption_eq_some_iff.1 hresult)

/-- **An insertion and an edit that starts there** may change places where the order
does not matter.  Listed with the insertion in front of the edit, the batch
succeeds; so it does the other way round, and with the same text. -/
theorem OrderIrrelevant.interchangeable {rest : List Edit} (h : OrderIrrelevant content edits)
    (hperm : (e :: e' :: rest).Perm edits) (hstop : e.stop = e.start)
    (hfits : ∀ d ∈ e :: e' :: rest, Fits content d) (hapart : (e :: e' :: rest).Pairwise Apart) :
    Interchangeable e e' := by
  intro hstart
  obtain ⟨first, last, hrest, hpair⟩ := exists_around hstart hstop hfits hapart
  have hlisted : (first ++ e :: e' :: last).Perm (e :: e' :: rest) :=
    (List.perm_middle.trans (List.perm_middle.cons e)).trans ((hrest.cons e').cons e)
  have hswapped : (first ++ e' :: e :: last).Perm (first ++ e :: e' :: last) :=
    (List.Perm.swap e e' last).append_left first
  obtain ⟨text, hedited⟩ := exists_edited [] content
    (fun d hd => hfits d (hlisted.mem_iff.1 hd)) (fun d _ => Nat.zero_le d.start) hpair
  have hedited' : Edited 0 (first ++ e' :: e :: last) content text :=
    h.edited (hlisted.trans hperm) (hswapped.trans (hlisted.trans hperm)) (by simp [hstart]) hedited
  have hstop' : e'.stop = e'.start := by
    obtain ⟨hle, hpair'⟩ := hedited'.pairwise
    have hbefore := List.rel_of_pairwise_cons (List.pairwise_append.1 hpair').2.1 List.mem_cons_self
    have hself := hle e' (List.mem_append_right _ List.mem_cons_self)
    omega
  obtain ⟨a, b, rfl, hexchanged⟩ := hedited.exchange hstart hstop hstop'
  have htexts := List.append_cancel_right (hedited'.unique hexchanged)
  exact ⟨hstop, hstop', List.append_cancel_left htexts⟩

/-- Edits that may change places give the same text in every order. -/
theorem applyAll_of_perm (hperm : edits'.Perm edits) (hchange : edits.Pairwise Interchangeable)
    (h : applyAll content edits = .ok text) : applyAll content edits' = .ok text := by
  have hordered (es : List Edit) : (lastFirst es).reverse.Perm es :=
    (List.reverse_perm _).trans (lastFirst_perm es)
  refine applyAll_eq_ok_iff.2 ((applyAll_eq_ok_iff.1 h).of_perm ?_ ?_ ?_)
  · exact ((hordered edits').trans hperm).trans (hordered edits).symm
  · exact List.pairwise_reverse.2 (pairwise_lastFirst edits')
  · exact (hordered edits).symm.pairwise hchange Interchangeable.symm

/-- **When the order of a batch does not matter.**  All its orders succeed with the
same text, or none succeeds, exactly if no two of its edits start at one place, but
for insertions there whose texts may be put in either order.  (Where some edit does
not fit, or two are not apart, no order succeeds.) -/
theorem order_irrelevant_iff (content : Text) (edits : List Edit) :
    OrderIrrelevant content edits ↔
      ((∀ e ∈ edits, Fits content e) → edits.Pairwise Apart → edits.Pairwise Interchangeable) := by
  constructor
  · intro h hfits hapart
    refine List.pairwise_iff_forall_sublist.2 fun {e e'} hsub hstart => ?_
    obtain ⟨rest, hperm⟩ := hsub.exists_perm_append
    have hperm : (e :: e' :: rest).Perm edits := hperm.symm
    have hfits' : ∀ d ∈ e :: e' :: rest, Fits content d := fun d hd => hfits d (hperm.mem_iff.1 hd)
    have hapart' := hperm.symm.pairwise hapart Or.symm
    -- of two edits that start at one place, one is an insertion
    have hle := (hfits' e List.mem_cons_self).start_le_stop
    have hle' := (hfits' e' (List.mem_cons_of_mem e List.mem_cons_self)).start_le_stop
    rcases List.rel_of_pairwise_cons hapart' List.mem_cons_self with hstop | hstop
    · exact h.interchangeable hperm (by omega) hfits' hapart' hstart
    · have hswap : (e' :: e :: rest).Perm (e :: e' :: rest) := .swap e e' rest
      have hchange : Interchangeable e' e :=
        h.interchangeable (hswap.trans hperm) (by omega)
          (fun d hd => hfits' d (hswap.mem_iff.1 hd)) (hswap.symm.pairwise hapart' Or.symm)
      exact hchange.symm hstart
  · intro h edits' hperm
    refine Option.ext fun text => ?_
    rw [Except.toOption_eq_some_iff, Except.toOption_eq_some_iff]
    -- a batch that succeeds, in whatever order, has edits that fit and are apart
    have hchange {es : List Edit} (hes : es.Perm edits) (hresult : applyAll content es = .ok text) :
        edits.Pairwise Interchangeable := by
      obtain ⟨hfits, hapart⟩ := fits_and_apart hresult
      exact h (fun e he => hfits e (hes.mem_iff.2 he)) (hes.pairwise hapart Or.symm)
    constructor
    · intro hresult
      exact applyAll_of_perm hperm.symm
        (hperm.symm.pairwise (hchange hperm hresult) Interchangeable.symm) hresult
    · intro hresult
      exact applyAll_of_perm hperm (hchange (.refl edits) hresult) hresult

/-- A replacement, and two insertions at one place that are rows of one character. -/
def sampleInsertions : List Edit :=
  [⟨1, 3, "e".toList, .exact "é".toList⟩, ⟨0, 0, "-".toList, .exact []⟩,
    ⟨0, 0, "--".toList, .exact []⟩]

theorem order_irrelevant_sample :
    sampleInsertions.Pairwise Interchangeable ∧
    ∀ edits' : List Edit, edits'.Perm sampleInsertions →
      applyAll "aé".toList edits' = .ok "---ae".toList := by
  have hchange : sampleInsertions.Pairwise Interchangeable := by decide
  have hresult : applyAll "aé".toList sampleInsertions = .ok "---ae".toList := by
    unfold applyAll
    rw [lastFirst_eq (by decide)]
    decide +kernel
  refine ⟨hchange, fun edits' hperm => ?_⟩
  have hsame := (order_irrelevant_iff "aé".toList sampleInsertions).2 (fun _ _ => hchange) edits' hperm
  rw [hresult] at hsame
  exact Except.toOption_eq_some_iff.1 hsame

/-- **An insertion in front of a longer edit** is refused where it is listed before
it, as if it overlapped it, and carried out where it is listed behind it; and of two
insertions at one place, the one that is listed last comes first. -/
theorem order_matters :
    let insertion : Edit := ⟨0, 0, "Y".toList, .exact []⟩
    let replacement : Edit := ⟨0, 1, "X".toList, .exact "a".toList⟩
    let other : Edit := ⟨0, 0, "Z".toList, .exact []⟩
    [insertion, replacement].Perm [replacement, insertion] ∧
    applyAll "ab".toList [replacement, insertion] = .ok "YXb".toList ∧
    applyAll "ab".toList [insertion, replacement] = .error (.overlap 0 1 0 0) ∧
    applyAll "ab".toList [insertion, other] = .ok "ZYab".toList ∧
    applyAll "ab".toList [other, insertion] = .ok "YZab".toList := by
  refine ⟨by decide, ?_, ?_, ?_, ?_⟩
  all_goals
    unfold applyAll
    rw [lastFirst_eq (by decide)]
    decide +kernel

end ArtifactPatch.Edit
