/-
  ArtifactPatch.Proofs.Command.Restore
  ────────────────────────────────────
  **RESTORING UNDOES APPLYING.**

  The apply command patches the places of the artifacts that have rules, and
  the restore command takes back the patch of every artifact, with rules or
  without.  Each artifact adds its place, or removes it (`Patched`), so in the
  end no place is patched and the tree is the first one
  (`restore_undoes_apply`).  An artifact that brought nothing back counts as
  missing; without rules it cannot bring anything back, and the exit code says
  so (`restore_reports_missing`).
-/
import Mathlib.Data.List.Pairwise
import ArtifactPatch.Proofs.Command.AllOrNothing
import ArtifactPatch.Proofs.Patch.Restoration

namespace ArtifactPatch

theorem FailureKind.exitCode_ne_zero (kind : FailureKind) : kind.exitCode ≠ 0 := by
  cases kind <;> decide

namespace Session

open Script Store

variable {s : Session} {m₀ m m₁ : Machine} {frail : Call → Prop} {P P₁ : Location → Prop}

/-! ## §1. The apply command patches. -/

/-- An artifact has rules, whether they compile or not. -/
def HasRules (s : Session) (a : Artifact) : Prop :=
  s.profile.rulesFor a.name ≠ .ok []

/-- Applying all patches the place of each artifact. -/
theorem applyAll_patched {sets : List (String × List Rule)} (h : Patched m₀ P m)
    (hfound : ∀ p ∈ sets, ∃ l, s.store.StandsAt m₀ p.1 l ∧ m₀.tree.get? (slotOf l) = none ∧
      ¬frail (.stat (.ofLocation (slotOf l)))) :
    Script.Ensures frail (fun _ => True) (s.applyAll sets)
      (fun _ m' => Patched m₀ (fun l => P l ∨ ∃ p ∈ sets, s.store.StandsAt m₀ p.1 l) m')
      (fun _ _ => True) m := by
  -- `P` grows by the place of one artifact after the other
  induction sets generalizing m P with
  | nil =>
      refine ensures_pure (h.congr fun l => ?_)
      simp
  | cons p rest ih =>
      obtain ⟨name, rules⟩ := p
      obtain ⟨l, hl, hfree, hlook⟩ := hfound _ List.mem_cons_self
      obtain ⟨dir, file, bytes, mode, rfl, hfirst⟩ := standsAt_iff.1 hl
      rw [slotOf_concat] at hfree hlook
      refine ensures_bind (ensures_attempt ((h.applyRules_ensures hfirst hfree hlook rules).mono ?_
        fun _ _ _ => trivial))
      intro plan m' hpatched
      refine ensures_bind (ensures_say ((ih hpatched
        fun q hq => hfound q (List.mem_cons_of_mem _ hq)).mono ?_ fun _ _ _ => trivial))
      intro _ m'' hall
      refine hall.congr fun l => ?_
      rw [List.exists_mem_cons_iff, or_assoc]

/-- A run of the apply command that succeeds has found the artifacts that have
rules, and patched their places if it was no dry run. -/
theorem apply_patched (dryRun showSites ignoreVersion : Bool)
    (hfree : ∀ a ∈ s.profile.artifacts, ∀ l, s.store.StandsAt m a.name l →
      m.tree.get? (slotOf l) = none)
    (hsturdy : ∀ a ∈ s.profile.artifacts, ∀ l, s.store.StandsAt m a.name l →
      ¬frail (.stat (.ofLocation (slotOf l)))) :
    Script.Ensures frail (fun _ => True) (s.apply dryRun showSites ignoreVersion)
      (fun _ m' => (∀ a ∈ s.profile.artifacts, s.HasRules a → ∃ l, s.store.StandsAt m a.name l) ∧
        Patched m (fun l => dryRun = false ∧
          ∃ a ∈ s.profile.artifacts, s.HasRules a ∧ s.store.StandsAt m a.name l) m')
      (fun _ _ => True) m := by
  have hset {sets : List (String × List Rule)} (hsets : s.ruleSets = .ok sets) :
      sets = s.setsOf s.profile.artifacts ∧
        ∀ a ∈ s.profile.artifacts, s.HasRules a ↔ s.rulesOf a.name ≠ [] := by
    obtain ⟨hrules, rfl⟩ := ruleSets_eq_ok_iff.1 hsets
    refine ⟨rfl, fun a ha => ?_⟩
    unfold HasRules
    rw [hrules a ha, ne_eq, Except.ok.injEq]
  have hfound {sets : List (String × List Rule)} (hsets : s.ruleSets = .ok sets)
      (hready : ∀ p ∈ sets, s.store.StillReady m m p) :
      ∀ a ∈ s.profile.artifacts, s.HasRules a → ∃ l, s.store.StandsAt m a.name l := by
    intro a ha hsome
    obtain ⟨rfl, hsome_iff⟩ := hset hsets
    obtain ⟨dir, file, bytes, mode, text, h, -⟩ :=
      hready _ (mem_setsOf_iff.2 ⟨a, ha, rfl, (hsome_iff a ha).1 hsome⟩)
    exact ⟨_, h.finds.exec_resolve⟩
  refine apply_ensures_of_writes dryRun showSites ignoreVersion trivial (fun _ => trivial) ?_ ?_
  · intro sets hsets hready hdry
    refine ⟨hfound hsets hready, (Patched.start m).congr fun l => ?_⟩
    simp [hdry]
  · intro _ sets hsets hready hearnest
    have hstands := hfound hsets hready
    obtain ⟨rfl, hsome_iff⟩ := hset hsets
    refine ensures_bind ((applyAll_patched (Patched.start m) ?_).mono ?_ fun _ _ _ => trivial)
    · intro p hp
      obtain ⟨a, ha, rfl, hsome⟩ := mem_setsOf_iff.1 hp
      obtain ⟨l, hl⟩ := hstands a ha ((hsome_iff a ha).2 hsome)
      exact ⟨l, hl, hfree a ha l hl, hsturdy a ha l hl⟩
    · intro _ m₁ hpatched
      have hall : Patched m (fun l => dryRun = false ∧
          ∃ a ∈ s.profile.artifacts, s.HasRules a ∧ s.store.StandsAt m a.name l) m₁ := by
        refine hpatched.congr fun l => ?_
        rw [false_or, and_iff_right hearnest]
        constructor
        · intro h
          obtain ⟨p, hp, hl⟩ := h
          obtain ⟨a, ha, rfl, hsome⟩ := mem_setsOf_iff.1 hp
          exact ⟨a, ha, (hsome_iff a ha).2 hsome, hl⟩
        · intro h
          obtain ⟨a, ha, hsome, hl⟩ := h
          exact ⟨_, mem_setsOf_iff.2 ⟨a, ha, rfl, (hsome_iff a ha).1 hsome⟩, hl⟩
      -- what follows only asks
      refine ensures_bind (ensures_say ((s.onlyAsks_verifyAll.ensures trivial
        verifyAll_ensures).mono ?_ fun _ _ _ => trivial))
      intro _ m₂ hm₂
      obtain ⟨rfl, -⟩ := hm₂
      exact ⟨hstands, hall⟩

/-! ## §2. The restore command takes patches back. -/

/-- So far every artifact was brought back. -/
def RestoreTally.IsClean (t : RestoreTally) : Prop :=
  t.firstFailure = none ∧ t.missing = 0

/-- An artifact leaves a tally clean if it stands at a patched place; one that was
found in the first tree at least does not fail. -/
theorem restoreArtifact_ensures {t : RestoreTally} {name : String} (h : Patched m₀ P m)
    (hfree : ∀ l, s.store.StandsAt m name l → m₀.tree.get? (slotOf l) = none) :
    Script.Ensures Call.Sturdy (fun _ => True) (s.restoreArtifact false t name)
      (fun t' m' => Patched m₀ (fun l => P l ∧ ¬s.store.StandsAt m₀ name l) m' ∧
        (t'.IsClean ↔ t.IsClean ∧ ∃ l, s.store.StandsAt m₀ name l ∧ P l) ∧
        ((∃ l, s.store.StandsAt m₀ name l) → t'.firstFailure = t.firstFailure))
      (fun _ _ => False) m := by
  refine ensures_bind (ensures_outcomeOf ((h.takeBack_ensures hfree).mono ?_ ?_))
  · intro outcome m' hdone
    obtain ⟨hpatched, hrestored⟩ := hdone
    cases outcome with
    | restored detail kept =>
        refine ensures_bind (ensures_say (ensures_pure ⟨hpatched, ?_, fun _ => rfl⟩))
        exact (and_iff_left (hrestored.1 ⟨detail, kept, rfl⟩)).symm
    | noBackup artifact path =>
        refine ensures_bind (ensures_say (ensures_pure ⟨hpatched, iff_of_false ?_ ?_, fun _ => rfl⟩))
        · intro hclean
          cases hclean.2
        · intro hclean
          obtain ⟨_, _, hback⟩ := hrestored.2 hclean.2
          cases hback
  · intro e m' hdone
    obtain ⟨hpatched, hnot⟩ := hdone
    refine ensures_bind (ensures_complain (ensures_pure ⟨hpatched, iff_of_false ?_ ?_, ?_⟩))
    · -- a failure is kept, the first of all or this one
      intro hclean
      have hnone := hclean.1
      cases hfirst : t.firstFailure with
      | none =>
          rw [hfirst] at hnone
          cases hnone
      | some kind =>
          rw [hfirst] at hnone
          cases hnone
    · intro hclean
      obtain ⟨l, hl, -⟩ := hclean.2
      exact hnot l hl
    · intro hstands
      obtain ⟨l, hl⟩ := hstands
      exact absurd hl (hnot l)

/-- Artifacts bring their files back one after the other if each stands at a
patched place of its own. -/
theorem forall_brought_back_iff {store : Store} {name : String} {rest : List String} :
    (∀ b ∈ rest, ∃ l, store.StandsAt m₀ b l ∧ P l ∧ ¬store.StandsAt m₀ name l) ↔
      (∀ b ∈ rest, ∃ l, store.StandsAt m₀ b l ∧ P l) ∧
        ∀ b ∈ rest, store.Distinct m₀ name b := by
  constructor
  · intro h
    refine ⟨?_, ?_⟩
    · intro b hb
      obtain ⟨l, hl, hplace, -⟩ := h b hb
      exact ⟨l, hl, hplace⟩
    · intro b hb l hname hl
      obtain ⟨l', hl', -, hnot⟩ := h b hb
      rw [hl'.unique hl] at hnot
      exact hnot hname
  · intro h b hb
    obtain ⟨l, hl, hplace⟩ := h.1 b hb
    exact ⟨l, hl, hplace, fun hname => h.2 b hb l hname hl⟩

/-- Taking all patches back leaves the places where no artifact stands.  Slots
are known to be free in the tree `m₁` that the command has begun with; in every
tree on the way an artifact is found only where it was found in that one. -/
theorem restoreAll_ensures {names : List String} {t : RestoreTally} (h₁ : Patched m₀ P₁ m₁)
    (hfree : ∀ name ∈ names, ∀ l, s.store.StandsAt m₁ name l → m₀.tree.get? (slotOf l) = none)
    (h : Patched m₀ P m) (hsub : ∀ l, P l → P₁ l) :
    Script.Ensures Call.Sturdy (fun _ => True) (names.foldlM (s.restoreArtifact false) t)
      (fun t' m' => Patched m₀ (fun l => P l ∧ ∀ name ∈ names, ¬s.store.StandsAt m₀ name l) m' ∧
        (t'.IsClean ↔ t.IsClean ∧
          (∀ name ∈ names, ∃ l, s.store.StandsAt m₀ name l ∧ P l) ∧
          names.Pairwise (s.store.Distinct m₀)) ∧
        ((∀ name ∈ names, ∃ l, s.store.StandsAt m₀ name l) → t'.firstFailure = t.firstFailure))
      (fun _ _ => False) m := by
  -- `P` shrinks from artifact to artifact and stays below `P₁`
  induction names generalizing t m P with
  | nil =>
      rw [List.foldlM_nil]
      refine ensures_pure ⟨h.congr fun l => ?_, ?_, fun _ => rfl⟩
      · simp
      · simp
  | cons name rest ih =>
      rw [List.foldlM_cons]
      have hnow (l : Location) (hl : s.store.StandsAt m name l) : m₀.tree.get? (slotOf l) = none :=
        hfree name List.mem_cons_self l (h.standsAt h₁ hsub hl)
      refine ensures_bind ((restoreArtifact_ensures h hnow).mono ?_ fun _ _ he => he)
      intro t' m' hdone
      obtain ⟨hpatched, hclean, hfirst⟩ := hdone
      refine (ih (fun b hb => hfree b (List.mem_cons_of_mem name hb)) hpatched
        fun l hl => hsub l hl.1).mono ?_ fun _ _ he => he
      intro t'' m'' hdone
      obtain ⟨hpatched', hclean', hfirst'⟩ := hdone
      refine ⟨hpatched'.congr fun l => ?_, ?_, ?_⟩
      · rw [List.forall_mem_cons, and_assoc]
      · rw [hclean', hclean, forall_brought_back_iff, List.forall_mem_cons, List.pairwise_cons]
        simp only [and_assoc]
      · intro hall
        rw [List.forall_mem_cons] at hall
        rw [hfirst' hall.2, hfirst hall.1]

/-- **The restore command.**  It ends with an exit code, which is 0 if every
artifact stands at a patched place of its own. -/
theorem restore_ensures (h : Patched m₀ P m)
    (hfree : ∀ a ∈ s.profile.artifacts, ∀ l, s.store.StandsAt m a.name l →
      m₀.tree.get? (slotOf l) = none) :
    Script.Ensures Call.Sturdy (fun _ => True) (s.restore false)
      (fun code m' =>
        Patched m₀ (fun l => P l ∧ ∀ a ∈ s.profile.artifacts, ¬s.store.StandsAt m₀ a.name l) m' ∧
        (code = 0 ↔ (∀ a ∈ s.profile.artifacts, ∃ l, s.store.StandsAt m₀ a.name l ∧ P l) ∧
          s.profile.artifacts.Pairwise fun a b => s.store.Distinct m₀ a.name b.name) ∧
        ((∀ a ∈ s.profile.artifacts, ∃ l, s.store.StandsAt m₀ a.name l) → code = 0 ∨ code = 4))
      (fun _ _ => False) m := by
  refine ensures_bind (sayHeader_ensures ?_)
  have hnames : ∀ name ∈ s.profile.artifacts.map Artifact.name, ∀ l,
      s.store.StandsAt m name l → m₀.tree.get? (slotOf l) = none := by
    rw [List.forall_mem_map]
    exact hfree
  refine ensures_bind ((restoreAll_ensures h hnames h fun _ hl => hl).mono ?_ fun _ _ he => he)
  intro tally m' hdone
  simp only [List.forall_mem_map, List.pairwise_map] at hdone
  obtain ⟨hpatched, hclean, hfirst⟩ := hdone
  rw [show RestoreTally.IsClean ⟨none, 0⟩ ↔ True from iff_of_true ⟨rfl, rfl⟩ trivial,
    true_and] at hclean
  obtain ⟨firstFailure, missing⟩ := tally
  cases firstFailure with
  | some kind =>
      refine ensures_pure ⟨hpatched, ?_, fun hall => ?_⟩
      · rw [← hclean]
        exact iff_of_false kind.exitCode_ne_zero fun hnone => by cases hnone.1
      · cases hfirst hall
  | none =>
      dsimp only
      split
      next hmissing =>
        refine ensures_bind (ensures_complain (ensures_pure ⟨hpatched, ?_, fun _ => .inr rfl⟩))
        rw [← hclean]
        exact iff_of_false (FailureKind.exitCode_ne_zero _) fun hnone =>
          absurd hnone.2 (Nat.ne_of_gt hmissing)
      next hmissing =>
        refine ensures_pure ⟨hpatched, ?_, fun _ => .inl rfl⟩
        rw [← hclean]
        exact iff_of_true rfl ⟨rfl, Nat.eq_zero_of_not_pos hmissing⟩

/-! ## §3. There and back. -/

/-- **Restoring undoes applying.**  Where the slots of the artifacts are free, be
they found before or only afterwards, and a run of the apply command has
succeeded: the restore command comes to an end, and the tree is the first one,
without a backup more.  If the run was no dry run and no two artifacts are the
same file, the exit code is 0 exactly if every artifact has rules; and if every
artifact was found in the first tree, the exit code is 0, or that of an artifact
with nothing to restore. -/
theorem restore_undoes_apply {s s' : Session} (dryRun showSites ignoreVersion : Bool)
    {t t₁ : Transcript} (t₂ : Transcript) (hstore : s'.store = s.store)
    (hartifacts : s'.profile.artifacts = s.profile.artifacts)
    (hfree : ∀ a ∈ s.profile.artifacts, ∀ l,
      s.store.StandsAt m a.name l ∨ s.store.StandsAt m₁ a.name l → m.tree.get? (slotOf l) = none)
    (hsturdy : ∀ a ∈ s.profile.artifacts, ∀ l, s.store.StandsAt m a.name l →
      ¬frail (.stat (.ofLocation (slotOf l))))
    (happly : ((s.apply dryRun showSites ignoreVersion).after t).Ends frail m (.ok 0, t₁) m₁) :
    ∃ code t₃ m₂, ((s'.restore false).after t₂).run m₁ = ((.ok code, t₃), m₂) ∧
      (∀ k, m₂.tree.get? k = m.tree.get? k) ∧
      (dryRun = false →
        (s.profile.artifacts.Pairwise fun a b => s.store.Distinct m a.name b.name) →
        (code = 0 ↔ ∀ a ∈ s.profile.artifacts, s.HasRules a)) ∧
      ((∀ a ∈ s.profile.artifacts, ∃ l, s.store.StandsAt m a.name l) → code = 0 ∨ code = 4) := by
  obtain ⟨hfound, hpatched⟩ := (apply_patched dryRun showSites ignoreVersion
    (fun a ha l hl => hfree a ha l (.inl hl)) hsturdy t).ends happly
  have hfree' : ∀ a ∈ s'.profile.artifacts, ∀ l, s'.store.StandsAt m₁ a.name l →
      m.tree.get? (slotOf l) = none := by
    rw [hstore, hartifacts]
    exact fun a ha l hl => hfree a ha l (.inr hl)
  obtain ⟨code, t₃, m₂, hrun, hdone⟩ := (restore_ensures hpatched hfree').run_succeeds t₂
  rw [hstore, hartifacts] at hdone
  obtain ⟨hrestored, hzero, hfour⟩ := hdone
  refine ⟨code, t₃, m₂, hrun, ?_, ?_, hfour⟩
  · -- a place that was patched is that of an artifact
    refine hrestored.get?_eq fun l hl => ?_
    obtain ⟨⟨-, a, ha, -, hstands⟩, hnot⟩ := hl
    exact hnot a ha hstands
  · intro hearnest hdistinct
    rw [hzero, and_iff_left hdistinct]
    constructor
    · intro hall a ha
      obtain ⟨l, hl, -, b, hb, hsome, hl'⟩ := hall a ha
      -- the artifact that was patched there is this one
      by_cases hab : a = b
      · rw [hab]
        exact hsome
      · have hsymm : Std.Symm fun a b : Artifact => s.store.Distinct m a.name b.name :=
          ⟨fun _ _ h => h.symm⟩
        exact absurd hl' (hdistinct.forall ha hb hab l hl)
    · intro hall a ha
      obtain ⟨l, hl⟩ := hfound a ha (hall a ha)
      exact ⟨l, hl, hearnest, a, ha, hall a ha, hl⟩

theorem hasRules_of_length {a : Artifact} {n : Nat}
    (h : (s.profile.rulesFor a.name).map List.length = .ok (n + 1)) : s.HasRules a := by
  intro hnone
  rw [hnone] at h
  cases h

/-- Both files are patched, and both are restored. -/
theorem restore_undoes_apply_sample : ∃ t₁ m₁ t₃ m₂,
    (((sampleSession "lib.js").apply false false false).after ⟨[], []⟩).run sampleStock
      = ((.ok 0, t₁), m₁) ∧
    m₁.tree.get? ["pkg", "cli.js"] = some (.file (Text.encode "bar;".toList) 0o644) ∧
    (((sampleSession "lib.js").restore false).after ⟨[], []⟩).run m₁ = ((.ok 0, t₃), m₂) ∧
    ∀ k, m₂.tree.get? k = sampleStock.tree.get? k := by
  obtain ⟨hcode, hpatched, hmain', hother'⟩ :
      ((((sampleSession "lib.js").apply false false false).after ⟨[], []⟩).run
        sampleStock).1.1.mapError CommandError.kind = .ok 0 ∧
      ((((sampleSession "lib.js").apply false false false).after ⟨[], []⟩).run
        sampleStock).2.tree.get? ["pkg", "cli.js"]
          = some (.file (Text.encode "bar;".toList) 0o644) ∧
      (sampleSession "lib.js").store.StandsAt ((((sampleSession "lib.js").apply false false
        false).after ⟨[], []⟩).run sampleStock).2 "main" ["pkg", "cli.js"] ∧
      (sampleSession "lib.js").store.StandsAt ((((sampleSession "lib.js").apply false false
        false).after ⟨[], []⟩).run sampleStock).2 "other" ["pkg", "lib.js"] := by
    unfold StandsAt
    decide +kernel
  obtain ⟨r, t₁, m₁, happly⟩ := exists_run ((sampleSession "lib.js").apply false false false)
    ⟨[], []⟩ sampleStock
  have hends := Procedure.ends_run Call.Sturdy
    (((sampleSession "lib.js").apply false false false).after ⟨[], []⟩) sampleStock
  rw [happly] at hcode hpatched hmain' hother' hends
  obtain rfl := Except.mapError_eq_ok_iff.1 hcode
  have hartifacts : (sampleSession "lib.js").profile.artifacts
      = [⟨"main", "cli.js"⟩, ⟨"other", "lib.js"⟩] := rfl
  obtain ⟨hmain, hother⟩ :
      (sampleSession "lib.js").store.StandsAt sampleStock "main" ["pkg", "cli.js"] ∧
      (sampleSession "lib.js").store.StandsAt sampleStock "other" ["pkg", "lib.js"] := by
    unfold StandsAt
    decide +kernel
  have hfree : ∀ a ∈ (sampleSession "lib.js").profile.artifacts, ∀ l,
      (sampleSession "lib.js").store.StandsAt sampleStock a.name l ∨
        (sampleSession "lib.js").store.StandsAt m₁ a.name l →
      sampleStock.tree.get? (slotOf l) = none := by
    intro a ha l hl
    rw [hartifacts, List.mem_pair] at ha
    rcases ha with rfl | rfl
    · obtain rfl := hl.elim hmain.unique hmain'.unique
      decide +kernel
    · obtain rfl := hl.elim hother.unique hother'.unique
      decide +kernel
  obtain ⟨code, t₃, m₂, hrestore, hsame, hzero, -⟩ :=
    restore_undoes_apply false false false ⟨[], []⟩ rfl rfl hfree (fun _ _ _ _ h => h) hends
  have hdistinct : (sampleSession "lib.js").profile.artifacts.Pairwise fun a b =>
      (sampleSession "lib.js").store.Distinct sampleStock a.name b.name := by
    rw [hartifacts, List.pairwise_pair]
    intro l hl hl'
    have hplaces := (hmain.unique hl).trans (hother.unique hl').symm
    exact absurd hplaces (by decide)
  have hrules : ∀ a ∈ (sampleSession "lib.js").profile.artifacts,
      (sampleSession "lib.js").HasRules a := by
    intro a ha
    rw [hartifacts, List.mem_pair] at ha
    rcases ha with rfl | rfl
    · exact hasRules_of_length (n := 0) (by decide +kernel)
    · exact hasRules_of_length (n := 0) (by decide +kernel)
  obtain rfl := (hzero rfl hdistinct).2 hrules
  exact ⟨t₁, m₁, t₃, m₂, happly, hpatched, hrestore, hsame⟩

/-- The session with rules for the first artifact only. -/
def samplePartial : Session :=
  { sampleSession "lib.js" with
    profile := { (sampleSession "lib.js").profile with
      rules := [⟨"bar", "main", none, "foo", "bar", 1, none⟩] } }

/-- An artifact without rules has nothing to restore, though nothing was done to
it. -/
theorem restore_reports_missing : samplePartial.profile.issues = [] ∧
    sampleFiles.tree.get? ["pkg", "cli.js.bak"] = none ∧
    sampleFiles.tree.get? ["pkg", "lib.js.bak"] = none ∧
    ∃ t₁ m₁ t₃ m₂,
      ((samplePartial.apply false false false).after ⟨[], []⟩).run sampleFiles
        = ((.ok 0, t₁), m₁) ∧
      ((samplePartial.restore false).after ⟨[], []⟩).run m₁ = ((.ok 4, t₃), m₂) := by
  obtain ⟨hzero, hfour⟩ :
      (((samplePartial.apply false false false).after ⟨[], []⟩).run sampleFiles).1.1.mapError
        CommandError.kind = .ok 0 ∧
      (((samplePartial.restore false).after ⟨[], []⟩).run
        (((samplePartial.apply false false false).after ⟨[], []⟩).run sampleFiles).2).1.1.mapError
          CommandError.kind = .ok 4 := by
    decide +kernel
  obtain ⟨r₁, t₁, m₁, happly⟩ := exists_run (samplePartial.apply false false false) ⟨[], []⟩
    sampleFiles
  rw [happly] at hzero hfour
  obtain ⟨r₃, t₃, m₂, hrestore⟩ := exists_run (samplePartial.restore false) ⟨[], []⟩ m₁
  rw [hrestore] at hfour
  obtain rfl := Except.mapError_eq_ok_iff.1 hzero
  obtain rfl := Except.mapError_eq_ok_iff.1 hfour
  exact ⟨by decide +kernel, by decide +kernel, by decide +kernel, t₁, m₁, t₃, m₂, happly, hrestore⟩

end Session

end ArtifactPatch
