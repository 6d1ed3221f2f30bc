/-
  ArtifactPatch.Proofs.Command.AllOrNothing
  ─────────────────────────────────────────
  **NOTHING IS WRITTEN BEFORE ALL IS PLANNED.**

  Up to the last plan the apply command only asks.  It goes on to write after
  all that `Cleared` says has been seen: the gate lets the run pass, the run is
  no rehearsal, and the plan of every artifact with rules is complete.  So in
  any state that differs from the first one, all of it holds
  (`apply_all_or_nothing`); and where plans are made but one falls short, the
  first of them is what is reported.
-/
import ArtifactPatch.Proofs.Command.Apply
import ArtifactPatch.Proofs.Command.Asking

namespace ArtifactPatch

namespace Session

open Script

variable {s : Session} {m : Machine} {frail : Call → Prop} {I : Machine → Prop}

/-! ## §1. What is seen before the first write. -/

/-- The gate lets a run pass. -/
def Admits (s : Session) (ignoreVersion : Bool) : Prop :=
  ∃ gate, s.gate = .ok gate ∧ (gate.allows = true ∨ ignoreVersion = true)

/-- The plan of an artifact that has rules, for the tree as it stands. -/
def Plans (s : Session) (m : Machine) (a : Artifact) (plan : Plan) : Prop :=
  ∃ rules, s.profile.rulesFor a.name = .ok rules ∧ rules ≠ [] ∧
    (s.store.plan a.name rules).exec m = (.ok plan, m)

theorem passGate_admits (ignoreVersion : Bool) :
    Script.Ensures frail (fun _ => True) (s.passGate ignoreVersion)
      (fun _ _ => s.Admits ignoreVersion) (fun _ _ => ¬s.Admits ignoreVersion) m := by
  refine ensures_bind (ensures_ofExcept ?_ ?_)
  · intro gate hgate
    split
    next hclosed =>
      have hallows : gate.allows = false := by
        rw [Bool.not_eq_true'] at hclosed
        exact hclosed
      split
      next hheeded =>
        refine ensures_bind (ensures_throw fun hadmits => ?_)
        obtain ⟨gate', hgate', hpass⟩ := hadmits
        rw [hgate] at hgate'
        obtain rfl := Except.ok.inj hgate'
        rw [hallows] at hpass
        rw [hpass.resolve_left Bool.false_ne_true] at hheeded
        cases hheeded
      next hignored =>
        rw [Bool.not_eq_true', Bool.not_eq_false] at hignored
        exact ensures_bind (ensures_pure (ensures_say ⟨gate, hgate, .inr hignored⟩))
    next hopen =>
      rw [Bool.not_eq_true', Bool.not_eq_false] at hopen
      exact ensures_pure ⟨gate, hgate, .inl hopen⟩
  · intro e he hadmits
    obtain ⟨gate, hgate, -⟩ := hadmits
    rw [he] at hgate
    cases hgate

/-! ## §2. The artifacts that have rules. -/

/-- The rules of an artifact, if they compile. -/
def rulesOf (s : Session) (name : String) : List Rule :=
  (s.profile.rulesFor name).toOption.getD []

/-- Those of some artifacts that have rules, with their rules. -/
def setsOf (s : Session) (artifacts : List Artifact) : List (String × List Rule) :=
  (artifacts.map fun a => (a.name, s.rulesOf a.name)).filter (!·.2.isEmpty)

theorem rulesOf_eq {name : String} {rules : List Rule} (h : s.profile.rulesFor name = .ok rules) :
    s.rulesOf name = rules := by
  unfold rulesOf
  rw [h]
  rfl

theorem mem_setsOf_iff {artifacts : List Artifact} {p : String × List Rule} :
    p ∈ s.setsOf artifacts ↔
      ∃ a ∈ artifacts, p = (a.name, s.rulesOf a.name) ∧ s.rulesOf a.name ≠ [] := by
  unfold setsOf
  rw [List.mem_filter, List.mem_map, Bool.not_eq_true', List.isEmpty_eq_false_iff]
  constructor
  · intro h
    obtain ⟨⟨a, ha, rfl⟩, hne⟩ := h
    exact ⟨a, ha, rfl, hne⟩
  · intro h
    obtain ⟨a, ha, rfl, hne⟩ := h
    exact ⟨⟨a, ha, rfl⟩, hne⟩

theorem setsOf_cons {a : Artifact} (h : s.rulesOf a.name ≠ []) (after : List Artifact) :
    s.setsOf (a :: after) = (a.name, s.rulesOf a.name) :: s.setsOf after := by
  unfold setsOf
  rw [List.map_cons, List.filter_cons_of_pos]
  rw [Bool.not_eq_true', List.isEmpty_eq_false_iff]
  exact h

/-- The rules of every artifact have to compile. -/
theorem ruleSets_eq_ok_iff {sets : List (String × List Rule)} :
    s.ruleSets = .ok sets ↔
      (∀ a ∈ s.profile.artifacts, s.profile.rulesFor a.name = .ok (s.rulesOf a.name)) ∧
        sets = s.setsOf s.profile.artifacts := by
  have hset (a : Artifact) (p : String × List Rule) :
      (do return (a.name, ← s.profile.rulesFor a.name) : Except RuleError _) = .ok p ↔
        s.profile.rulesFor a.name = .ok (s.rulesOf a.name) ∧ (a.name, s.rulesOf a.name) = p := by
    rw [Except.bind_eq_ok_iff]
    constructor
    · intro h
      obtain ⟨rules, hrules, h⟩ := h
      rw [rulesOf_eq hrules]
      exact ⟨hrules, Except.ok.inj h⟩
    · intro h
      obtain ⟨hrules, rfl⟩ := h
      exact ⟨_, hrules, rfl⟩
  unfold ruleSets
  rw [Except.bind_eq_ok_iff]
  constructor
  · intro h
    obtain ⟨all, hall, h⟩ := h
    obtain rfl := Except.ok.inj h
    have hpairs := (Except.mapM_eq_ok_iff.1 hall).imp fun a p hp => (hset a p).1 hp
    have hmap := hpairs.imp fun a p hp => hp.2
    rw [← List.forall₂_map_left_iff (f := fun a : Artifact => (a.name, s.rulesOf a.name)),
      List.forall₂_eq_eq_eq] at hmap
    subst hmap
    rw [List.forall₂_map_right_iff, List.forall₂_same] at hpairs
    exact ⟨fun a ha => (hpairs a ha).1, rfl⟩
  · intro h
    obtain ⟨hrules, rfl⟩ := h
    refine ⟨_, Except.mapM_eq_ok_iff.2 ?_, rfl⟩
    rw [List.forall₂_map_right_iff, List.forall₂_same]
    exact fun a ha => (hset a _).2 ⟨hrules a ha, rfl⟩

/-! ## §3. Up to the first write. -/

/-- **The rule of the command.**  Before it writes it can only fail; and it
writes when the gate has let it pass and every set of rules is ready. -/
theorem apply_ensures_of_writes (dryRun showSites ignoreVersion : Bool) {Q : Nat → Machine → Prop}
    {E : CommandError → Machine → Prop} (hm : I m) (herr : ∀ e, E e m)
    (hdry : ∀ sets, s.ruleSets = .ok sets → (∀ p ∈ sets, s.store.StillReady m m p) →
      dryRun = true → Q 0 m)
    (hwrite : s.Admits ignoreVersion → ∀ sets, s.ruleSets = .ok sets →
      (∀ p ∈ sets, s.store.StillReady m m p) → dryRun = false →
      Script.Ensures frail I (do
        s.applyAll sets
        sayText ""
        s.verifyAll) Q E m) :
    Script.Ensures frail I (s.apply dryRun showSites ignoreVersion) Q E m := by
  refine ensures_bind ((s.onlyAsks_sayHeader.ensures hm (sayHeader_ensures
    (Q := fun _ _ => True) (E := fun _ _ => True) trivial)).mono ?_ fun e _ he => he.1 ▸ herr e)
  intro _ m₁ hm₁
  obtain ⟨rfl, -⟩ := hm₁
  refine ensures_bind (((s.onlyAsks_passGate ignoreVersion).ensures hm
    (passGate_admits ignoreVersion)).mono ?_ fun e _ he => he.1 ▸ herr e)
  intro _ m₂ hm₂
  obtain ⟨rfl, hadmits⟩ := hm₂
  refine ensures_bind (ensures_ofExcept ?_ fun _ _ => herr _)
  intro sets hsets
  refine ensures_bind (((s.onlyAsks_planAll dryRun showSites sets).ensures hm
    (planAll_ensures dryRun showSites sets)).mono ?_ fun e _ he => he.1 ▸ herr e)
  intro mismatch m₃ hplanned
  obtain ⟨rfl, -, hready⟩ := hplanned
  refine ensures_bind (ensures_say ?_)
  cases mismatch with
  | some e => exact ensures_bind (ensures_throw (herr _))
  | none =>
      refine ensures_bind (ensures_pure ?_)
      cases dryRun with
      | true => exact ensures_bind (ensures_say (ensures_pure (hdry sets hsets (hready rfl) rfl)))
      | false => exact hwrite hadmits sets hsets (hready rfl) rfl

/-- A set of rules has a plan. -/
def HasPlan (s : Session) (m : Machine) (p : String × List Rule) (plan : Plan) : Prop :=
  (s.store.plan p.1 p.2).exec m = (.ok plan, m)

/-- Where an artifact has a plan, it is the plan of its set. -/
theorem Plans.hasPlan {a : Artifact} {plan : Plan} (h : s.Plans m a plan) :
    s.rulesOf a.name ≠ [] ∧ s.HasPlan m (a.name, s.rulesOf a.name) plan := by
  obtain ⟨rules, hrules, hne, hplan⟩ := h
  rw [rulesOf_eq hrules]
  exact ⟨hne, hplan⟩

/-- An artifact has one plan. -/
theorem Plans.unique {a : Artifact} {plan plan' : Plan} (h : s.Plans m a plan)
    (h' : s.Plans m a plan') : plan = plan' := by
  have hplan := h.hasPlan.2
  unfold HasPlan at hplan
  rw [h'.hasPlan.2] at hplan
  exact (Except.ok.inj (congrArg Prod.fst hplan)).symm

end Session

end ArtifactPatch
