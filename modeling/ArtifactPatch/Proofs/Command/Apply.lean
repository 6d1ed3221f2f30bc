/-
  ArtifactPatch.Proofs.Command.Apply
  ──────────────────────────────────
  **PLANNING ALL BEFORE WRITING ANY.**

  The apply command plans every artifact on the tree as it stands, and then
  applies the rules to one after the other.  Where no two artifacts are the
  same file, what was planned stays ready while others are written
  (`Ready.applied`), so that no artifact falls short once the first is
  written, and a command that reports a mismatch has changed nothing
  (`no_mismatch_after_write`).  A profile may call one file by two paths; then
  the second artifact can fall short behind a write (`mismatch_after_write`).
-/
import ArtifactPatch.Command.Run
import ArtifactPatch.Proofs.Command.Script
import ArtifactPatch.Proofs.Patch.Agreement

namespace ArtifactPatch

/-! ## §1. Artifacts whose plan is complete. -/

namespace Store

variable {s : Store} {name : String} {m m₁ m' : Machine} {dir : Location} {file : String}
  {bytes : ByteArray} {mode : Mode} {frail : Call → Prop} {rules : List Rule}
  {text : ArtifactText}

/-- The plan of an artifact is complete, and `text` is its new text. -/
structure Ready (s : Store) (m : Machine) (name : String) (rules : List Rule) (dir : Location)
    (file : String) (bytes : ByteArray) (mode : Mode) (text : ArtifactText) : Prop where
  finds : s.Finds name m dir file bytes mode
  planned : ∃ raw plan, Text.decode? bytes = some raw ∧
    Plan.ofText name (.ofRaw raw) rules = .ok plan ∧ plan.content = some text

theorem Ready.exec_plan (h : s.Ready m name rules dir file bytes mode text) :
    ∃ plan, (s.plan name rules).exec m = (.ok plan, m) ∧ plan.content = some text := by
  obtain ⟨raw, plan, hdecode, hplan, hcontent⟩ := h.planned
  exact ⟨plan, h.finds.exec_plan hdecode hplan, hcontent⟩

/-- Planning reads the tree as it is. -/
theorem plan_ensures : Attempt.Ensures frail (fun _ => True) (s.plan name rules)
    (fun plan m' => m' = m ∧ ∀ text, plan.content = some text →
      ∃ dir file bytes mode, s.Ready m name rules dir file bytes mode text)
    (fun _ m' => m' = m) m := by
  by_cases hfound : ∃ dir file bytes mode, s.Finds name m dir file bytes mode
  · obtain ⟨dir, file, bytes, mode, hfinds⟩ := hfound
    refine hfinds.plan_ensures trivial ?_ (fun _ _ _ _ => rfl) fun _ _ => rfl
    intro raw plan hdecode hplan
    refine ⟨rfl, fun text htext => ?_⟩
    exact ⟨dir, file, bytes, mode, hfinds, raw, plan, hdecode, hplan, htext⟩
  · refine Attempt.ensures_bind (Attempt.ensures_mapError (Attempt.ensures_bind
      (Attempt.ensures_bind (resolve_ensures trivial ?_ fun _ _ => rfl))))
    intro dir file bytes mode hfinds
    exact (hfound ⟨dir, file, bytes, mode, hfinds⟩).elim

/-- Rules that are ready do not fall short, and what they write was planned. -/
theorem Ready.applyRules_ensures (h : s.Ready m name rules dir file bytes mode text)
    (hsturdy : ¬frail (.stat (.ofLocation (dir ++ [slotName file])))) :
    Attempt.Ensures frail (fun _ => True) (s.applyRules name rules)
      (fun plan m' => ∃ m₁ raw, Applied name rules m dir file bytes mode plan m₁ raw text m')
      (fun e _ => ∃ e', e = .store e') m := by
  obtain ⟨raw, planned, hdecode, hplan, hcontent⟩ := h.planned
  have hsame {raw' : Text} {p : Plan} (hdecode' : Text.decode? bytes = some raw')
      (hp : Plan.ofText name (.ofRaw raw') rules = .ok p) : p = planned := by
    rw [hdecode] at hdecode'
    obtain rfl := Option.some.inj hdecode'
    rw [hplan] at hp
    exact (Except.ok.inj hp).symm
  refine (h.finds.applied_ensures hsturdy ?_ ?_).mono ?_ fun _ _ he => he
  · intro e m₁ n m' _ _ _
    exact ⟨e, rfl⟩
  · -- a plan with a content does not fall short
    intro raw' p m₁ hdecode' hp hnone _
    obtain rfl := hsame hdecode' hp
    rw [hcontent] at hnone
    cases hnone
  · intro plan m' happlied
    obtain ⟨m₁, raw', text', happlied⟩ := happlied
    obtain ⟨plan₀, hplan₀, -, hcontent'⟩ := happlied.planned
    obtain rfl := hsame happlied.decoded hplan₀
    obtain rfl := Option.some.inj (hcontent'.symm.trans hcontent)
    exact ⟨m₁, raw', happlied⟩

/-- What is ready stays ready while another artifact is written. -/
theorem Ready.applied {name₂ : String} {rules₂ : List Rule} {dir₂ : Location} {file₂ : String}
    {bytes₂ : ByteArray} {mode₂ : Mode} {text₂ : ArtifactText} {plan : Plan} {raw : Text}
    (h : s.Ready m name₂ rules₂ dir₂ file₂ bytes₂ mode₂ text₂)
    (hfinds : s.Finds name m dir file bytes mode)
    (happlied : Applied name rules m dir file bytes mode plan m₁ raw text m')
    (hne : dir₂ ++ [file₂] ≠ dir ++ [file]) :
    s.Ready m' name₂ rules₂ dir₂ file₂ bytes₂ mode₂ text₂ := by
  have hbefore := happlied.backed.finds hfinds
  -- a new backup was not put where an artifact stands
  have hkept : m₁.tree.get? (dir₂ ++ [file₂]) = m.tree.get? (dir₂ ++ [file₂]) := by
    cases happlied.backed with
    | present => rfl
    | created hfree _ hreplaced =>
        refine hreplaced.get?_of_ne fun hslot => ?_
        have hstat := h.finds.hasFile.stat (Route.spells_ofLocation _) h.finds.text
        rw [hslot] at hstat
        exact hfree _ hstat
  have hnode₁ := hkept.trans h.finds.hasFile.node
  have hfinds₁ := h.finds.persists (happlied.backed.persists hfinds.hasFile.folder) hnode₁
  refine ⟨hfinds₁.persists (happlied.written.persists_of_file hbefore.hasFile.node) ?_, h.planned⟩
  exact (happlied.written.get?_of_ne hne).trans hnode₁

/-- Two artifacts are not the same file. -/
def StandApart (s : Store) (m : Machine) (p q : String × List Rule) : Prop :=
  ∀ l l', ((s.resolve p.1).exec m).1 = .ok l → ((s.resolve q.1).exec m).1 = .ok l' → l ≠ l'

/-- An artifact that was ready, and is so still. -/
def StillReady (s : Store) (m₀ m : Machine) (p : String × List Rule) : Prop :=
  ∃ dir file bytes mode text, s.Ready m₀ p.1 p.2 dir file bytes mode text ∧
    s.Ready m p.1 p.2 dir file bytes mode text

end Store

/-! ## §2. The two loops. -/

namespace Session

open Script

variable {s : Session} {m m₀ m₁ m' : Machine} {frail : Call → Prop}

/-- Where no plan falls short, every artifact is ready. -/
theorem planAll_ensures (dryRun showSites : Bool) (sets : List (String × List Rule)) :
    Script.Ensures frail (fun _ => True) (s.planAll dryRun showSites sets)
      (fun r m' => m' = m ∧ (r = none → ∀ p ∈ sets, s.store.StillReady m m p))
      (fun _ m' => m' = m) m := by
  induction sets with
  | nil => exact ensures_pure ⟨rfl, fun _ _ hp => absurd hp List.not_mem_nil⟩
  | cons p rest ih =>
      obtain ⟨name, rules⟩ := p
      refine ensures_bind (ensures_attempt (Store.plan_ensures.mono ?_ fun _ _ he => he))
      intro plan m₁ hplan
      obtain ⟨rfl, hready⟩ := hplan
      refine ensures_bind (ensures_print (ensures_bind (ih.mono ?_ fun _ _ he => he)))
      intro later m₂ hlater
      obtain ⟨rfl, hlater⟩ := hlater
      refine ensures_pure ⟨rfl, fun hnone => ?_⟩
      cases hcontent : plan.content with
      | none =>
          have hfalse : plan.isComplete = false := by
            show plan.content.isSome = false
            rw [hcontent]
            rfl
          rw [hfalse] at hnone
          cases hnone
      | some text =>
          have htrue : plan.isComplete = true := by
            show plan.content.isSome = true
            rw [hcontent]
            rfl
          rw [htrue] at hnone
          intro q hq
          rcases List.mem_cons.1 hq with rfl | hq
          · obtain ⟨dir, file, bytes, mode, h⟩ := hready text hcontent
            exact ⟨dir, file, bytes, mode, text, h, h⟩
          · exact hlater hnone q hq

/-- While artifacts are written one after the other, those that follow stay
ready, and none falls short. -/
theorem applyAll_ensures {todo rest : List (String × List Rule)}
    (hapart : (todo ++ rest).Pairwise (s.store.StandApart m₀))
    (hsturdy : ∀ p ∈ todo, ∀ live, ((s.store.resolve p.1).exec m₀).1 = .ok live →
      ¬frail (.stat (.ofLocation (Store.slotOf live))))
    (hready : ∀ p ∈ todo ++ rest, s.store.StillReady m₀ m p) :
    Script.Ensures frail (fun _ => True) (s.applyAll todo)
      (fun _ m' => ∀ p ∈ rest, s.store.StillReady m₀ m' p)
      (fun e _ => ∃ e', e = .patch (.store e')) m := by
  induction todo generalizing m with
  | nil => exact ensures_pure hready
  | cons p todo ih =>
      obtain ⟨name, rules⟩ := p
      obtain ⟨hfirst, hapart⟩ := List.pairwise_cons.1 hapart
      obtain ⟨dir, file, bytes, mode, text, hready₀, hready₁⟩ := hready _ List.mem_cons_self
      have hlook := hsturdy _ List.mem_cons_self _ hready₀.finds.exec_resolve
      rw [Store.slotOf_concat] at hlook
      refine ensures_bind (ensures_attempt ((hready₁.applyRules_ensures hlook).mono ?_ ?_))
      · intro plan m' happlied
        obtain ⟨m₁, raw, happlied⟩ := happlied
        refine ensures_bind (ensures_say (ih hapart ?_ ?_))
        · exact fun q hq => hsturdy q (List.mem_cons_of_mem _ hq)
        · -- the others are other files
          intro q hq
          obtain ⟨dir₂, file₂, bytes₂, mode₂, text₂, hother₀, hother₁⟩ :=
            hready q (List.mem_cons_of_mem _ hq)
          have hne := hfirst q hq _ _ hready₀.finds.exec_resolve hother₀.finds.exec_resolve
          exact ⟨dir₂, file₂, bytes₂, mode₂, text₂, hother₀,
            hother₁.applied hready₁.finds happlied hne.symm⟩
      · intro e _ hstore
        obtain ⟨e', rfl⟩ := hstore
        exact ⟨e', rfl⟩

/-! ## §3. The command. -/

/-- An error whose hint says that nothing was written. -/
def IsMismatch (e : CommandError) : Prop :=
  e.kind = .patternMismatch ∨ e.kind = .ambiguousMatch

theorem not_isMismatch_store (e : StoreError) : ¬IsMismatch (.store e) := by
  intro h
  cases e <;> cases h <;> contradiction

/-- A failure of the store is not a mismatch, in a patch or out of it. -/
theorem not_isMismatch_patch_store (e : StoreError) : ¬IsMismatch (.patch (.store e)) :=
  not_isMismatch_store e

theorem not_isMismatch_of_other {e : CommandError} (h : e.kind = .other) : ¬IsMismatch e := by
  intro hmismatch
  unfold IsMismatch at hmismatch
  rw [h] at hmismatch
  cases hmismatch <;> contradiction

/-- Verifying an artifact does not end in a mismatch. -/
theorem verifyArtifact_ensures (name : String) :
    Script.Ensures frail (fun _ => True) (s.verifyArtifact name) (fun _ _ => True)
      (fun e _ => ¬IsMismatch e) m := by
  have hstore (a : Attempt StoreError Report) (m : Machine) :
      Attempt.Ensures frail (fun _ => True) a (fun _ _ => True)
        (fun e _ => ¬IsMismatch (.store e)) m :=
    Attempt.ensures_of_forall (fun _ => trivial) (fun _ _ => trivial)
      (fun e _ => not_isMismatch_store e) m
  unfold verifyArtifact
  refine ensures_bind (ensures_ofExcept ?_ fun e _ => not_isMismatch_of_other rfl)
  intro es _
  split
  next => exact ensures_pure trivial
  next =>
    refine ensures_bind (ensures_attempt ((hstore _ m).mono ?_ fun _ _ he => he))
    intro report m₁ _
    refine ensures_bind ((ensures_forIn (P := fun _ => True) ?_ trivial).mono ?_ fun _ _ he => he)
    · intro f _ m₂ _
      exact ensures_bind (ensures_say (ensures_pure ⟨rfl, trivial⟩))
    · intro _ _ _
      exact ensures_pure trivial

theorem failureOf_ensures (report : Report) :
    Script.Ensures frail (fun _ => True) (s.failureOf report)
      (fun e _ => ¬IsMismatch (.patch e)) (fun e _ => ¬IsMismatch e) m := by
  refine ensures_bind (ensures_attempt (Attempt.ensures_of_forall (fun _ => trivial) ?_
    (fun e _ => not_isMismatch_store e) m))
  intro has m₁
  split
  next => exact ensures_pure fun h => by cases h <;> contradiction
  next => exact ensures_pure fun h => by cases h <;> contradiction

theorem verifyArtifacts_ensures {failed : Option PatchError} (artifacts : List Artifact)
    (hfailed : ∀ e, failed = some e → ¬IsMismatch (.patch e)) :
    Script.Ensures frail (fun _ => True) (s.verifyArtifacts failed artifacts)
      (fun r _ => ∀ e, r = some e → ¬IsMismatch (.patch e)) (fun e _ => ¬IsMismatch e) m := by
  induction artifacts generalizing failed m with
  | nil => exact ensures_pure hfailed
  | cons a rest ih =>
      refine ensures_bind ((verifyArtifact_ensures a.name).mono ?_ fun _ _ he => he)
      intro found m₁ _
      split
      next report =>
        refine ensures_bind ((failureOf_ensures report).mono ?_ fun _ _ he => he)
        intro e m₂ he
        refine ih fun e' he' => ?_
        obtain rfl := Option.some.inj he'
        exact he
      next => exact ih hfailed

/-- Verification does not end in a mismatch. -/
theorem verifyAll_ensures : Script.Ensures frail (fun _ => True) s.verifyAll (fun _ _ => True)
    (fun e _ => ¬IsMismatch e) m := by
  refine ensures_bind ((verifyArtifacts_ensures s.profile.artifacts ?_).mono ?_ fun _ _ he => he)
  · intro e he
    cases he
  · intro r m₁ hr
    cases r with
    | some e => exact ensures_throw (hr e rfl)
    | none => exact ensures_pure trivial

/-- What precedes the plans changes nothing. -/
theorem passGate_ensures (ignoreVersion : Bool) :
    Script.Ensures frail (fun _ => True) (s.passGate ignoreVersion) (fun _ m' => m' = m)
      (fun _ m' => m' = m) m := by
  refine ensures_bind (ensures_ofExcept ?_ fun _ _ => rfl)
  intro gate _
  split
  next =>
    split
    next => exact ensures_bind (ensures_throw rfl)
    next => exact ensures_bind (ensures_pure (ensures_say rfl))
  next => exact ensures_pure rfl

theorem sayHeader_ensures {Q : Unit → Machine → Prop} {E : CommandError → Machine → Prop}
    (h : Q () m) : Script.Ensures frail (fun _ => True) s.sayHeader Q E m :=
  ensures_bind (ensures_say (ensures_bind (ensures_say (ensures_bind (ensures_say
    (ensures_say h))))))

/-- Where no two artifacts are the same file, a mismatch leaves the tree alone. -/
theorem apply_ensures (dryRun showSites ignoreVersion : Bool)
    (hapart : ∀ sets, s.ruleSets = .ok sets → sets.Pairwise (s.store.StandApart m))
    (hsturdy : ∀ sets, s.ruleSets = .ok sets → ∀ p ∈ sets, ∀ live,
      ((s.store.resolve p.1).exec m).1 = .ok live →
      ¬frail (.stat (.ofLocation (Store.slotOf live)))) :
    Script.Ensures frail (fun _ => True) (s.apply dryRun showSites ignoreVersion)
      (fun _ _ => True) (fun e m' => IsMismatch e → m' = m) m := by
  refine ensures_bind (sayHeader_ensures ?_)
  refine ensures_bind ((passGate_ensures ignoreVersion).mono ?_ fun _ _ he _ => he)
  intro _ m₁ hm₁
  obtain rfl := hm₁
  refine ensures_bind (ensures_ofExcept ?_ fun _ _ _ => rfl)
  intro sets hsets
  refine ensures_bind ((planAll_ensures dryRun showSites sets).mono ?_ fun _ _ he _ => he)
  intro mismatch m₂ hplanned
  obtain ⟨rfl, hready⟩ := hplanned
  refine ensures_bind (ensures_say ?_)
  cases mismatch with
  | some e => exact ensures_bind (ensures_throw fun _ => rfl)
  | none =>
      refine ensures_bind (ensures_pure ?_)
      cases dryRun with
      | true => exact ensures_bind (ensures_say (ensures_pure trivial))
      | false =>
          -- from here on, no error is a mismatch
          have hwrites : Script.Ensures frail (fun _ => True) (s.applyAll sets) (fun _ _ => True)
              (fun e _ => ¬IsMismatch e) m₂ := by
            have hapart' : (sets ++ []).Pairwise (s.store.StandApart m₂) := by
              rw [List.append_nil]
              exact hapart sets hsets
            have hready' : ∀ p ∈ sets ++ [], s.store.StillReady m₂ m₂ p := by
              rw [List.append_nil]
              exact hready rfl
            refine (applyAll_ensures hapart' (hsturdy sets hsets) hready').mono
              (fun _ _ _ => trivial) ?_
            intro e _ hstore
            obtain ⟨e', rfl⟩ := hstore
            exact not_isMismatch_patch_store e'
          refine ensures_bind (hwrites.mono ?_ fun _ _ he h => absurd h he)
          intro _ m₃ _
          exact ensures_bind (ensures_say (verifyAll_ensures.mono (fun _ _ h => h)
            fun _ _ he h => absurd h he))

/-- **No mismatch after the first write.**  Where no two artifacts with rules are
the same file: once every plan is complete, no artifact falls short while they
are written one after the other, and each is written as it was planned.  So a
command that ends in a mismatch, whose hint says that nothing was written, has
changed nothing. -/
theorem no_mismatch_after_write (dryRun showSites ignoreVersion : Bool)
    (hapart : ∀ sets, s.ruleSets = .ok sets → sets.Pairwise (s.store.StandApart m))
    (hsturdy : ∀ sets, s.ruleSets = .ok sets → ∀ p ∈ sets, ∀ live,
      ((s.store.resolve p.1).exec m).1 = .ok live →
      ¬frail (.stat (.ofLocation (Store.slotOf live)))) :
    (∀ done name rules rest t₀ t₁ t₂ t₃ m₀ m₁ result m',
      s.ruleSets = .ok (done ++ (name, rules) :: rest) →
      ((s.planAll dryRun showSites (done ++ (name, rules) :: rest)).after t₀).Ends frail m
        (.ok none, t₁) m₀ →
      ((s.applyAll done).after t₂).Ends frail m₀ (.ok (), t₃) m₁ →
      Procedure.Ends frail (ExceptT.run (s.store.applyRules name rules)) m₁ result m' →
      (∀ artifact failures, result ≠ .error (.mismatch artifact failures)) ∧
      ∀ plan, result = .ok plan → ∃ planned live text mode,
        (s.store.plan name rules).exec m = (.ok planned, m) ∧ planned.content = some text ∧
        ((s.store.resolve name).exec m).1 = .ok live ∧
        m'.tree.get? live = some (.file (Text.encode text.toRaw) mode)) ∧
    ∀ t e t' m', ((s.apply dryRun showSites ignoreVersion).after t).Ends frail m (.error e, t') m' →
      e.kind = .patternMismatch ∨ e.kind = .ambiguousMatch → m' = m := by
  refine ⟨?_, ?_⟩
  · intro done name rules rest t₀ t₁ t₂ t₃ m₀ m₁ result m' hsets hplanned hwritten happlied
    obtain ⟨rfl, hready⟩ := (planAll_ensures dryRun showSites _ t₀).ends hplanned
    have hdone := (applyAll_ensures (hapart _ hsets)
      (fun p hp => hsturdy _ hsets p (List.mem_append_left _ hp)) (hready rfl) t₂).ends hwritten
    obtain ⟨dir, file, bytes, mode, text, hready₀, hready₁⟩ := hdone _ List.mem_cons_self
    have hlook := hsturdy _ hsets (name, rules)
      (List.mem_append_right _ List.mem_cons_self) _ hready₀.finds.exec_resolve
    rw [Store.slotOf_concat] at hlook
    have hensures := hready₁.applyRules_ensures hlook
    refine ⟨?_, ?_⟩
    · intro artifact failures heq
      subst heq
      obtain ⟨e', he'⟩ := hensures.ends_error happlied
      cases he'
    · intro plan heq
      subst heq
      obtain ⟨m₂, raw, hpatched⟩ := hensures.ends_ok happlied
      obtain ⟨planned, hplan, hcontent⟩ := hready₀.exec_plan
      exact ⟨planned, dir ++ [file], text, mode, hplan, hcontent, hready₀.finds.exec_resolve,
        hpatched.written.get?_self⟩
  · intro t e t' m' hends hmismatch
    exact (apply_ensures dryRun showSites ignoreVersion hapart hsturdy t).ends hends hmismatch

/-- A session with two artifacts, the second at any path. -/
def sampleSession (path : String) : Session where
  profile := { Profile.empty with
    package := "pkg"
    artifacts := [⟨"main", "cli.js"⟩, ⟨"other", path⟩]
    rules := [⟨"bar", "main", none, "foo", "bar", 1, none⟩,
      ⟨"baz", "other", none, "foo", "baz", 1, none⟩] }
  package := ⟨"pkg", "/pkg", none⟩
  store := ⟨⟨["pkg"]⟩, [⟨"main", "cli.js"⟩, ⟨"other", path⟩]⟩

/-- A package with two files. -/
def sampleFiles : Machine :=
  ⟨⟨[(["pkg"], .directory 0o755), (["pkg", "cli.js"], .file (Text.encode "foo;".toList) 0o644),
    (["pkg", "lib.js"], .file (Text.encode "fox;".toList) 0o644)]⟩, []⟩

/-- The same package, with both files to be patched. -/
def sampleStock : Machine :=
  ⟨⟨[(["pkg"], .directory 0o755), (["pkg", "cli.js"], .file (Text.encode "foo;".toList) 0o644),
    (["pkg", "lib.js"], .file (Text.encode "foo;".toList) 0o644)]⟩, []⟩

/-- A rule that gives `foo` another name. -/
def sampleRenaming (id new : String)
    (hnew : [Segment.literal "foo".toList] ≠ [.literal new.toList]) : Rule where
  id := id
  pattern := ⟨[.literal "foo".toList], by decide, by decide⟩
  template := ⟨[.literal new.toList]⟩
  min := 1
  max := none
  same_placeholders := rfl
  not_noOp := hnew
  one_le_min := Nat.one_pos

/-- The rules of the session. -/
def sampleSets : List (String × List Rule) :=
  [("main", [sampleRenaming "bar" "bar" (by decide)]),
    ("other", [sampleRenaming "baz" "baz" (by decide)])]

theorem standApart_sampleSets (hmain : (((sampleSession "lib.js").store.resolve "main").exec m).1
      = .ok ["pkg", "cli.js"])
    (hother : (((sampleSession "lib.js").store.resolve "other").exec m).1
      = .ok ["pkg", "lib.js"]) {sets : List (String × List Rule)}
    (hsets : (sampleSession "lib.js").ruleSets = .ok sets) :
    sets.Pairwise ((sampleSession "lib.js").store.StandApart m) := by
  have hsample : (sampleSession "lib.js").ruleSets = .ok sampleSets := by decide +kernel
  obtain rfl := Except.ok.inj (hsample.symm.trans hsets)
  unfold sampleSets
  rw [List.pairwise_pair]
  intro l l' hl hl'
  obtain rfl := Except.ok.inj (hmain.symm.trans hl)
  obtain rfl := Except.ok.inj (hother.symm.trans hl')
  decide

/-- Both plans are complete, and the second file is written behind the first as it
was planned.  Where the second falls short, the first is not written. -/
theorem no_mismatch_after_write_sample :
    (∃ t₁ m₀ t₃ m₁ plan m' planned text mode,
      (((sampleSession "lib.js").planAll false false sampleSets).after ⟨[], []⟩).run sampleStock
        = ((.ok none, t₁), m₀) ∧
      (((sampleSession "lib.js").applyAll (sampleSets.take 1)).after ⟨[], []⟩).run m₀
        = ((.ok (), t₃), m₁) ∧
      m₁.tree.get? ["pkg", "cli.js"] = some (.file (Text.encode "bar;".toList) 0o644) ∧
      ((sampleSession "lib.js").store.applyRules "other"
        [sampleRenaming "baz" "baz" (by decide)]).exec m₁ = (.ok plan, m') ∧
      ((sampleSession "lib.js").store.plan "other"
        [sampleRenaming "baz" "baz" (by decide)]).exec sampleStock = (.ok planned, sampleStock) ∧
      planned.content = some text ∧
      m'.tree.get? ["pkg", "lib.js"] = some (.file (Text.encode text.toRaw) mode)) ∧
    ∃ e t, (((sampleSession "lib.js").apply false false false).after ⟨[], []⟩).run sampleFiles
      = ((.error e, t), sampleFiles) ∧ e.kind = .patternMismatch := by
  refine ⟨?_, ?_⟩
  · have hsets : (sampleSession "lib.js").ruleSets = .ok (sampleSets.take 1 ++ ("other",
        [sampleRenaming "baz" "baz" (by decide)]) :: []) := by decide +kernel
    have hother : (((sampleSession "lib.js").store.resolve "other").exec sampleStock).1
        = .ok ["pkg", "lib.js"] := by decide +kernel
    have hapart (sets : List (String × List Rule))
        (hsets : (sampleSession "lib.js").ruleSets = .ok sets) :=
      standApart_sampleSets (m := sampleStock) (by decide +kernel) hother hsets
    have hcomplete : ((((sampleSession "lib.js").planAll false false sampleSets).after
        ⟨[], []⟩).run sampleStock).1.1.mapError CommandError.kind = .ok none := by decide +kernel
    obtain ⟨r₀, t₁, m₀, hplanned⟩ := exists_run
      ((sampleSession "lib.js").planAll false false sampleSets) ⟨[], []⟩ sampleStock
    have hm₀ : ((((sampleSession "lib.js").planAll false false sampleSets).after
        ⟨[], []⟩).run sampleStock).2 = m₀ := by rw [hplanned]
    obtain ⟨hfirst, hcli⟩ : ((((sampleSession "lib.js").applyAll (sampleSets.take 1)).after
          ⟨[], []⟩).run m₀).1.1.mapError CommandError.kind = .ok () ∧
        ((((sampleSession "lib.js").applyAll (sampleSets.take 1)).after
          ⟨[], []⟩).run m₀).2.tree.get? ["pkg", "cli.js"]
            = some (.file (Text.encode "bar;".toList) 0o644) := by
      rw [← hm₀]
      decide +kernel
    obtain ⟨r₁, t₃, m₁, hwritten⟩ := exists_run
      ((sampleSession "lib.js").applyAll (sampleSets.take 1)) ⟨[], []⟩ m₀
    have hm₁ : ((((sampleSession "lib.js").applyAll (sampleSets.take 1)).after
        ⟨[], []⟩).run m₀).2 = m₁ := by rw [hwritten]
    have hok : (((sampleSession "lib.js").store.applyRules "other"
        [sampleRenaming "baz" "baz" (by decide)]).exec m₁).1.isOk = true := by
      rw [← hm₁, ← hm₀]
      decide +kernel
    obtain ⟨plan, m', happlied⟩ := Attempt.exec_of_isOk hok
    rw [hplanned] at hcomplete
    rw [hwritten] at hfirst hcli
    obtain rfl := Except.mapError_eq_ok_iff.1 hcomplete
    obtain rfl := Except.mapError_eq_ok_iff.1 hfirst
    have hends₀ := Procedure.ends_run Call.Sturdy
      (((sampleSession "lib.js").planAll false false sampleSets).after ⟨[], []⟩) sampleStock
    have hends₁ := Procedure.ends_run Call.Sturdy
      (((sampleSession "lib.js").applyAll (sampleSets.take 1)).after ⟨[], []⟩) m₀
    rw [hplanned] at hends₀
    rw [hwritten] at hends₁
    obtain ⟨planned, live, text, mode, hplan, hcontent, hlive, hnode⟩ :=
      ((no_mismatch_after_write false false false hapart fun _ _ _ _ _ _ h => h).1
        _ _ _ _ _ _ _ _ _ _ _ _ hsets hends₀ hends₁ (Attempt.ends_of_exec _ happlied)).2 plan rfl
    obtain rfl := Except.ok.inj (hother.symm.trans hlive)
    exact ⟨t₁, m₀, t₃, m₁, plan, m', planned, text, mode, hplanned, hwritten, hcli, happlied, hplan,
      hcontent, hnode⟩
  · have hkind : ((((sampleSession "lib.js").apply false false false).after ⟨[], []⟩).run
        sampleFiles).1.1.mapError CommandError.kind = .error .patternMismatch := by decide +kernel
    have hapart (sets : List (String × List Rule))
        (hsets : (sampleSession "lib.js").ruleSets = .ok sets) :=
      standApart_sampleSets (m := sampleFiles) (by decide +kernel) (by decide +kernel) hsets
    obtain ⟨r, t, m', hrun⟩ := exists_run ((sampleSession "lib.js").apply false false false)
      ⟨[], []⟩ sampleFiles
    have hends := Procedure.ends_run Call.Sturdy
      (((sampleSession "lib.js").apply false false false).after ⟨[], []⟩) sampleFiles
    rw [hrun] at hkind hends
    obtain ⟨e, rfl, hmismatch⟩ := Except.exists_of_mapError_eq_error hkind
    have hsame : m' = sampleFiles := (no_mismatch_after_write false false false hapart
      fun _ _ _ _ _ _ h => h).2 _ e t _ hends (.inl hmismatch)
    exact ⟨e, t, hrun.trans (by rw [hsame]), hmismatch⟩

/-- Two artifacts at one file: the second falls short behind the first. -/
theorem mismatch_after_write : (sampleSession "./cli.js").profile.issues = [] ∧
    sampleFiles.tree.get? ["pkg", "cli.js"] = some (.file (Text.encode "foo;".toList) 0o644) ∧
    ∃ e t m', (((sampleSession "./cli.js").apply false false false).after ⟨[], []⟩).run sampleFiles
      = ((.error e, t), m') ∧ e.kind = .patternMismatch ∧
      m'.tree.get? ["pkg", "cli.js"] = some (.file (Text.encode "bar;".toList) 0o644) := by
  have hkind : ((((sampleSession "./cli.js").apply false false false).after ⟨[], []⟩).run
      sampleFiles).1.1.mapError CommandError.kind = .error .patternMismatch := by decide +kernel
  have hwritten : ((((sampleSession "./cli.js").apply false false false).after ⟨[], []⟩).run
      sampleFiles).2.tree.get? ["pkg", "cli.js"]
        = some (.file (Text.encode "bar;".toList) 0o644) := by decide +kernel
  obtain ⟨r, t, m', hrun⟩ := exists_run ((sampleSession "./cli.js").apply false false false)
    ⟨[], []⟩ sampleFiles
  rw [hrun] at hkind hwritten
  obtain ⟨e, rfl, hmismatch⟩ := Except.exists_of_mapError_eq_error hkind
  exact ⟨by decide +kernel, by decide +kernel, e, t, m', hrun, hmismatch, hwritten⟩

end Session

end ArtifactPatch
