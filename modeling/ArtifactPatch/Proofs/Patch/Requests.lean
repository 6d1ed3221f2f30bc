/-
  ArtifactPatch.Proofs.Patch.Requests
  ───────────────────────────────────
  **WHAT REQUESTS DO, STEP BY STEP.**

  Planning reads; applying backs up, plans and writes; taking back restores
  and frees the slot.  Each rule passes through the rules of the store's
  operations and leaves the invariant and the postcondition open.
-/
import ArtifactPatch.Patch.Apply
import ArtifactPatch.Patch.Restore
import ArtifactPatch.Proofs.Store.Operations

namespace ArtifactPatch

namespace Store

/-! ## §1. Rules. -/

section

variable {s : Store} {name : String} {m : Machine} {dir : Location} {file : String}
  {frail : Call → Prop}

/-- Planning reads the artifact. -/
theorem Finds.plan_ensures {bytes : ByteArray} {mode : Mode} {I : Machine → Prop}
    {Q : Plan → Machine → Prop} {E : PatchError → Machine → Prop} {rules : List Rule}
    (h : s.Finds name m dir file bytes mode) (hm : I m)
    (hok : ∀ raw plan, Text.decode? bytes = some raw →
      Plan.ofText name (.ofRaw raw) rules = .ok plan → Q plan m)
    (hrefused : ∀ raw e, Text.decode? bytes = some raw →
      Plan.ofText name (.ofRaw raw) rules = .error e → E e m)
    (herr : (∃ c, frail c) ∨ Text.decode? bytes = none → ∀ e, E (.store e) m) :
    Attempt.Ensures frail I (s.plan name rules) Q E m := by
  refine Attempt.ensures_bind (Attempt.ensures_mapError (h.read_ensures hm ?_ herr))
  intro raw hdecode
  exact Attempt.ensures_ofExcept (fun plan hplan => hok raw plan hdecode hplan)
    fun e hplan => hrefused raw e hdecode hplan

theorem onlyAsks_plan (s : Store) (name : String) (rules : List Rule) :
    Attempt.OnlyAsks (s.plan name rules) :=
  ((s.onlyAsks_read name).mapError _).bind fun _ => Attempt.onlyAsks_ofExcept _

theorem onlyAsks_verify (s : Store) (name : String) (es : List Expectation) :
    Attempt.OnlyAsks (s.verify name es) :=
  (s.onlyAsks_read name).bind fun _ => Attempt.onlyAsks_pure _

/-- What applying does behind a backup: plan, and write a complete plan. -/
def planAndWrite (s : Store) (name : String) (rules : List Rule) (o : BackupOutcome) :
    Attempt PatchError Plan := do
  let p ← s.plan name rules
  let p := { p with backup := some o }
  match p.content with
  | none => throw (.mismatch name p.failures)
  | some text =>
      Attempt.mapError .store (s.write name text)
      return p

theorem applyRules_eq (s : Store) (name : String) (rules : List Rule) :
    s.applyRules name rules = (do
      let o ← Attempt.mapError .store (s.backup name)
      s.planAndWrite name rules o) := rfl

/-- Behind a backup, the plan for the artifact as it stands is written, or falls
short and nothing is written. -/
theorem Finds.planAndWrite_ensures {bytes : ByteArray} {mode : Mode} {I : Machine → Prop}
    {Q : Plan → Machine → Prop} {E : PatchError → Machine → Prop} {rules : List Rule}
    {o : BackupOutcome} (h : s.Finds name m dir file bytes mode)
    (hI : ∀ n m', m.Aside (dir ++ [tempName n]) m' → I m')
    (hok : ∀ raw plan text m', Text.decode? bytes = some raw →
      Plan.ofText name (.ofRaw raw) rules = .ok plan → plan.content = some text →
      m.Writable dir file → m.Replaced (dir ++ [file]) (Text.encode text.toRaw) mode m' →
      I m' ∧ Q { plan with backup := some o } m')
    (hshort : ∀ raw plan, Text.decode? bytes = some raw →
      Plan.ofText name (.ofRaw raw) rules = .ok plan → plan.content = none →
      E (.mismatch name plan.failures) m)
    (hrefused : ∀ raw e, Text.decode? bytes = some raw →
      Plan.ofText name (.ofRaw raw) rules = .error e → E e m)
    (herr : ∀ e n m', (∃ c, frail c) ∨ e.OfDisk ∧ ¬m.Writable dir file ∨
        Text.decode? bytes = none →
      m.GivenUp frail dir (tempName n) m' → E (.store e) m') :
    Attempt.Ensures frail I (s.planAndWrite name rules o) Q E m := by
  -- until the write, the state stays the same
  obtain ⟨n, hrefl⟩ := m.exists_givenUp_refl frail dir
  unfold planAndWrite
  refine Attempt.ensures_bind (h.plan_ensures (hI n m hrefl.aside) ?_ hrefused ?_)
  · intro raw plan hdecode hplan
    dsimp only
    split
    next hcontent => exact hshort raw plan hdecode hplan hcontent
    next text hcontent =>
      refine Attempt.ensures_bind (Attempt.ensures_mapError (h.write_ensures hI ?_ ?_))
      · intro m' hwritable hreplaced
        exact hok raw plan text m' hdecode hplan hcontent hwritable hreplaced
      · intro e n m' hfail hgivenUp
        exact herr e n m' (hfail.imp_right .inl) hgivenUp
  · intro hfail e
    exact herr e n m (hfail.imp_right .inr) hrefl

/-- Where an artifact may be found in its own slot, behind a backup, the plan is
written there or where the artifact was. -/
theorem FoundNear.planAndWrite_ensures {bytes : ByteArray} {mode : Mode} {I : Machine → Prop}
    {Q : Plan → Machine → Prop} {E : PatchError → Machine → Prop} {rules : List Rule}
    {o : BackupOutcome} (h : FoundNear s name dir file bytes mode m)
    (hI : ∀ n m', m.Aside (dir ++ [tempName n]) m' → I m')
    (hok : ∀ place raw plan text m', place = file ∨ place = slotName file →
      s.Finds name m dir place bytes mode → Text.decode? bytes = some raw →
      Plan.ofText name (.ofRaw raw) rules = .ok plan → plan.content = some text →
      m.Replaced (dir ++ [place]) (Text.encode text.toRaw) mode m' →
      I m' ∧ Q { plan with backup := some o } m')
    (herr : ∀ e n m', m.GivenUp frail dir (tempName n) m' → E e m') :
    Attempt.Ensures frail I (s.planAndWrite name rules o) Q E m := by
  obtain ⟨n, hrefl⟩ := m.exists_givenUp_refl frail dir
  by_cases hfound : ∃ dir' place bytes' mode', s.Finds name m dir' place bytes' mode'
  · obtain ⟨dir', place, bytes', mode', hfinds⟩ := hfound
    obtain ⟨rfl, hplace, rfl, rfl⟩ := h _ _ _ _ hfinds
    refine hfinds.planAndWrite_ensures hI ?_ ?_ ?_ ?_
    · intro raw plan text m' hdecode hplan hcontent _ hreplaced
      exact hok place raw plan text m' hplace hfinds hdecode hplan hcontent hreplaced
    · intro _ plan _ _ _
      exact herr _ n m hrefl
    · intro _ e _ _
      exact herr e n m hrefl
    · intro e n m' _ hgivenUp
      exact herr _ n m' hgivenUp
  · -- an artifact that is not found cannot be read
    have hread : Attempt.Ensures frail I (s.readRaw name) (fun _ _ => False)
        (fun _ m' => m' = m) m :=
      resolve_bind_ensures (hI n m hrefl.aside) fun dir' place bytes' mode' hfinds =>
        hfound ⟨dir', place, bytes', mode', hfinds⟩
    refine Attempt.ensures_bind (Attempt.ensures_bind (Attempt.ensures_mapError
      (Attempt.ensures_bind (hread.mono (fun _ _ h => h.elim) ?_))))
    intro e m' hm'
    rw [hm']
    exact herr _ n m hrefl

/-- Where there is no artifact, nothing is done. -/
theorem applyRules_ensures_of_not_finds {I : Machine → Prop} {rules : List Rule} (hm : I m)
    (hnot : ∀ dir file bytes mode, ¬s.Finds name m dir file bytes mode) :
    Attempt.Ensures frail I (s.applyRules name rules) (fun _ _ => False)
      (fun _ m' => m' = m) m := by
  rw [applyRules_eq]
  refine Attempt.ensures_bind (Attempt.ensures_mapError (Attempt.ensures_bind
    (resolve_ensures hm ?_ fun _ _ => rfl)))
  intro dir file bytes mode hfinds
  exact (hnot dir file bytes mode hfinds).elim

/-- A success has found the artifact. -/
theorem finds_of_ends_ok {rules : List Rule} {plan : Plan} {m' : Machine}
    (hends : Procedure.Ends frail (ExceptT.run (s.applyRules name rules)) m (.ok plan) m') :
    ∃ dir file bytes mode, s.Finds name m dir file bytes mode := by
  by_contra hnone
  have hensures : Attempt.Ensures frail (fun _ => True) (s.applyRules name rules)
      (fun _ _ => False) (fun _ m' => m' = m) m :=
    applyRules_ensures_of_not_finds trivial fun dir file bytes mode hfinds =>
      hnone ⟨dir, file, bytes, mode, hfinds⟩
  exact hensures.ends_ok hends

/-- Where the look at the slot fails, applying goes on as if nothing stood there. -/
theorem applyRules_ends_of_frail {rules : List Rule} {l : Location} {o : BackupOutcome}
    {r : Except PatchError Plan} {m₁ m' : Machine} (hresolve : ((s.resolve name).exec m).1 = .ok l)
    (hfrail : frail (.stat (.ofLocation (slotOf l)))) (hcopy : (saveCopy l).exec m = (.ok o, m₁))
    (hrest : (s.planAndWrite name rules o).exec m₁ = (r, m')) :
    Procedure.Ends frail (ExceptT.run (s.applyRules name rules)) m r m' := by
  have hbackup := backup_ends_of_frail hresolve hfrail hcopy
  rw [applyRules_eq]
  exact Attempt.ends_bind (Attempt.ends_mapError hbackup) (Attempt.ends_of_exec frail hrest)

/-- Taking a patch back restores, and then frees the slot if the backup is not
to be kept. -/
theorem takeBack_ensures {I : Machine → Prop} {Q : RestoreOutcome → Machine → Prop}
    {E : PatchError → Machine → Prop} {keepBackup : Bool}
    (h : Attempt.Ensures frail I (s.restore name) (fun detail m₁ =>
        (keepBackup = true → Q (.restored detail true) m₁) ∧
        (keepBackup = false → Attempt.Ensures frail I (s.discardBackup name)
          (fun removed m' => Q (.restored detail (!removed)) m') (fun e m' => E (.store e) m') m₁))
      (fun e m' => match e with
        | .noBackup artifact path => Q (.noBackup artifact path) m'
        | e => E (.store e) m') m) :
    Attempt.Ensures frail I (s.takeBack name keepBackup) Q E m := by
  refine Attempt.ensures_bind (Attempt.ensures_lift_run (h.mono ?_ ?_))
  · intro detail m₁ hdone
    cases keepBackup with
    | true => exact hdone.1 rfl
    | false => exact Attempt.ensures_bind (Attempt.ensures_mapError (hdone.2 rfl))
  · intro e m' hfailed
    cases e with
    | noBackup artifact path => exact hfailed
    | _ => exact hfailed

/-- A backup that is seen can be copied back, and its slot can be freed. -/
theorem Finds.takeBack_ensures_of_stat {bytes : ByteArray} {mode mode' : Mode}
    {Q : RestoreOutcome → Machine → Prop} {keepBackup : Bool}
    (h : s.Finds name m dir file bytes mode) (hwritable : m.Writable dir file)
    (hseen : m.stat (.ofLocation (dir ++ [slotName file])) = .ok ⟨.file, mode'⟩)
    (hkept : ∀ saved detail m₁, m.read (.ofLocation (dir ++ [slotName file])) = .ok saved →
      m.Replaced (dir ++ [file]) saved mode m₁ → keepBackup = true → Q (.restored detail true) m₁)
    (hfreed : ∀ saved detail m₁, m.read (.ofLocation (dir ++ [slotName file])) = .ok saved →
      m.Replaced (dir ++ [file]) saved mode m₁ → keepBackup = false →
      Q (.restored detail false) (m₁.withTree (m₁.tree.erase (dir ++ [slotName file])))) :
    Attempt.Ensures Call.Sturdy (fun _ => True) (s.takeBack name keepBackup) Q
      (fun _ _ => False) m := by
  refine takeBack_ensures (h.restore_ensures (fun _ _ _ => trivial) ?_ ?_)
  · intro saved m₁ hread _ hreplaced
    rw [slotOf_concat] at hread
    refine ⟨trivial, hkept saved _ m₁ hread hreplaced, fun hkeep => ?_⟩
    have hafter := h.replaced hreplaced
    -- the slot still shows a file, so it can be freed
    obtain ⟨mode₁, hseen₁⟩ := Machine.stat_persists rfl
      (hreplaced.persists_of_file h.hasFile.node) hseen
    obtain ⟨m₂, hremove⟩ := Machine.remove_of_stat_file hafter.hasFile.folder
      (slotName_ne_dot file) (slotName_ne_dots file) hseen₁
    have hremoved : ¬((∃ c, Call.Sturdy c) ∨
        ∃ e, m₁.remove (.ofLocation (slotOf (dir ++ [file]))) = .error e) := by
      intro hfail
      rcases hfail with hfrail | ⟨e, herror⟩
      · exact Call.not_sturdy hfrail
      · rw [slotOf_concat, hremove] at herror
        cases herror
    refine hafter.discardBackup_ensures trivial ⟨trivial, ?_⟩
      (fun hfail => absurd hfail hremoved) fun hfail => absurd hfail hremoved
    rw [slotOf_concat]
    exact hfreed saved _ m₁ hread hreplaced hkeep
  · intro hfail
    rw [slotOf_concat] at hfail
    rcases hfail with hfrail | hnot | hunseen
    · exact (Call.not_sturdy hfrail).elim
    · exact absurd hwritable hnot
    · exact absurd hseen (hunseen mode')

/-- Where there is no artifact, there is nothing to take back. -/
theorem takeBack_ensures_of_not_finds {I : Machine → Prop} {Q : RestoreOutcome → Machine → Prop}
    {E : PatchError → Machine → Prop} {keepBackup : Bool} (hm : I m)
    (hnot : ∀ dir file bytes mode, ¬s.Finds name m dir file bytes mode)
    (hnone : ∀ artifact path, Q (.noBackup artifact path) m) (herr : ∀ e, E e m) :
    Attempt.Ensures frail I (s.takeBack name keepBackup) Q E m := by
  have hresolve : Attempt.Ensures frail I (s.restore name) (fun _ _ => False)
      (fun _ m' => m' = m) m := resolve_bind_ensures hm hnot
  refine takeBack_ensures (hresolve.mono (fun _ _ h => h.elim) ?_)
  intro e m' hm'
  obtain rfl := hm'
  cases e with
  | noBackup artifact path => exact hnone artifact path
  | _ => exact herr _

end

/-! ## §2. A small package. -/

/-- A package with one artifact. -/
def samplePackage : Store :=
  ⟨⟨["pkg"]⟩, [⟨"cli", "cli.js"⟩]⟩

/-- The package on a disk, with whatever stands in the backup slot. -/
def sampleDisk (slot : List Node) : Machine :=
  ⟨⟨[(["pkg"], .directory 0o755), (["pkg", "cli.js"], .file (Text.encode "call(a);".toList) 0o644)]
    ++ slot.map fun n => (["pkg", "cli.js.bak"], n)⟩, []⟩

/-- Of the calls on the small package, only the look at the slot may fail. -/
def sampleBlindness : Call → Prop :=
  (· = .stat (.ofLocation ["pkg", "cli.js.bak"]))

/-- A rule that puts a guard around every call. -/
def sampleRule : Rule where
  id := "guard"
  pattern := ⟨[.literal "call(".toList, .placeholder "A", .literal ")".toList], by decide, by decide⟩
  template := ⟨[.literal "guard(".toList, .placeholder "A", .literal ")".toList]⟩
  min := 1
  max := none
  same_placeholders := by decide
  not_noOp := by decide
  one_le_min := Nat.one_pos

end Store

end ArtifactPatch
