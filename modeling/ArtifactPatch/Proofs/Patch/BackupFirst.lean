/-
  ArtifactPatch.Proofs.Patch.BackupFirst
  ──────────────────────────────────────
  **A PATCHED ARTIFACT CAN BE RESTORED.**

  Whenever rules are applied with success, the artifact has a backup right
  afterwards and can be taken back, unless a directory stands in the backup
  slot: looking for something in the slot finds the directory, and looking for
  a backup does not (`restorable_iff`).
-/
import ArtifactPatch.Proofs.Patch.Applied

namespace ArtifactPatch

namespace Store

variable {s : Store} {name : String} {m m₁ m' : Machine} {dir : Location} {file : String}
  {bytes : ByteArray} {mode : Mode} {rules : List Rule} {plan : Plan} {raw : Text}
  {text : ArtifactText}

/-- What the slot looks like after rules were applied. -/
theorem Applied.slot_stat (h : Applied name rules m dir file bytes mode plan m₁ raw text m')
    (hfinds : s.Finds name m dir file bytes mode) :
    (∃ mode', m.stat (.ofLocation (dir ++ [slotName file])) = .ok ⟨.directory, mode'⟩ ∧
      ∃ mode', m'.stat (.ofLocation (dir ++ [slotName file])) = .ok ⟨.directory, mode'⟩) ∨
    (∀ mode', m.stat (.ofLocation (dir ++ [slotName file])) ≠ .ok ⟨.directory, mode'⟩) ∧
      ∃ mode', m'.stat (.ofLocation (dir ++ [slotName file])) = .ok ⟨.file, mode'⟩ := by
  have hbefore := h.backed.finds hfinds
  have hkeep := h.written.persists_of_file hbefore.hasFile.node
  cases h.backed with
  | @present st hst =>
      -- writing the artifact does not change what is seen in the slot
      rcases Machine.kind_of_stat hst with hfile | hdirectory
      · rw [hfile] at hst
        refine .inr ⟨?_, Machine.stat_persists rfl hkeep hst⟩
        intro mode' hdirectory
        rw [hst] at hdirectory
        cases hdirectory
      · rw [hdirectory] at hst
        exact .inl ⟨_, hst, Machine.stat_persists rfl hkeep hst⟩
  | created hfree htakes hreplaced =>
      have hslot : m₁.HasFile dir (slotName file) bytes mode :=
        ⟨hbefore.hasFile.folder, ⟨slotName_ne_dot file, slotName_ne_dots file, htakes.short⟩,
          hreplaced.get?_self⟩
      have hstat := hslot.stat (Route.spells_ofLocation _) htakes.text
      exact .inr ⟨fun mode' => hfree _, Machine.stat_persists rfl hkeep hstat⟩

/-- A backup that is seen can be copied back, and the slot can be freed. -/
theorem Finds.takeBack_of_stat (h : s.Finds name m dir file bytes mode)
    (hwritable : m.Writable dir file) {mode' : Mode}
    (hslot : m.stat (.ofLocation (dir ++ [slotName file])) = .ok ⟨.file, mode'⟩)
    (keepBackup : Bool) : ∃ detail kept,
      ((s.takeBack name keepBackup).exec m).1 = .ok (.restored detail kept) := by
  have hensures : Attempt.Ensures Call.Sturdy (fun _ => True) (s.takeBack name keepBackup)
      (fun outcome _ => ∃ detail kept, outcome = .restored detail kept) (fun _ _ => False) m :=
    h.takeBack_ensures_of_stat hwritable hslot (fun _ _ _ _ _ _ => ⟨_, _, rfl⟩)
      fun _ _ _ _ _ _ => ⟨_, _, rfl⟩
  obtain ⟨outcome, m', hexec, detail, kept, rfl⟩ := hensures.exec_succeeds
  exact ⟨detail, kept, by rw [hexec]⟩

/-- Whether there is a backup is whether the slot shows a file. -/
theorem Finds.exec_hasBackup (h : s.Finds name m dir file bytes mode) {kind : NodeKind}
    {mode' : Mode} (hslot : m.stat (.ofLocation (dir ++ [slotName file])) = .ok ⟨kind, mode'⟩) :
    ((s.hasBackup name).exec m).1 = .ok (decide (kind = .file)) := by
  have hensures : Attempt.Ensures Call.Sturdy (fun _ => True) (s.hasBackup name)
      (fun has _ => has = decide (kind = .file)) (fun _ _ => False) m := by
    refine h.hasBackup_ensures trivial ?_ ?_ fun hfrail => (Call.not_sturdy hfrail).elim
    · intro mode₁ hfile
      rw [slotOf_concat, hslot] at hfile
      cases hfile
      rfl
    · intro hno
      have hother := hno.resolve_left id
      rw [slotOf_concat] at hother
      refine (decide_eq_false fun hkind => ?_).symm
      subst hkind
      exact hother mode' hslot
  obtain ⟨has, m', hexec, rfl⟩ := hensures.exec_succeeds
  rw [hexec]

/-- **A patched artifact can be restored, unless a directory is in the way of
its backup.** -/
theorem restorable_iff (happly : (s.applyRules name rules).exec m = (.ok plan, m')) :
    (((s.hasBackup name).exec m').1 = .ok true ∧ ∀ keepBackup, ∃ detail kept,
      ((s.takeBack name keepBackup).exec m').1 = .ok (.restored detail kept)) ↔
    ¬∃ live mode, ((s.resolve name).exec m).1 = .ok live ∧
      m.stat (.ofLocation (slotOf live)) = .ok ⟨.directory, mode⟩ := by
  obtain ⟨dir, file, bytes, mode, m₁, raw, text, hfinds, happlied⟩ := applied_of_exec happly
  have hafter := happlied.finds hfinds
  -- the artifact resolves to the place where it was found, and to no other
  have hresolve (l : Location) : ((s.resolve name).exec m).1 = .ok l ↔ l = dir ++ [file] := by
    constructor
    · intro hl
      obtain ⟨-, dir', file', bytes', mode', rfl, hfinds'⟩ :=
        exec_resolve_eq_ok_iff.1 (Prod.ext hl rfl)
      obtain ⟨rfl, rfl, -, -⟩ := hfinds.unique hfinds'
      rfl
    · intro hl
      rw [exec_resolve_eq_ok_iff.2 ⟨rfl, dir, file, bytes, mode, hl, hfinds⟩]
  rcases happlied.slot_stat hfinds with ⟨mode₁, hbefore, mode₂, hnow⟩ | ⟨hbefore, mode₂, hnow⟩
  · -- a directory is no backup
    have hnone := hafter.exec_hasBackup hnow
    constructor
    · intro h
      rw [hnone] at h
      exact absurd h.1 (by decide)
    · intro h
      refine absurd ⟨dir ++ [file], mode₁, (hresolve _).2 rfl, ?_⟩ h
      rw [slotOf_concat]
      exact hbefore
  · -- a file is one, whether it was there or has been made
    have hsome := hafter.exec_hasBackup hnow
    constructor
    · intro _ h
      obtain ⟨live, mode', hlive, hdirectory⟩ := h
      obtain rfl := (hresolve live).1 hlive
      rw [slotOf_concat] at hdirectory
      exact hbefore mode' hdirectory
    · intro _
      exact ⟨hsome, hafter.takeBack_of_stat (happlied.writable_after hfinds) hnow⟩

/-- With nothing in the slot, the small package can be restored. -/
theorem restorable_sample : ∃ plan m',
    (samplePackage.applyRules "cli" [sampleRule]).exec (sampleDisk []) = (.ok plan, m') ∧
      ∃ detail kept, ((samplePackage.takeBack "cli" false).exec m').1
        = .ok (.restored detail kept) := by
  have hok : ((samplePackage.applyRules "cli" [sampleRule]).exec (sampleDisk [])).1.isOk
      = true := by decide +kernel
  have hresolve : ((samplePackage.resolve "cli").exec (sampleDisk [])).1
      = .ok ["pkg", "cli.js"] := by decide +kernel
  have hslot : slotOf ["pkg", "cli.js"] = ["pkg", "cli.js.bak"] := by decide +kernel
  have hnone : (sampleDisk []).stat (.ofLocation ["pkg", "cli.js.bak"]) = .error .notFound := by
    decide +kernel
  cases hrun : (samplePackage.applyRules "cli" [sampleRule]).exec (sampleDisk []) with
  | mk r m' =>
      rw [hrun] at hok
      cases r with
      | error e => cases hok
      | ok plan =>
          refine ⟨plan, m', rfl, ((restorable_iff hrun).2 ?_).2 false⟩
          intro h
          obtain ⟨live, mode, hlive, hstat⟩ := h
          rw [hresolve] at hlive
          obtain rfl := Except.ok.inj hlive
          rw [hslot, hnone] at hstat
          cases hstat

/-- A directory in the slot passes for a backup when the artifact is patched, and
not when it is to be restored. -/
theorem patched_without_backup : ∃ plan m',
    (samplePackage.applyRules "cli" [sampleRule]).exec (sampleDisk [.directory 0o755])
      = (.ok plan, m') ∧
      m'.tree.get? ["pkg", "cli.js"] = some (.file (Text.encode "guard(a);".toList) 0o644) ∧
      ((samplePackage.hasBackup "cli").exec m').1 = .ok false ∧
      ((samplePackage.takeBack "cli" false).exec m').1
        = .ok (.noBackup "cli" "/pkg/cli.js.bak") := by
  have hok : ((samplePackage.applyRules "cli" [sampleRule]).exec
      (sampleDisk [.directory 0o755])).1.isOk = true := by decide +kernel
  have hpatched : ((samplePackage.applyRules "cli" [sampleRule]).exec
      (sampleDisk [.directory 0o755])).2.tree.get? ["pkg", "cli.js"]
        = some (.file (Text.encode "guard(a);".toList) 0o644) := by decide +kernel
  have hnone : ((samplePackage.hasBackup "cli").exec ((samplePackage.applyRules "cli"
      [sampleRule]).exec (sampleDisk [.directory 0o755])).2).1 = .ok false := by decide +kernel
  have hlost : ((samplePackage.takeBack "cli" false).exec ((samplePackage.applyRules "cli"
      [sampleRule]).exec (sampleDisk [.directory 0o755])).2).1
        = .ok (.noBackup "cli" "/pkg/cli.js.bak") := by decide +kernel
  cases hrun : (samplePackage.applyRules "cli" [sampleRule]).exec (sampleDisk [.directory 0o755]) with
  | mk r m' =>
      rw [hrun] at hok hpatched hnone hlost
      cases r with
      | error e => cases hok
      | ok plan => exact ⟨plan, m', rfl, hpatched, hnone, hlost⟩

end Store

end ArtifactPatch
