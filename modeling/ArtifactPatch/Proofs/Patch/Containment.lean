/-
  ArtifactPatch.Proofs.Patch.Containment
  ──────────────────────────────────────
  **WHAT AN OPERATION LEAVES OF THE TREE AROUND AN ARTIFACT.**

  `Confined` bounds what an operation touches on its way; here it has ended.
  Then no temporary file is left, so all but the artifact and its slot is as it
  was, the artifact has its permission bits, and so has whatever is new in the
  slot (`Contained`).  Both places lie below the package root by name
  (`isWithin_slotOf`), whatever the artifact's path looks like: it is resolved
  free of links before the root is compared with it.  Main result:
  `changes_contained`.
-/
import ArtifactPatch.Proofs.Patch.Isolation

namespace ArtifactPatch

/-! ## §1. Below the root. -/

/-- Beside a file below a directory there is nothing outside it. -/
theorem Location.isWithin_concat {root dir : Location} {file : String} (other : String)
    (h : isWithin root (dir ++ [file]) = true) (hne : root ≠ dir ++ [file]) :
    isWithin root (dir ++ [other]) = true := by
  unfold isWithin at h ⊢
  rw [List.isPrefixOf_iff_prefix] at h ⊢
  have hdir : root <+: dir := (List.prefix_concat_iff.1 h).resolve_left hne
  exact hdir.trans (List.prefix_append dir [other])

namespace Store

variable {s : Store} {name : String} {m m₁ m' : Machine} {dir : Location} {file : String}
  {bytes : ByteArray} {mode : Mode} {frail : Call → Prop}

/-- **The slot of an artifact is below the root**, as the artifact is. -/
theorem Finds.isWithin_slotOf (h : s.Finds name m dir file bytes mode)
    (hroot : ∃ mode, m.tree.get? s.root = some (.directory mode)) :
    Location.isWithin s.root (slotOf (dir ++ [file])) = true := by
  rw [slotOf_concat]
  refine Location.isWithin_concat _ h.within fun heq => ?_
  -- a root that is a directory is no artifact
  obtain ⟨mode', hroot⟩ := hroot
  rw [heq, h.hasFile.node] at hroot
  cases hroot

/-! ## §2. Trees that differ at an artifact and in its slot. -/

/-- All but the artifact and its slot is as it was, the artifact has its
permission bits, and so has what is new in the slot. -/
structure Contained (dir : Location) (file : String) (mode : Mode) (m m' : Machine) : Prop where
  others : ∀ k, k ≠ dir ++ [file] → k ≠ dir ++ [slotName file] → m'.tree.get? k = m.tree.get? k
  live : ∃ bytes, m'.tree.get? (dir ++ [file]) = some (.file bytes mode)
  slot : m'.tree.get? (dir ++ [slotName file]) = m.tree.get? (dir ++ [slotName file]) ∨
    m'.tree.get? (dir ++ [slotName file]) = none ∨
      ∃ bytes, m'.tree.get? (dir ++ [slotName file]) = some (.file bytes mode)

theorem Finds.contained (h : s.Finds name m dir file bytes mode) : Contained dir file mode m m :=
  ⟨fun _ _ _ => rfl, ⟨bytes, h.hasFile.node⟩, .inl rfl⟩

namespace Contained

/-- A tree that looks the same will do. -/
theorem congr (h : Contained dir file mode m m₁) (hsame : ∀ k, m'.tree.get? k = m₁.tree.get? k) :
    Contained dir file mode m m' := by
  refine ⟨fun k hlive hslot => (hsame k).trans (h.others k hlive hslot), ?_, ?_⟩
  · rw [hsame]
    exact h.live
  · rw [hsame]
    exact h.slot

/-- Writing the artifact, or its slot, with its permission bits. -/
theorem replaced {place : String} (h : Contained dir file mode m m₁)
    (hplace : place = file ∨ place = slotName file)
    (hreplaced : m₁.Replaced (dir ++ [place]) bytes mode m') : Contained dir file mode m m' := by
  rcases hplace with rfl | rfl
  · refine ⟨fun k hlive hslot => ?_, ⟨bytes, hreplaced.get?_self⟩, ?_⟩
    · rw [hreplaced.get?_of_ne hlive]
      exact h.others k hlive hslot
    · rw [hreplaced.get?_of_ne (place_ne_slot dir place).symm]
      exact h.slot
  · refine ⟨fun k hlive hslot => ?_, ?_, .inr (.inr ⟨bytes, hreplaced.get?_self⟩)⟩
    · rw [hreplaced.get?_of_ne hslot]
      exact h.others k hlive hslot
    · rw [hreplaced.get?_of_ne (place_ne_slot dir file)]
      exact h.live

/-- Freeing the slot. -/
theorem freed (h : Contained dir file mode m m₁) :
    Contained dir file mode m (m₁.withTree (m₁.tree.erase (dir ++ [slotName file]))) := by
  have hget (k : Location) : (m₁.tree.erase (dir ++ [slotName file])).get? k
      = if k = dir ++ [slotName file] then none else m₁.tree.get? k := Tree.get?_erase (by simp) k
  refine ⟨fun k hlive hslot => ?_, ?_, .inr (.inl ?_)⟩
  · show (m₁.tree.erase _).get? k = _
    rw [hget, if_neg hslot]
    exact h.others k hlive hslot
  · obtain ⟨bytes, hlive⟩ := h.live
    refine ⟨bytes, ?_⟩
    show (m₁.tree.erase _).get? _ = _
    rw [hget, if_neg (place_ne_slot dir file), hlive]
  · show (m₁.tree.erase _).get? _ = none
    rw [hget, if_pos rfl]

end Contained

/-! ## §3. What each operation leaves. -/

/-- Temporary files can be removed. -/
def Tidy (frail : Call → Prop) : Prop :=
  ∀ dir n, ¬frail (.remove ((Route.ofLocation dir).child (tempName n)))

theorem Finds.backup_contained (h : s.Finds name m dir file bytes mode) (htidy : Tidy frail) :
    Attempt.Ensures frail (fun _ => True) (s.backup name)
      (fun _ m₁ => Contained dir file mode m m₁ ∧ FoundNear s name dir file bytes mode m₁)
      (fun _ m' => Contained dir file mode m m') m := by
  refine h.backup_ensures (fun _ _ _ => trivial) (fun _ _ => ⟨h.contained, h.foundNear⟩) ?_ ?_
  · intro _ _ m₁ hcopy
    rw [slotOf_concat] at hcopy
    exact ⟨trivial, h.contained.replaced (.inr rfl) hcopy, h.foundNear_of_copy hcopy⟩
  · intro _ n m' _ hgivenUp
    exact h.contained.congr (hgivenUp.get?_eq (htidy dir n))

theorem Finds.write_contained (h : s.Finds name m dir file bytes mode) (htidy : Tidy frail)
    (text : ArtifactText) :
    Attempt.Ensures frail (fun _ => True) (s.write name text)
      (fun _ m' => Contained dir file mode m m') (fun _ m' => Contained dir file mode m m') m := by
  refine h.write_ensures (fun _ _ _ => trivial) ?_ ?_
  · intro m' _ hreplaced
    exact ⟨trivial, h.contained.replaced (.inl rfl) hreplaced⟩
  · intro _ n m' _ hgivenUp
    exact h.contained.congr (hgivenUp.get?_eq (htidy dir n))

theorem Finds.applyRules_contained (h : s.Finds name m dir file bytes mode) (htidy : Tidy frail)
    (rules : List Rule) :
    Attempt.Ensures frail (fun _ => True) (s.applyRules name rules)
      (fun _ m' => Contained dir file mode m m') (fun _ m' => Contained dir file mode m m') m := by
  rw [applyRules_eq]
  refine Attempt.ensures_bind (Attempt.ensures_mapError ((h.backup_contained htidy).mono ?_
    fun _ _ hcontained => hcontained))
  intro o m₁ hbacked
  obtain ⟨hcontained, hnear⟩ := hbacked
  refine hnear.planAndWrite_ensures (fun _ _ _ => trivial) ?_ ?_
  · intro place _ _ _ m' hplace _ _ _ _ hreplaced
    exact ⟨trivial, hcontained.replaced hplace hreplaced⟩
  · intro _ n m' hgivenUp
    exact hcontained.congr (hgivenUp.get?_eq (htidy dir n))

theorem Finds.restore_contained (h : s.Finds name m dir file bytes mode) (htidy : Tidy frail) :
    Attempt.Ensures frail (fun _ => True) (s.restore name)
      (fun _ m₁ => ∃ saved, m.Replaced (dir ++ [file]) saved mode m₁)
      (fun _ m' => Contained dir file mode m m') m := by
  refine h.restore_ensures (fun _ _ _ => trivial) ?_ ?_
  · intro saved m₁ _ _ hreplaced
    exact ⟨trivial, saved, hreplaced⟩
  · intro _ _ n m' hgivenUp
    exact h.contained.congr (hgivenUp.get?_eq (htidy dir n))

theorem Contained.discardBackup_ensures (h : Contained dir file mode m m₁)
    (hfinds : s.Finds name m₁ dir file bytes mode) :
    Attempt.Ensures frail (fun _ => True) (s.discardBackup name)
      (fun _ m' => Contained dir file mode m m') (fun _ m' => Contained dir file mode m m') m₁ := by
  refine hfinds.discardBackup_ensures trivial ?_ (fun _ => h) fun _ _ => h
  rw [slotOf_concat]
  exact ⟨trivial, h.freed⟩

theorem Finds.takeBack_contained (h : s.Finds name m dir file bytes mode) (htidy : Tidy frail)
    (keepBackup : Bool) :
    Attempt.Ensures frail (fun _ => True) (s.takeBack name keepBackup)
      (fun _ m' => Contained dir file mode m m') (fun _ m' => Contained dir file mode m m') m := by
  refine takeBack_ensures ((h.restore_contained htidy).mono ?_ ?_)
  · intro detail m₁ hreplaced
    obtain ⟨saved, hreplaced⟩ := hreplaced
    have hcontained := h.contained.replaced (.inl rfl) hreplaced
    exact ⟨fun _ => hcontained, fun _ => hcontained.discardBackup_ensures (h.replaced hreplaced)⟩
  · intro e m' hcontained
    cases e with
    | _ => exact hcontained

/-! ## §4. Operations that have ended. -/

/-- The states in which an operation ends, with success or with a failure. -/
def Finishes (s : Store) (name : String) (frail : Call → Prop) (op : Operation)
    (m m' : Machine) : Prop :=
  ∃ answer, (s.procedure name op).Ends frail m answer m'

/-- The end of an operation is one of the states that it goes through. -/
theorem Finishes.performs {op : Operation} (h : s.Finishes name frail op m m') :
    s.Performs name frail op m m' := by
  obtain ⟨answer, hends⟩ := h
  exact hends.passes

/-- **An operation that has ended is contained.** -/
theorem Finds.finishes_contained (h : s.Finds name m dir file bytes mode) (htidy : Tidy frail)
    {op : Operation} (hfinishes : s.Finishes name frail op m m') : Contained dir file mode m m' := by
  cases op with
  | backup =>
      obtain ⟨r, hends⟩ := hfinishes
      exact ((h.backup_contained htidy).mono (fun _ _ hbacked => hbacked.1) fun _ _ he => he).ends_any
        hends
  | write text =>
      obtain ⟨r, hends⟩ := hfinishes
      exact (h.write_contained htidy text).ends_any hends
  | apply rules =>
      obtain ⟨r, hends⟩ := hfinishes
      exact (h.applyRules_contained htidy rules).ends_any hends
  | restore =>
      obtain ⟨r, hends⟩ := hfinishes
      refine ((h.restore_contained htidy).mono (fun _ m₁ hreplaced => ?_) fun _ _ he => he).ends_any
        hends
      obtain ⟨saved, hreplaced⟩ := hreplaced
      exact h.contained.replaced (.inl rfl) hreplaced
  | takeBack keepBackup =>
      obtain ⟨r, hends⟩ := hfinishes
      exact (h.takeBack_contained htidy keepBackup).ends_any hends
  | discardBackup =>
      obtain ⟨r, hends⟩ := hfinishes
      exact (h.contained.discardBackup_ensures h).ends_any hends

/-- A backup that is reported as new is a copy of the artifact. -/
theorem Finds.created_of_ends {slot : Location} (h : s.Finds name m dir file bytes mode)
    (hends : Procedure.Ends frail (ExceptT.run (s.backup name)) m (.ok (.created slot)) m') :
    slot = slotOf (dir ++ [file]) ∧ m'.tree.get? slot = some (.file bytes mode) := by
  have hensures : Attempt.Ensures frail (fun _ => True) (s.backup name) (fun o m' =>
      ∀ slot, o = .created slot → slot = slotOf (dir ++ [file]) ∧
        m'.tree.get? slot = some (.file bytes mode)) (fun _ _ => True) m := by
    refine h.backup_ensures (fun _ _ _ => trivial) ?_ ?_ fun _ _ _ _ _ => trivial
    · intro _ _ slot hslot
      cases hslot
    · intro _ _ m₁ hreplaced
      refine ⟨trivial, fun slot hslot => ?_⟩
      obtain rfl := BackupOutcome.created.inj hslot
      exact ⟨rfl, hreplaced.get?_self⟩
  exact hensures.ends_ok hends slot rfl

/-- What is reported as written is there, with the permission bits of old. -/
theorem Finds.written_of_ends {text : ArtifactText} (h : s.Finds name m dir file bytes mode)
    (hends : Procedure.Ends frail (ExceptT.run (s.write name text)) m (.ok ()) m') :
    m'.tree.get? (dir ++ [file]) = some (.file (Text.encode text.toRaw) mode) := by
  have hensures : Attempt.Ensures frail (fun _ => True) (s.write name text) (fun _ m' =>
      m'.tree.get? (dir ++ [file]) = some (.file (Text.encode text.toRaw) mode))
      (fun _ _ => True) m :=
    h.write_ensures (fun _ _ _ => trivial) (fun _ _ hreplaced => ⟨trivial, hreplaced.get?_self⟩)
      fun _ _ _ _ _ => trivial
  exact hensures.ends_ok hends

/-- **Changes are contained.**  However an artifact's path is written, and
wherever links lead it: where it resolves to no file within the root, an
operation that has ended has done nothing.  Otherwise the file and its slot both
lie below the root, and all else is as it was, with no temporary file left.  The
file is still there, with its permission bits.  The slot is as it was, or free,
or has a file with those permission bits: a backup that is reported as new is a copy
of the artifact, and what is reported as written is there.  Calls may fail, but
temporary files can be removed. -/
theorem changes_contained {op : Operation}
    (hroot : ∃ mode, m.tree.get? s.root = some (.directory mode)) (htidy : Tidy frail)
    (hfinishes : s.Finishes name frail op m m') :
    (∀ live, ((s.resolve name).exec m).1 ≠ .ok live) ∧ m' = m ∨
      ∃ live bytes mode, ((s.resolve name).exec m).1 = .ok live ∧
        m.tree.get? live = some (.file bytes mode) ∧
        Location.isWithin s.root live = true ∧ Location.isWithin s.root (slotOf live) = true ∧
        (∀ k, k ≠ live → k ≠ slotOf live → m'.tree.get? k = m.tree.get? k) ∧
        (∃ bytes', m'.tree.get? live = some (.file bytes' mode)) ∧
        (m'.tree.get? (slotOf live) = m.tree.get? (slotOf live) ∨
          m'.tree.get? (slotOf live) = none ∨
          ∃ bytes', m'.tree.get? (slotOf live) = some (.file bytes' mode)) ∧
        (∀ slot, Procedure.Ends frail (ExceptT.run (s.backup name)) m (.ok (.created slot)) m' →
          slot = slotOf live ∧ m'.tree.get? slot = some (.file bytes mode)) ∧
        ∀ text, Procedure.Ends frail (ExceptT.run (s.write name text)) m (.ok ()) m' →
          m'.tree.get? live = some (.file (Text.encode text.toRaw) mode) := by
  by_cases hfound : ∃ dir file bytes mode, s.Finds name m dir file bytes mode
  · obtain ⟨dir, file, bytes, mode, hfinds⟩ := hfound
    have hcontained := hfinds.finishes_contained htidy hfinishes
    refine .inr ⟨dir ++ [file], bytes, mode, hfinds.exec_resolve, hfinds.hasFile.node, hfinds.within,
      hfinds.isWithin_slotOf hroot, ?_, hcontained.live, ?_, fun _ => hfinds.created_of_ends,
      fun _ => hfinds.written_of_ends⟩
    · rw [slotOf_concat]
      exact hcontained.others
    · rw [slotOf_concat]
      exact hcontained.slot
  · have hnot : ∀ dir file bytes mode, ¬s.Finds name m dir file bytes mode :=
      fun dir file bytes mode hfinds => hfound ⟨dir, file, bytes, mode, hfinds⟩
    refine .inl ⟨fun live hlive => ?_, performs_of_not_finds hnot hfinishes.performs⟩
    obtain ⟨-, dir, file, bytes, mode, -, hfinds⟩ := exec_resolve_eq_ok_iff.1 (Prod.ext hlive rfl)
    exact hnot dir file bytes mode hfinds

/-- A package whose artifact is a link, by a path that leaves the package and
comes back to it. -/
def sampleRoundabout : Store :=
  ⟨⟨["pkg"]⟩, [⟨"cli", "../pkg/main.js"⟩]⟩

/-- The link leads to another file of the package. -/
def sampleRoundaboutDisk : Machine :=
  ⟨⟨[(["pkg"], .directory 0o755), (["pkg", "main.js"], .link "lib/cli.js"),
    (["pkg", "lib"], .directory 0o755),
    (["pkg", "lib", "cli.js"], .file (Text.encode "call(a);".toList) 0o640)]⟩, []⟩

/-- The file is patched where it is, and nothing stands beside the link. -/
theorem changes_contained_sample : ∃ m',
    sampleRoundabout.Finishes "cli" (fun c => ∃ source target, c = .replace source target)
      (.apply [sampleRule]) sampleRoundaboutDisk m' ∧
    m'.tree.get? ["pkg", "main.js"] = some (.link "lib/cli.js") ∧
    m'.tree.get? ["pkg", "main.js.bak"] = none ∧
    (∃ bytes, m'.tree.get? ["pkg", "lib", "cli.js"] = some (.file bytes 0o640)) ∧
    ∃ bytes, m'.tree.get? ["pkg", "lib", "cli.js.bak"] = some (.file bytes 0o640) := by
  have hresolve : ((sampleRoundabout.resolve "cli").exec sampleRoundaboutDisk).1
      = .ok ["pkg", "lib", "cli.js"] := by decide +kernel
  have hslot : ((sampleRoundabout.applyRules "cli" [sampleRule]).exec
      sampleRoundaboutDisk).2.tree.get? ["pkg", "lib", "cli.js.bak"]
        = some (.file (Text.encode "call(a);".toList) 0o640) := by decide +kernel
  have hfinishes : sampleRoundabout.Finishes "cli"
      (fun c => ∃ source target, c = .replace source target) (.apply [sampleRule])
      sampleRoundaboutDisk
      ((sampleRoundabout.applyRules "cli" [sampleRule]).exec sampleRoundaboutDisk).2 :=
    ⟨_, Procedure.ends_run _ _ _⟩
  have htidy : Tidy fun c => ∃ source target, c = .replace source target := by
    intro dir n hfrail
    obtain ⟨source, target, h⟩ := hfrail
    cases h
  refine ⟨_, hfinishes, ?_⟩
  rcases changes_contained ⟨0o755, rfl⟩ htidy hfinishes with ⟨hnone, -⟩ | hsome
  · exact absurd hresolve (hnone _)
  · obtain ⟨live, bytes, mode, hlive, hnode, -, -, hothers, hfile, -⟩ := hsome
    rw [hresolve] at hlive
    obtain rfl := Except.ok.inj hlive
    obtain ⟨-, rfl⟩ := Node.file.inj (Option.some.inj hnode)
    exact ⟨hothers _ (by decide) (by decide), hothers _ (by decide) (by decide), hfile, _, hslot⟩

end Store

end ArtifactPatch
