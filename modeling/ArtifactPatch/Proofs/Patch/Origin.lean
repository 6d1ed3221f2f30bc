/-
  ArtifactPatch.Proofs.Patch.Origin
  ─────────────────────────────────
  **WHERE RESTORED BYTES COME FROM.**

  Restoring reads the backup slot through links, and the guard has only seen
  the artifact.  A slot that is a file lies beside the artifact and so below
  the root; a slot that is a link gives the bytes of whatever file its target
  leads to.  Hence restored bytes come from below the root exactly if no link
  in the slot leads out of it (`restored_within_iff`), and a link that does
  brings foreign bytes in (`restored_from_outside`).
-/
import ArtifactPatch.Proofs.Patch.Containment

namespace ArtifactPatch

namespace Tree

/-- A walk that succeeds also does with more links to spare. -/
theorem Leads.weaken {t : Tree} {links links' : Nat} {here l : Location} {names : List String}
    {directory : Bool} (h : t.Leads links here names directory l) (hle : links ≤ links') :
    t.Leads links' here names directory l := by
  induction h generalizing links' with
  | here links here directory => exact .here links' here directory
  | dot _ ih => exact .dot (ih hle)
  | dots _ ih => exact .dots (ih hle)
  | down hname hnode _ ih => exact .down hname hnode (ih hle)
  | file hname hnode => exact .file hname hnode
  | link hname hnode _ ih =>
      cases links' with
      | zero => omega
      | succ links' => exact .link hname hnode (ih (by omega))

/-- What is no link is reached under its own name. -/
theorem Leads.eq_of_not_link {t : Tree} {links : Nat} {dir l : Location} {name : String}
    (h : t.Leads links dir [name] false l) (hdot : name ≠ ".") (hdots : name ≠ "..")
    (hlink : ∀ target, t.get? (dir ++ [name]) ≠ some (.link target)) : l = dir ++ [name] := by
  cases h with
  | dot => exact absurd rfl hdot
  | dots => exact absurd rfl hdots
  | down _ _ h =>
      cases h
      rfl
  | file => rfl
  | link _ hnode _ => exact absurd hnode (hlink _)

/-- Following a link to a file from the directory where the link stands. -/
theorem locate_of_link {t : Tree} {dir l : Location} {name target : String} {bytes : ByteArray}
    {mode : Mode} (h : t.Leads maxLinks dir [name] false l)
    (hlink : t.get? (dir ++ [name]) = some (.link target)) (hdir : t.IsFolder dir)
    (hfile : t.get? l = some (.file bytes mode)) : t.locate dir true (.ofText target) = .ok l := by
  obtain ⟨links, hleads⟩ : ∃ links, links ≤ maxLinks ∧
      t.Leads links (if (Route.ofText target).absolute then [] else dir)
        (Route.ofText target).names (Route.ofText target).directory l := by
    generalize hlinks : maxLinks = most at h
    cases h with
    | dot h =>
        cases h
        obtain ⟨mode', hfolder⟩ := hdir.get?_eq
        rw [hfile] at hfolder
        cases hfolder
    | dots h =>
        cases h
        obtain ⟨mode', hfolder⟩ := hdir.parent.get?_eq
        rw [hfile] at hfolder
        cases hfolder
    | down _ hnode _ =>
        rw [hlink] at hnode
        cases hnode
    | file _ hnode =>
        rw [hlink] at hnode
        cases hnode
    | @link links _ _ _ _ _ _ _ hnode h =>
        rw [hlink] at hnode
        obtain rfl := Node.link.inj (Option.some.inj hnode)
        rw [List.append_nil, List.isEmpty_nil, Bool.false_or, Bool.true_and] at h
        exact ⟨links, by omega, h⟩
  have hwalk := walk_of_leads (hleads.2.weaken hleads.1)
  -- a target that says nothing would lead to the directory
  have hfull : (Route.ofText target).isEmpty = false := by
    refine Bool.eq_false_iff.2 fun hempty => ?_
    unfold Route.isEmpty at hempty
    rw [Bool.and_eq_true, Bool.not_eq_true', List.isEmpty_iff] at hempty
    rw [hempty.1, hempty.2, walk_nil] at hwalk
    obtain rfl := Spot.node.inj (Except.ok.inj hwalk)
    obtain ⟨mode', hfolder⟩ := hdir.get?_eq
    rw [if_neg Bool.false_ne_true, hfolder] at hfile
    cases hfile
  unfold locate follow
  rw [hfull, if_neg Bool.false_ne_true, hwalk]

end Tree

namespace Store

variable {s : Store} {name : String} {m m' : Machine} {dir : Location} {file : String}
  {bytes : ByteArray} {mode : Mode} {frail : Call → Prop}

/-- What a success of restoring has read, and written. -/
theorem Finds.restored_of_ends {detail : Restored} (h : s.Finds name m dir file bytes mode)
    (hends : Procedure.Ends frail (ExceptT.run (s.restore name)) m (.ok detail) m') :
    ∃ source saved mode',
      m.tree.Leads Tree.maxLinks dir [slotName file] false source ∧
      m.tree.locate m.cwd true (.ofLocation (dir ++ [slotName file])) = .ok source ∧
      m.tree.get? source = some (.file saved mode') ∧
      m'.tree.get? (dir ++ [file]) = some (.file saved mode) := by
  have hensures : Attempt.Ensures frail (fun _ => True) (s.restore name) (fun _ m' => ∃ saved,
      m.read (.ofLocation (slotOf (dir ++ [file]))) = .ok saved ∧
        m'.tree.get? (dir ++ [file]) = some (.file saved mode)) (fun _ _ => True) m :=
    h.restore_ensures (fun _ _ _ => trivial)
      (fun saved _ hread _ hreplaced => ⟨trivial, saved, hread, hreplaced.get?_self⟩)
      fun _ _ _ _ _ => trivial
  obtain ⟨saved, hread, hwritten⟩ := hensures.ends_ok hends
  rw [slotOf_concat] at hread
  obtain ⟨source, mode', hlocate, hnode⟩ := Machine.read_eq_ok_iff.1 hread
  obtain ⟨-, hlocate⟩ := Machine.locate_eq_ok_iff.1 hlocate
  have hspells := Route.spells_ofLocation (dir ++ [slotName file])
  refine ⟨source, saved, mode', ?_, hlocate, hnode, hwritten⟩
  have hleads := (Route.locate_eq_ok_iff_leads hspells.absolute).1 hlocate
  rw [← Tree.walk_eq_node_iff, ← Tree.walk_folder h.hasFile.folder]
  exact Tree.walk_of_leads hleads

/-- **Restored bytes come from below the root exactly if no link in the slot
leads out of it.**  Restoring, on a disk where any call may fail: a success has
read a file that the slot leads to, links followed, and put its bytes in the
place of the artifact.  That file lies below the root by name if the slot is no
link, and otherwise where the target of the link leads from the directory of
the artifact. -/
theorem restored_within_iff {detail : Restored}
    (hroot : ∃ mode, m.tree.get? s.root = some (.directory mode))
    (hends : Procedure.Ends frail (ExceptT.run (s.restore name)) m (.ok detail) m') :
    ∃ live source saved mode mode', ((s.resolve name).exec m).1 = .ok live ∧
      m.tree.locate m.cwd true (.ofLocation (slotOf live)) = .ok source ∧
      m.tree.get? source = some (.file saved mode') ∧
      m'.tree.get? live = some (.file saved mode) ∧
      (Location.isWithin s.root source = true ↔
        ∀ target, m.tree.get? (slotOf live) = some (.link target) →
          ∃ l, m.tree.locate live.parent true (.ofText target) = .ok l ∧
            Location.isWithin s.root l = true) := by
  by_cases hfound : ∃ dir file bytes mode, s.Finds name m dir file bytes mode
  · obtain ⟨dir, file, bytes, mode, hfinds⟩ := hfound
    obtain ⟨source, saved, mode', hleads, hlocate, hnode, hwritten⟩ := hfinds.restored_of_ends hends
    have hwithin := hfinds.isWithin_slotOf hroot
    refine ⟨dir ++ [file], source, saved, mode, mode', hfinds.exec_resolve, ?_, hnode, hwritten, ?_⟩
    · rw [slotOf_concat]
      exact hlocate
    rw [slotOf_concat] at hwithin ⊢
    rw [Location.parent_concat]
    by_cases hlink : ∃ target, m.tree.get? (dir ++ [slotName file]) = some (.link target)
    · -- the bytes come from where the link leads
      obtain ⟨target, hlink⟩ := hlink
      have htarget := Tree.locate_of_link hleads hlink hfinds.hasFile.folder hnode
      constructor
      · intro hsource target' hlink'
        rw [hlink] at hlink'
        obtain rfl := Node.link.inj (Option.some.inj hlink')
        exact ⟨source, htarget, hsource⟩
      · intro hall
        obtain ⟨l, hl, hlwithin⟩ := hall target hlink
        rw [htarget] at hl
        obtain rfl := Except.ok.inj hl
        exact hlwithin
    · -- a slot that is no link is the file itself
      have hsource : source = dir ++ [slotName file] :=
        hleads.eq_of_not_link (slotName_ne_dot file) (slotName_ne_dots file)
          fun target htarget => hlink ⟨target, htarget⟩
      rw [hsource]
      exact iff_of_true hwithin fun target htarget => absurd ⟨target, htarget⟩ hlink
  · have hensures : Attempt.Ensures frail (fun _ => True) (s.restore name) (fun _ _ => False)
        (fun _ m' => m' = m) m :=
      resolve_bind_ensures trivial fun dir file bytes mode hfinds =>
        hfound ⟨dir, file, bytes, mode, hfinds⟩
    exact (hensures.ends_ok hends).elim

/-- The small package, with a link in the slot. -/
def sampleLinkedDisk (target : String) : Machine :=
  ⟨⟨[(["pkg"], .directory 0o755), (["pkg", "cli.js"], .file (Text.encode "guard(a);".toList) 0o644),
    (["pkg", "saved.js"], .file (Text.encode "call(a);".toList) 0o600),
    (["pkg", "cli.js.bak"], .link target),
    (["outside.js"], .file (Text.encode "secret".toList) 0o600)]⟩, []⟩

/-- A link to a file beside it is followed, and stays below the root. -/
theorem restored_within_sample : ∃ detail m',
    Procedure.Ends (fun c => ∃ source target, c = .replace source target)
      (ExceptT.run (samplePackage.restore "cli")) (sampleLinkedDisk "saved.js") (.ok detail) m' ∧
    ∃ source saved mode,
      m'.tree.get? ["pkg", "cli.js"] = some (.file saved mode) ∧
      (sampleLinkedDisk "saved.js").tree.locate [] true (.ofLocation ["pkg", "cli.js.bak"])
        = .ok source ∧ Location.isWithin ["pkg"] source = true := by
  have hresolve : ((samplePackage.resolve "cli").exec (sampleLinkedDisk "saved.js")).1
      = .ok ["pkg", "cli.js"] := by decide +kernel
  have hok : ((samplePackage.restore "cli").exec (sampleLinkedDisk "saved.js")).1.isOk = true := by
    decide +kernel
  obtain ⟨detail, m', hrun⟩ := Attempt.exec_of_isOk hok
  have hends := Attempt.ends_of_exec (fun c => ∃ source target, c = .replace source target) hrun
  obtain ⟨live, source, saved, mode, _, hlive, hlocate, -, hwritten, hiff⟩ :=
    restored_within_iff ⟨0o755, rfl⟩ hends
  rw [hresolve] at hlive
  obtain rfl := Except.ok.inj hlive
  refine ⟨detail, m', hends, source, saved, mode, hwritten, hlocate, hiff.2 ?_⟩
  intro target htarget
  obtain rfl := Node.link.inj (Option.some.inj htarget)
  exact ⟨["pkg", "saved.js"], by decide +kernel, by decide⟩

/-- A link that leads out of the package brings in what is there. -/
theorem restored_from_outside : ∃ detail m',
    (samplePackage.restore "cli").exec (sampleLinkedDisk "../outside.js") = (.ok detail, m') ∧
      m'.tree.get? ["pkg", "cli.js"] = some (.file (Text.encode "secret".toList) 0o644) ∧
      (sampleLinkedDisk "../outside.js").tree.locate [] true (.ofLocation ["pkg", "cli.js.bak"])
        = .ok ["outside.js"] ∧
      Location.isWithin samplePackage.root ["outside.js"] = false := by
  have hok : ((samplePackage.restore "cli").exec
      (sampleLinkedDisk "../outside.js")).1.isOk = true := by decide +kernel
  have hwritten : ((samplePackage.restore "cli").exec
      (sampleLinkedDisk "../outside.js")).2.tree.get? ["pkg", "cli.js"]
        = some (.file (Text.encode "secret".toList) 0o644) := by decide +kernel
  obtain ⟨detail, m', hrun⟩ := Attempt.exec_of_isOk hok
  rw [hrun] at hwritten
  exact ⟨detail, m', hrun, hwritten, by decide +kernel, by decide⟩

end Store

end ArtifactPatch
