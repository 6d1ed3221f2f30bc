/-
  ArtifactPatch.Proofs.Disk.WholeWrite
  ────────────────────────────────────
  **A FILE IS WRITTEN AS A WHOLE OR NOT AT ALL.**

  For every tree, every path and whichever calls fail.  The path may have no
  parent, or one that is missing or a file; a link or a directory may stand at
  its end.  A write that fails gives back the machine before; a write that
  succeeds has put the file at the end of the path and changed nothing else; and
  whoever reads the path meanwhile sees what was there before or the new file
  (`Disk.whole_or_unchanged`).  Temporary files are removed when they are given
  up.
-/
import ArtifactPatch.Proofs.Disk.Making

namespace ArtifactPatch

namespace Machine

variable {m : Machine} {directory target : Route} {dir : Location} {name : String}

/-! ## §1. Once the file is written. -/

/-- Where a route ends; a link that stands there is not followed. -/
def EndsAt (m : Machine) (target : Route) (l : Location) : Prop :=
  m.tree.follow m.cwd false target = .ok (.node l) ∨
    ∃ slash, m.tree.follow m.cwd false target = .ok (.vacant l slash)

/-- A file was written as a whole where a route ends.  Whoever reads the route
finds it there, unless it has replaced a link to a directory: the route may lead
through that link. -/
structure Written (m : Machine) (target : Route) (l : Location) (bytes : ByteArray) (mode : Mode)
    (m' : Machine) : Prop where
  ends : m.EndsAt target l
  replaced : m.Replaced l bytes mode m'
  cwd : m'.cwd = m.cwd
  whole : ∀ seen, m'.read target = .ok seen → seen = bytes
  found : ¬m.tree.LinkToDirectory l →
    m'.read target = .ok bytes ∧ m'.stat target = .ok ⟨.file, mode⟩

/-- As long as the directory is reached, the route leads to the file. -/
theorem TakesAt.locate (htakes : m.TakesAt target dir name)
    (htarget : directory.Continues target name) (bytes : ByteArray) (mode : Mode)
    (hleads : (m.withFile (dir ++ [name]) bytes mode).tree.Leads Tree.maxLinks
      (if directory.absolute then [] else m.cwd) directory.names true dir) :
    (m.withFile (dir ++ [name]) bytes mode).locate true target = .ok (dir ++ [name]) := by
  obtain ⟨-, i, hnames⟩ := htarget.of_getLast? htakes.last htakes.plain.ne_dot
  have hnode : (m.withFile (dir ++ [name]) bytes mode).tree.get? (dir ++ [name])
      = some (.file bytes mode) := by rw [get?_withFile (by simp), if_pos rfl]
  exact locate_eq_ok_iff.2 ⟨htakes.text, Route.locate_of_leads hleads hnames htarget.absolute
    htakes.slash htakes.plain hnode true⟩

namespace Opens

theorem endsAt (h : m.Opens directory dir) (htarget : directory.Continues target name)
    (htakes : m.TakesAt target dir name) : m.EndsAt target (dir ++ [name]) := by
  obtain ⟨-, i, hnames⟩ := htarget.of_getLast? htakes.last htakes.plain.ne_dot
  obtain ⟨links, hfollow⟩ := Route.follow_of_leads h.leads hnames htarget.absolute
  unfold EndsAt
  rw [hfollow, htakes.slash, Tree.walk_plain _ _ _ _ _ _ htakes.plain]
  cases hnode : m.tree.get? (dir ++ [name]) with
  | none => exact .inr ⟨false, rfl⟩
  | some n =>
      cases n with
      | directory mode => exact absurd hnode (htakes.free_or_file mode)
      | file | link => exact .inl rfl

/-- **The file that was written** is what the route leads to. -/
theorem written (h : m.Opens directory dir) (htarget : directory.Continues target name)
    (htakes : m.TakesAt target dir name) (bytes : ByteArray) (mode : Mode) :
    m.Written target (dir ++ [name]) bytes mode (m.withFile (dir ++ [name]) bytes mode) := by
  have hne : dir ++ [name] ≠ [] := by simp
  have hnode : (m.withFile (dir ++ [name]) bytes mode).tree.get? (dir ++ [name])
      = some (.file bytes mode) := by rw [get?_withFile hne, if_pos rfl]
  refine ⟨h.endsAt htarget htakes, replaced_withFile hne bytes mode, rfl, ?_, ?_⟩
  · intro seen hread
    obtain ⟨l, mode', hlocate, hseen⟩ := read_eq_ok_iff.1 hread
    -- a route that leads anywhere leads through its directory, which is the one before
    obtain ⟨k, hk⟩ := leads_of_locate htarget hlocate
    have hfiles : m.tree.MakesFiles (m.withFile (dir ++ [name]) bytes mode).tree :=
      Tree.makesFiles_put (.inl ⟨bytes, mode, rfl⟩)
    obtain rfl := h.leads.unique (hk.recedes hfiles nofun)
    rw [htakes.locate htarget bytes mode hk] at hlocate
    obtain rfl := Except.ok.inj hlocate
    rw [hnode] at hseen
    cases hseen
    rfl
  · intro hlink
    have hlocate := htakes.locate htarget bytes mode
      (h.leads.persists_put hne htakes.free_or_file hlink rfl (Nat.le_refl _))
    exact ⟨read_eq_ok_iff.2 ⟨_, mode, hlocate, hnode⟩,
      stat_eq_file_iff.2 ⟨_, bytes, hlocate, hnode⟩⟩

end Opens

/-! ## §2. Until the file is written. -/

/-- The temporary file of a write is not what the path itself leads to.  It could be
only where the path leads nowhere, and by chance: the name that is missing would
have to be the one that the temporary file is given. -/
def TempApart (m : Machine) (path : String) : Prop :=
  ∀ parent r m' l, PathText.parent? path = some parent →
    m.createTemp (.ofText parent) = .ok (r, m') → m'.locate true r = .ok l →
      m'.locate true (.ofText path) ≠ .ok l

theorem TempApart.locate_ne {path parent : String} (hapart : m.TempApart path)
    (hparent : PathText.parent? path = some parent) (h : m.Opens (.ofText parent) dir) :
    (m.withFile (m.tempPlace dir) .empty tempMode).locate true (.ofText path)
      ≠ .ok (m.tempPlace dir) :=
  hapart parent _ _ _ hparent (createTemp_eq_ok_iff.2 ⟨dir, h, rfl, rfl⟩)
    (h.locate .empty tempMode true)

/-- A path that leads anywhere does not lead to a file that is new. -/
theorem tempApart_of_locate {path : String} {l : Location}
    (h : m.locate true (.ofText path) = .ok l) (hnode : m.tree.get? l ≠ none) :
    m.TempApart path := by
  intro parent r m' k hparent hcreate hk hpath
  obtain ⟨name, htarget⟩ := Route.continues_of_parent? hparent
  obtain ⟨dir, hopens, rfl, rfl⟩ := createTemp_eq_ok_iff.1 hcreate
  have hkeep := m.persists_withFile_tempPlace dir .empty tempMode
  rw [locate_persists htarget.isEmpty_eq_false hkeep rfl h] at hpath
  rw [hopens.locate .empty tempMode true] at hk
  rw [Except.ok.inj hpath, ← Except.ok.inj hk] at hnode
  exact hnode (m.get?_tempPlace dir)

/-- What is read at a route while there is a temporary file apart from it. -/
theorem read_withFile_tempPlace (htarget : target.isEmpty = false)
    (hapart : (m.withFile (m.tempPlace dir) .empty tempMode).locate true target
      ≠ .ok (m.tempPlace dir)) (part : ByteArray) (mode : Mode) (seen : ByteArray) :
    (m.withFile (m.tempPlace dir) part mode).read target = .ok seen ↔ m.read target = .ok seen := by
  have hne := m.tempPlace_ne_nil dir
  rw [read_eq_ok_iff, read_eq_ok_iff]
  constructor
  · rintro ⟨l, mode', hlocate, hnode⟩
    rw [get?_withFile hne] at hnode
    by_cases hl : l = m.tempPlace dir
    · -- what is in the temporary file makes no difference to where the route leads
      rw [hl] at hlocate
      have hreplaced : (m.withFile (m.tempPlace dir) part mode).Replaced (m.tempPlace dir) .empty
          tempMode (m.withFile (m.tempPlace dir) .empty tempMode) := by
        rw [← withFile_withFile m (m.tempPlace dir) part .empty mode tempMode]
        exact replaced_withFile hne .empty tempMode
      have hkeep := hreplaced.persists_of_file (m.get?_tempPlace_withFile dir part mode)
      exact absurd (locate_persists htarget hkeep rfl hlocate) hapart
    · rw [if_neg hl] at hnode
      obtain ⟨htext, hleads⟩ := locate_eq_ok_iff.1 hlocate
      rw [Route.locate_eq_ok_iff htarget] at hleads
      have hfiles : m.tree.MakesFiles (m.withFile (m.tempPlace dir) part mode).tree :=
        Tree.makesFiles_put (.inl ⟨part, mode, rfl⟩)
      have hbefore := hleads.recedes hfiles fun _ _ _ _ => ⟨seen, mode', hnode⟩
      have hlocate' := locate_eq_ok_iff.2 ⟨htext, (Route.locate_eq_ok_iff htarget).2 hbefore⟩
      exact ⟨l, mode', hlocate', hnode⟩
  · rintro ⟨l, mode', hlocate, hnode⟩
    have hkeep := m.persists_withFile_tempPlace dir part mode
    refine ⟨l, mode', locate_persists htarget hkeep rfl hlocate, ?_⟩
    rw [get?_withFile hne, if_neg, hnode]
    rintro rfl
    rw [get?_tempPlace] at hnode
    cases hnode

/-- A file can be written at a path. -/
def CanWriteAt (m : Machine) (path : String) : Prop :=
  ∃ parent dir name, PathText.parent? path = some parent ∧ m.Opens (.ofText parent) dir ∧
    m.TakesAt (.ofText path) dir name

end Machine

/-! ## §3. Whole or unchanged. -/

namespace Disk

variable {frail : Call → Prop} {I : Machine → Prop} {m : Machine} {path : String}
  {bytes : ByteArray} {mode : Option Mode}

/-- What holds of a write at a path, from what holds as long as there is a temporary
file, of the file that was written, and of the machine before. -/
theorem atomicWriteAt_ensures (htidy : ∀ r, ¬frail (.remove r)) {Q : Unit → Machine → Prop}
    {E : OsError → Machine → Prop} (hstart : I m)
    (htemp : ∀ parent dir, PathText.parent? path = some parent → m.Opens (.ofText parent) dir →
      ∀ part mode', I (m.withFile (m.tempPlace dir) part mode'))
    (hok : m.CanWriteAt path → ∀ m' l, m.Written (.ofText path) l bytes (mode.getD tempMode) m' →
      I m' ∧ Q () m')
    (herr : (∃ c, frail c ∧ ∀ r, c ≠ .touch r) ∨ ¬m.CanWriteAt path → ∀ e, E e m) :
    Attempt.Ensures frail I (atomicWriteAt path bytes mode) Q E m := by
  unfold atomicWriteAt
  cases hparent : PathText.parent? path with
  | none =>
      -- there is nothing to write to, and no call is made
      refine herr (.inr ?_) .noParent
      rintro ⟨parent, dir, name, hsome, -⟩
      rw [hparent] at hsome
      cases hsome
  | some parent =>
      obtain ⟨name, htarget⟩ := Route.continues_of_parent? hparent
      refine atomicWrite_ensures_at htarget hstart (fun dir => htemp parent dir hparent) ?_ ?_
      · intro dir hopens htakes
        exact hok ⟨parent, dir, name, hparent, hopens, htakes⟩ _ _
          (hopens.written htarget htakes bytes (mode.getD tempMode))
      · intro hfail e m' hundone
        cases hundone with
        | stuck _ hfrail => exact absurd hfrail (htidy _)
        | restored =>
            refine herr (hfail.imp_right ?_) e
            rintro hnot ⟨parent', dir, last, hparent', hopens, htakes⟩
            obtain rfl := Option.some.inj (hparent.symm.trans hparent')
            obtain ⟨rfl, -⟩ := htarget.of_getLast? htakes.last htakes.plain.ne_dot
            exact hnot ⟨dir, hopens, htakes⟩

/-- **A file is written as a whole or not at all**, whichever calls fail.

  * A write that fails leaves the machine as it was, and it fails only where a call
    other than the last fails or no file can be written at the path.
  * A write that succeeds has put the file at the end of the path, with the
    permission bits that were asked for, and has changed nothing else.
  * In every state on the way all that was there still is, beside one file that
    is new, and the path reads as before; or the write is done.

Removing the temporary file is the one call that is taken not to fail. -/
theorem whole_or_unchanged (m : Machine) (path : String) (bytes : ByteArray) (mode : Option Mode)
    (frail : Call → Prop) (htidy : ∀ r, ¬frail (.remove r)) :
    (∀ e m', Procedure.Ends frail (ExceptT.run (atomicWriteAt path bytes mode)) m (.error e) m' →
      m' = m ∧ ((∃ c, frail c ∧ ∀ r, c ≠ .touch r) ∨ ¬m.CanWriteAt path)) ∧
    (∀ m', Procedure.Ends frail (ExceptT.run (atomicWriteAt path bytes mode)) m (.ok ()) m' →
      m.CanWriteAt path ∧ ∃ l, m.Written (.ofText path) l bytes (mode.getD tempMode) m') ∧
    (∀ m', Procedure.Passes frail (ExceptT.run (atomicWriteAt path bytes mode)) m m' →
      (∃ l, m.Aside l m' ∧ (m.TempApart path →
        ∀ seen, m'.read (.ofText path) = .ok seen ↔ m.read (.ofText path) = .ok seen)) ∨
      ∃ l, m.Written (.ofText path) l bytes (mode.getD tempMode) m') := by
  have hfree := m.get?_tempPlace m.cwd
  have hensures : Attempt.Ensures frail
      (fun m' => (∃ l, m.Aside l m' ∧ (m.TempApart path →
          ∀ seen, m'.read (.ofText path) = .ok seen ↔ m.read (.ofText path) = .ok seen)) ∨
        ∃ l, m.Written (.ofText path) l bytes (mode.getD tempMode) m')
      (atomicWriteAt path bytes mode)
      (fun _ m' => m.CanWriteAt path ∧
        ∃ l, m.Written (.ofText path) l bytes (mode.getD tempMode) m')
      (fun _ m' => m' = m ∧ ((∃ c, frail c ∧ ∀ r, c ≠ .touch r) ∨ ¬m.CanWriteAt path)) m := by
    refine atomicWriteAt_ensures htidy (.inl ⟨_, .refl hfree, fun _ _ => Iff.rfl⟩) ?_ ?_ ?_
    · intro parent dir hparent hopens part mode'
      refine .inl ⟨_, (Machine.Aside.refl (m.get?_tempPlace dir)).put _, fun hapart => ?_⟩
      obtain ⟨name, htarget⟩ := Route.continues_of_parent? hparent
      exact Machine.read_withFile_tempPlace htarget.isEmpty_eq_false
        (hapart.locate_ne hparent hopens) part mode'
    · intro hcan m' l hwritten
      exact ⟨.inr ⟨l, hwritten⟩, hcan, l, hwritten⟩
    · intro hcause e
      exact ⟨rfl, hcause⟩
  refine ⟨fun e m' hends => hensures.ends_error hends, fun m' hends => hensures.ends_ok hends, ?_⟩
  intro m' hpasses
  exact Procedure.Ensures.passes hensures (.inl ⟨_, .refl hfree, fun _ _ => Iff.rfl⟩) hpasses

/-- A package in which the tool is a link to another file. -/
def linkedDisk : Machine :=
  ⟨⟨[(["pkg"], .directory 0o755), (["pkg", "real.js"], .file (Text.encode "old".toList) 0o755),
    (["pkg", "cli.js"], .link "real.js")]⟩, ["pkg"]⟩

/-- The link is replaced, though the time of change may fail to be set. -/
theorem whole_or_unchanged_linkedDisk :
    linkedDisk.TempApart "cli.js" ∧ (∀ r, ¬∃ s, Call.remove r = .touch s) ∧
    ∃ m' l, Procedure.Ends (fun c => ∃ s, c = .touch s)
        (ExceptT.run (atomicWriteAt "cli.js" (Text.encode "new".toList) (some 0o644))) linkedDisk
        (.ok ()) m' ∧
      linkedDisk.Written (.ofText "cli.js") l (Text.encode "new".toList) 0o644 m' := by
  have htidy : ∀ r, ¬∃ s, Call.remove r = .touch s := by
    rintro r ⟨s, hs⟩
    cases hs
  have hlocate : linkedDisk.locate true (.ofText "cli.js") = .ok ["pkg", "real.js"] := by
    decide +kernel
  have hnode : linkedDisk.tree.get? ["pkg", "real.js"] ≠ none := by decide +kernel
  refine ⟨Machine.tempApart_of_locate hlocate hnode, htidy, ?_⟩
  obtain ⟨-, hok, -⟩ := whole_or_unchanged linkedDisk "cli.js" (Text.encode "new".toList)
    (some 0o644) (fun c => ∃ s, c = .touch s) htidy
  have hends := Procedure.ends_run (fun c => ∃ s, c = .touch s)
    (ExceptT.run (atomicWriteAt "cli.js" (Text.encode "new".toList) (some 0o644))) linkedDisk
  have hsucceeds : (Procedure.run (ExceptT.run (atomicWriteAt "cli.js"
      (Text.encode "new".toList) (some 0o644))) linkedDisk).1 = .ok () := by decide +kernel
  rw [hsucceeds] at hends
  obtain ⟨-, l, hwritten⟩ := hok _ hends
  exact ⟨_, l, hends, hwritten⟩

end Disk

end ArtifactPatch
