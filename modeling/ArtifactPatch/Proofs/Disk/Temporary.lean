/-
  ArtifactPatch.Proofs.Disk.Temporary
  ───────────────────────────────────
  **A TEMPORARY FILE AND THE TARGET BESIDE IT.**

  A target is named by a route that goes on from the route of its directory.
  Links and dots may stand in both, and both may start where the process works;
  they lead into one directory all the same (`Route.follow_of_leads`).  While a
  temporary file is there, the machine is the one before with one more file
  (`Machine.withFile`).  So every call for the temporary file has one equation,
  and removing it gives back the machine before, and not only one like it.
-/
import ArtifactPatch.Proofs.Disk.Call
import ArtifactPatch.Proofs.Disk.Path

namespace ArtifactPatch

namespace Machine

variable {m m' : Machine} {directory target r : Route} {dir l : Location} {name : String}
  {bytes : ByteArray} {mode : Mode}

/-! ## §1. One more file. -/

/-- The machine with a file at a place. -/
def withFile (m : Machine) (l : Location) (bytes : ByteArray) (mode : Mode) : Machine :=
  m.withTree (m.tree.put l (.file bytes mode))

theorem get?_withFile (hl : l ≠ []) (k : Location) :
    (m.withFile l bytes mode).tree.get? k
      = if k = l then some (.file bytes mode) else m.tree.get? k :=
  Tree.get?_put hl _ k

theorem withFile_withFile (m : Machine) (l : Location) (bytes bytes' : ByteArray)
    (mode mode' : Mode) :
    (m.withFile l bytes mode).withFile l bytes' mode' = m.withFile l bytes' mode' :=
  congrArg m.withTree (Tree.put_put m.tree l _ _)

/-- A file that was put where nothing was can be taken away again. -/
theorem withTree_erase_withFile (h : m.tree.get? l = none) :
    (m.withFile l bytes mode).withTree ((m.withFile l bytes mode).tree.erase l) = m := by
  show m.withTree ((m.tree.put l _).erase l) = m
  rw [Tree.erase_put, Tree.erase_of_free h]
  rfl

/-- Where the temporary file of a directory goes. -/
def tempPlace (m : Machine) (dir : Location) : Location :=
  dir ++ [m.freeName dir]

theorem get?_tempPlace (m : Machine) (dir : Location) : m.tree.get? (m.tempPlace dir) = none := by
  obtain ⟨n, hn, hfree, -⟩ := m.freeName_spec dir
  unfold tempPlace
  rw [hn]
  exact hfree

theorem tempPlace_ne_nil (m : Machine) (dir : Location) : m.tempPlace dir ≠ [] :=
  Tree.ne_nil_of_free (m.get?_tempPlace dir)

theorem get?_tempPlace_withFile (m : Machine) (dir : Location) (bytes : ByteArray) (mode : Mode) :
    (m.withFile (m.tempPlace dir) bytes mode).tree.get? (m.tempPlace dir)
      = some (.file bytes mode) := by
  rw [get?_withFile (m.tempPlace_ne_nil dir), if_pos rfl]

theorem persists_withFile_tempPlace (m : Machine) (dir : Location) (bytes : ByteArray)
    (mode : Mode) : m.tree.Persists (m.withFile (m.tempPlace dir) bytes mode).tree :=
  Tree.persists_put (m.get?_tempPlace dir) (.file bytes mode)

/-! ## §2. Directories in which a temporary file can be made. -/

/-- A target that leads anywhere leads through its directory. -/
theorem leads_of_locate (htarget : directory.Continues target name)
    (h : m.locate true target = .ok l) : ∃ dir, m.tree.Leads Tree.maxLinks
      (if directory.absolute then [] else m.cwd) directory.names true dir := by
  have hleads := (Route.locate_eq_ok_iff htarget.isEmpty_eq_false).1 (locate_eq_ok_iff.1 h).2
  obtain ⟨habsolute, i, j, hnames⟩ := htarget
  rw [habsolute, hnames, List.append_assoc] at hleads
  exact hleads.of_prefix (List.prefix_append _ _) (Nat.le_refl _) fun _ heq => by simp at heq

/-- A route leads into a directory, and a temporary file can be made there. -/
structure Opens (m : Machine) (directory : Route) (dir : Location) : Prop where
  leads : m.tree.Leads Tree.maxLinks (if directory.absolute then [] else m.cwd)
    directory.names true dir
  first : (directory.child (tempName 0)).checkText = .ok ()
  free : (directory.child (m.freeName dir)).checkText = .ok ()
  short : (m.freeName dir).utf8ByteSize ≤ Tree.maxName

theorem Opens.unique {dir' : Location} (h : m.Opens directory dir) (h' : m.Opens directory dir') :
    dir = dir' :=
  h.leads.unique h'.leads

/-- The location of a folder leads into it, so what is left is the room there. -/
theorem opens_ofLocation_iff (hdir : m.tree.IsFolder dir) :
    m.Opens (.ofLocation dir) l ↔ l = dir ∧ m.HasRoom dir := by
  have hleads : m.tree.Leads Tree.maxLinks [] dir true dir := hdir.leads Tree.maxLinks
  constructor
  · intro h
    obtain rfl := h.leads.unique hleads
    exact ⟨rfl, h.first, h.free, h.short⟩
  · rintro ⟨rfl, hroom⟩
    exact ⟨hleads, hroom.first, hroom.free, hroom.short⟩

/-- **Making a temporary file**: it goes where a directory can be opened. -/
theorem createTemp_eq_ok_iff : m.createTemp directory = .ok (r, m') ↔
    ∃ dir, m.Opens directory dir ∧ r = directory.child (m.freeName dir) ∧
      m' = m.withFile (m.tempPlace dir) .empty tempMode := by
  -- the directory is looked for with a dot behind it, so that it must be one
  have hlocate (dir : Location) : m.tree.locate m.cwd true (directory.child ".") = .ok dir ↔
      m.tree.Leads Tree.maxLinks (if directory.absolute then [] else m.cwd)
        directory.names true dir := by
    rw [← Tree.leads_concat_dot_iff]
    exact Route.locate_eq_ok_iff (by simp [Route.isEmpty, Route.child])
  unfold createTemp
  simp only [Except.bind_eq_ok_iff, hlocate]
  constructor
  · rintro ⟨⟨⟩, hfirst, dir, hleads, ⟨⟩, hfree, h⟩
    by_cases hshort : Tree.maxName < (m.freeName dir).utf8ByteSize
    · rw [if_pos hshort] at h
      cases h
    · rw [if_neg hshort] at h
      cases h
      exact ⟨dir, ⟨hleads, hfirst, hfree, Nat.not_lt.1 hshort⟩, rfl, rfl⟩
  · rintro ⟨dir, hopens, rfl, rfl⟩
    refine ⟨(), hopens.first, dir, hopens.leads, (), hopens.free, ?_⟩
    rw [if_neg (Nat.not_lt.2 hopens.short)]
    rfl

namespace Opens

/-- A temporary name is one by which a walk steps down. -/
theorem plain (h : m.Opens directory dir) : Tree.IsPlain (m.freeName dir) := by
  obtain ⟨n, hn, -⟩ := m.freeName_spec dir
  have hshort := h.short
  rw [hn] at hshort ⊢
  exact isPlain_tempName hshort

/-- The route leads there also while a temporary file is there. -/
theorem leads_withFile (h : m.Opens directory dir) (bytes : ByteArray) (mode : Mode) :
    (m.withFile (m.tempPlace dir) bytes mode).tree.Leads Tree.maxLinks
      (if directory.absolute then [] else m.cwd) directory.names true dir :=
  h.leads.persists (m.persists_withFile_tempPlace dir bytes mode) (Nat.le_refl _)

/-- The temporary file is found under its name. -/
theorem locate (h : m.Opens directory dir) (bytes : ByteArray) (mode : Mode) (last : Bool) :
    (m.withFile (m.tempPlace dir) bytes mode).locate last (directory.child (m.freeName dir))
      = .ok (m.tempPlace dir) := by
  have hnames : (directory.child (m.freeName dir)).names
      = directory.names ++ List.replicate 0 "." ++ [m.freeName dir] := by simp [Route.child]
  exact locate_eq_ok_iff.2 ⟨h.free, Route.locate_of_leads (h.leads_withFile bytes mode) hnames rfl rfl
    h.plain (m.get?_tempPlace_withFile dir bytes mode) last⟩

/-! ## §3. Calls for a temporary file. -/

theorem perform_write (h : m.Opens directory dir) (bytes : ByteArray) (mode : Mode)
    (new : ByteArray) :
    (m.withFile (m.tempPlace dir) bytes mode).perform
        (.write (directory.child (m.freeName dir)) new)
      = (.ok (), m.withFile (m.tempPlace dir) new mode) := by
  show changed _ (write _ _ new) = _
  unfold write
  rw [h.locate]
  dsimp only [bind, Except.bind]
  rw [get?_tempPlace_withFile]
  show (Except.ok (), (m.withFile (m.tempPlace dir) bytes mode).withFile _ new mode) = _
  rw [withFile_withFile]
  rfl

theorem perform_setMode (h : m.Opens directory dir) (bytes : ByteArray) (mode new : Mode) :
    (m.withFile (m.tempPlace dir) bytes mode).perform
        (.setMode (directory.child (m.freeName dir)) new)
      = (.ok (), m.withFile (m.tempPlace dir) bytes new) := by
  show changed _ (setMode _ _ new) = _
  unfold setMode
  rw [h.locate]
  dsimp only [bind, Except.bind]
  rw [get?_tempPlace_withFile]
  show (Except.ok (), (m.withFile (m.tempPlace dir) bytes mode).withFile _ bytes new) = _
  rw [withFile_withFile]
  rfl

theorem perform_sync (h : m.Opens directory dir) (bytes : ByteArray) (mode : Mode) :
    (m.withFile (m.tempPlace dir) bytes mode).perform (.sync (directory.child (m.freeName dir)))
      = (.ok (), m.withFile (m.tempPlace dir) bytes mode) := by
  show unchanged _ _ = _
  rw [h.locate]
  rfl

/-- **Removing a temporary file gives back the machine before.** -/
theorem perform_remove (h : m.Opens directory dir) (bytes : ByteArray) (mode : Mode) :
    (m.withFile (m.tempPlace dir) bytes mode).perform
        (.remove (directory.child (m.freeName dir))) = (.ok (), m) := by
  show changed _ (remove _ _) = _
  unfold remove
  rw [h.locate]
  dsimp only [bind, Except.bind]
  rw [get?_tempPlace_withFile]
  show (Except.ok (), _) = _
  rw [withTree_erase_withFile (m.get?_tempPlace dir)]
  rfl

end Opens

/-! ## §4. Moving a temporary file. -/

/-- A file can be moved over a target in a directory. -/
structure TakesAt (m : Machine) (target : Route) (dir : Location) (name : String) : Prop where
  text : target.checkText = .ok ()
  slash : target.directory = false
  last : target.names.getLast? = some name
  plain : Tree.IsPlain name
  free_or_file : ∀ mode, m.tree.get? (dir ++ [name]) ≠ some (.directory mode)

/-- Where the move goes. -/
theorem withTree_put_erase_withFile (m : Machine) (dir l : Location) (bytes : ByteArray)
    (mode : Mode) :
    (m.withFile (m.tempPlace dir) bytes mode).withTree
        (((m.withFile (m.tempPlace dir) bytes mode).tree.erase (m.tempPlace dir)).put l
          (.file bytes mode))
      = m.withFile l bytes mode := by
  show m.withTree (((m.tree.put _ _).erase _).put l _) = _
  rw [Tree.erase_put, Tree.erase_of_free (m.get?_tempPlace dir)]
  rfl

theorem takesAt_ofLocation_iff (hdot : name ≠ ".") (hdots : name ≠ "..") :
    m.TakesAt (.ofLocation (dir ++ [name])) dir name ↔ m.Takes dir name := by
  constructor
  · intro h
    exact ⟨h.text, h.plain.short, h.free_or_file⟩
  · intro h
    exact ⟨h.text, rfl, List.getLast?_concat, ⟨hdot, hdots, h.short⟩, h.free_or_file⟩

/-- A move that succeeds has a target with a name of its own at the end. -/
theorem target_of_replace {source : Route} (h : m.replace source target = .ok m') :
    target.checkText = .ok () ∧ target.directory = false ∧
      ∃ name, target.names.getLast? = some name ∧ name ≠ "." ∧ name ≠ ".." := by
  unfold replace at h
  obtain ⟨-, -, h⟩ := Except.bind_eq_ok_iff.1 h
  obtain ⟨⟨⟩, htext, h⟩ := Except.bind_eq_ok_iff.1 h
  obtain ⟨source', -, h⟩ := Except.bind_eq_ok_iff.1 h
  refine ⟨htext, ?_⟩
  split at h
  next bytes mode hnode =>
    split at h
    next => cases h
    next => cases h
    next => cases h
    next name hdot hdots hlast =>
      -- a slash behind the target is refused in both places where it can end
      obtain ⟨spot, -, h⟩ := Except.bind_eq_ok_iff.1 h
      refine ⟨?_, name, hlast, hdot, hdots⟩
      cases hslash : target.directory with
      | false => rfl
      | true =>
          rw [hslash] at h
          cases spot with
          | vacant l directory => cases h
          | node l => cases h
  next => cases h

/-- What a move does, as the walk to its target goes. -/
theorem Opens.replace_eq_walk (h : m.Opens directory dir) {i : Nat}
    (hnames : target.names = directory.names ++ List.replicate i "." ++ [name])
    (habsolute : target.absolute = directory.absolute) (hdot : name ≠ ".") (hdots : name ≠ "..")
    (htext : target.checkText = .ok ()) (hslash : target.directory = false) (bytes : ByteArray)
    (mode : Mode) : ∃ links,
    (m.withFile (m.tempPlace dir) bytes mode).replace (directory.child (m.freeName dir)) target
      = match (m.withFile (m.tempPlace dir) bytes mode).tree.walk false links dir [name] false with
        | .error e => .error e
        | .ok (.vacant l _) => .ok (m.withFile l bytes mode)
        | .ok (.node l) => match (m.withFile (m.tempPlace dir) bytes mode).tree.get? l with
          | some (.directory _) => .error .isADirectory
          | some (.file ..) | some (.link _) | none => .ok (m.withFile l bytes mode) := by
  have hlast : target.names.getLast? = some name := by rw [hnames, List.getLast?_concat]
  obtain ⟨links, hfollow⟩ : ∃ links, ∀ last,
      (m.withFile (m.tempPlace dir) bytes mode).tree.follow m.cwd last
        { target with directory := false } = _ :=
    Route.follow_of_leads (h.leads_withFile bytes mode) hnames habsolute
  refine ⟨links, ?_⟩
  unfold replace
  rw [h.free, htext, (locate_eq_ok_iff.1 (h.locate bytes mode false)).2]
  dsimp only [bind, Except.bind]
  rw [get?_tempPlace_withFile, hlast]
  dsimp only
  split
  next heq => cases heq
  next heq => exact absurd (Option.some.inj heq) hdot
  next heq => exact absurd (Option.some.inj heq) hdots
  next =>
    -- the target has a name of its own, and is looked for without following it
    have hcwd : (m.withFile (m.tempPlace dir) bytes mode).cwd = m.cwd := rfl
    rw [hcwd, hfollow, hslash]
    cases (m.withFile (m.tempPlace dir) bytes mode).tree.walk false links dir [name] false with
    | error e => rfl
    | ok spot =>
        cases spot with
        | vacant l _ => exact congrArg Except.ok (withTree_put_erase_withFile m dir l bytes mode)
        | node l =>
            cases hnode : (m.withFile (m.tempPlace dir) bytes mode).tree.get? l with
            | none =>
                dsimp only
                rw [hnode]
                exact congrArg Except.ok (withTree_put_erase_withFile m dir l bytes mode)
            | some n =>
                dsimp only
                rw [hnode]
                cases n with
                | directory => rfl
                | file | link =>
                    exact congrArg Except.ok (withTree_put_erase_withFile m dir l bytes mode)

/-- Whatever stands at the target but a directory gives way to the file. -/
theorem Opens.replace_eq (h : m.Opens directory dir) {i : Nat}
    (hnames : target.names = directory.names ++ List.replicate i "." ++ [name])
    (habsolute : target.absolute = directory.absolute) (hname : Tree.IsPlain name)
    (htext : target.checkText = .ok ()) (hslash : target.directory = false) (bytes : ByteArray)
    (mode : Mode) :
    (m.withFile (m.tempPlace dir) bytes mode).replace (directory.child (m.freeName dir)) target
      = match m.tree.get? (dir ++ [name]) with
        | some (.directory _) => .error .isADirectory
        | some (.file ..) | some (.link _) | none =>
            .ok (m.withFile (dir ++ [name]) bytes mode) := by
  obtain ⟨links, heq⟩ := h.replace_eq_walk hnames habsolute hname.ne_dot hname.ne_dots htext hslash
    bytes mode
  rw [heq, Tree.walk_plain _ _ _ _ _ _ hname, get?_withFile (m.tempPlace_ne_nil dir)]
  by_cases htemp : dir ++ [name] = m.tempPlace dir
  · -- the target is the temporary file itself
    rw [if_pos htemp, htemp, get?_tempPlace]
    simp only [List.isEmpty_nil, Bool.not_false, Bool.and_true, if_true, get?_tempPlace_withFile]
  · rw [if_neg htemp]
    have hsame : (m.withFile (m.tempPlace dir) bytes mode).tree.get? (dir ++ [name])
        = m.tree.get? (dir ++ [name]) := by
      rw [get?_withFile (m.tempPlace_ne_nil dir), if_neg htemp]
    cases hnode : m.tree.get? (dir ++ [name]) with
    | none => rfl
    | some n =>
        rw [hnode] at hsame
        cases n with
        | directory mode' =>
            simp only [Tree.walk_nil, hsame]
        | file | link =>
            simp only [List.isEmpty_nil, Bool.not_false, Bool.and_true, if_true, hsame]

/-- **Moving a temporary file over a target beside it.** -/
theorem Opens.replace_eq_ok_iff (h : m.Opens directory dir)
    (htarget : directory.Continues target name) (bytes : ByteArray) (mode : Mode) :
    (m.withFile (m.tempPlace dir) bytes mode).replace (directory.child (m.freeName dir)) target
      = .ok m' ↔ m.TakesAt target dir name ∧ m' = m.withFile (dir ++ [name]) bytes mode := by
  constructor
  · intro hreplace
    obtain ⟨htext, hslash, last, hlast, hdot, hdots⟩ := target_of_replace hreplace
    obtain ⟨rfl, i, hnames⟩ := htarget.of_getLast? hlast hdot
    -- a name that is too long is refused before anything is looked at
    have hshort : last.utf8ByteSize ≤ Tree.maxName := by
      by_contra hlong
      obtain ⟨links, heq⟩ :=
        h.replace_eq_walk hnames htarget.absolute hdot hdots htext hslash bytes mode
      rw [heq, walk_long hdot hdots (Nat.not_le.1 hlong)] at hreplace
      cases hreplace
    have hname : Tree.IsPlain last := ⟨hdot, hdots, hshort⟩
    rw [h.replace_eq hnames htarget.absolute hname htext hslash] at hreplace
    have htakes (hfree : ∀ mode', m.tree.get? (dir ++ [last]) ≠ some (.directory mode')) :
        m.TakesAt target dir last := ⟨htext, hslash, hlast, hname, hfree⟩
    split at hreplace
    next => cases hreplace
    next hnode => exact ⟨htakes (by simp [hnode]), (Except.ok.inj hreplace).symm⟩
    next hnode => exact ⟨htakes (by simp [hnode]), (Except.ok.inj hreplace).symm⟩
    next hnode => exact ⟨htakes (by simp [hnode]), (Except.ok.inj hreplace).symm⟩
  · rintro ⟨htakes, rfl⟩
    obtain ⟨-, i, hnames⟩ := htarget.of_getLast? htakes.last htakes.plain.ne_dot
    rw [h.replace_eq hnames htarget.absolute htakes.plain htakes.text htakes.slash]
    split
    next mode' hnode => exact absurd hnode (htakes.free_or_file mode')
    next => rfl
    next => rfl
    next => rfl

end Machine

end ArtifactPatch
