/-
  ArtifactPatch.Proofs.Store.Finds
  ────────────────────────────────
  **WHERE AN ARTIFACT STANDS.**

  `Store.Finds` says all that resolving an artifact checks: its path leads to
  a regular file within the root, which names alone lead to.  Resolving
  succeeds with exactly such files (`exec_resolve_eq_ok_iff`), there is at most
  one (`Finds.unique`), and it stays where it is while the tree around it keeps
  its shape (`Finds.persists`).  Where only files are made, an artifact that is
  found at an old file was found before (`Finds.recedes`).
-/
import ArtifactPatch.Store.Basic
import ArtifactPatch.Proofs.Disk.Making

namespace ArtifactPatch

/-! ## §1. Paths of artifacts start at the root. -/

theorem Location.isAbsolute_text (l : Location) : PathText.isAbsolute l.text = true := by
  unfold PathText.isAbsolute Location.text
  rw [String.toList_append]
  rfl

theorem PathText.isAbsolute_join {left : String} (right : String)
    (h : isAbsolute left = true) : isAbsolute (join left right) = true := by
  have hne : left.isEmpty = false := by
    cases hempty : left.isEmpty with
    | false => rfl
    | true =>
        rw [String.isEmpty_iff.1 hempty] at h
        exact absurd h (by decide)
  have happend : ∀ tail : String, isAbsolute (left ++ tail) = true := by
    intro tail
    unfold isAbsolute at h ⊢
    rw [String.toList_append, List.head?_append]
    rw [beq_iff_eq] at h ⊢
    rw [h]
    rfl
  unfold join
  split
  next hright =>
    rw [hne, Bool.or_false] at hright
    exact hright
  next =>
    split
    next => exact happend right
    next =>
      rw [String.append_assoc]
      exact happend _

theorem Guard.checkLocation_eq_ok_iff {g : Guard} {l l' : Location} :
    g.checkLocation l = .ok l' ↔ l = l' ∧ Location.isWithin g.root l' = true := by
  unfold checkLocation
  split
  next h =>
    rw [Except.ok.injEq]
    constructor
    · intro heq
      exact ⟨heq, heq ▸ h⟩
    · intro heq
      exact heq.1
  next h =>
    constructor
    · intro heq
      cases heq
    · intro heq
      exact absurd (heq.1 ▸ heq.2) h

namespace Store

theorem absolute_of_artifactPath {s : Store} {name path : String}
    (h : s.artifactPath name = .ok path) : (Route.ofText path).absolute = true := by
  unfold artifactPath at h
  cases hfind : s.find name with
  | error e =>
      rw [hfind] at h
      cases h
  | ok a =>
      rw [hfind] at h
      obtain rfl := Except.ok.inj h
      exact PathText.isAbsolute_join a.path (Location.isAbsolute_text s.root)

/-! ## §2. Artifacts that are found. -/

/-- The artifact of a name is the file `file` of the directory `dir`. -/
structure Finds (s : Store) (name : String) (m : Machine) (dir : Location) (file : String)
    (bytes : ByteArray) (mode : Mode) : Prop where
  hasFile : m.HasFile dir file bytes mode
  text : (Route.ofLocation (dir ++ [file])).checkText = .ok ()
  within : Location.isWithin s.root (dir ++ [file]) = true
  leads : ∃ path, s.artifactPath name = .ok path ∧ (Route.ofText path).checkText = .ok () ∧
    m.tree.Leads Tree.maxLinks [] (Route.ofText path).names (Route.ofText path).directory
      (dir ++ [file])

variable {s : Store} {name : String} {m m' : Machine} {dir : Location} {file : String}
  {bytes : ByteArray} {mode : Mode}

/-- An artifact stands at one place. -/
theorem Finds.unique {dir' : Location} {file' : String} {bytes' : ByteArray} {mode' : Mode}
    (h : s.Finds name m dir file bytes mode) (h' : s.Finds name m dir' file' bytes' mode') :
    dir = dir' ∧ file = file' ∧ bytes = bytes' ∧ mode = mode' := by
  obtain ⟨path, hpath, -, hleads⟩ := h.leads
  obtain ⟨path', hpath', -, hleads'⟩ := h'.leads
  rw [hpath] at hpath'
  obtain rfl := Except.ok.inj hpath'
  have hwalk := Tree.walk_of_leads hleads
  rw [Tree.walk_of_leads hleads'] at hwalk
  have hplace := Tree.Spot.node.inj (Except.ok.inj hwalk)
  obtain ⟨rfl, rfl⟩ := Location.concat_inj hplace
  have hnode := h.hasFile.node
  rw [h'.hasFile.node] at hnode
  obtain ⟨rfl, rfl⟩ := Node.file.inj (Option.some.inj hnode)
  exact ⟨rfl, rfl, rfl, rfl⟩

/-- An artifact stays where it is while the tree keeps its shape. -/
theorem Finds.persists (h : s.Finds name m dir file bytes mode) (hkeep : m.tree.Persists m'.tree)
    {bytes' : ByteArray} {mode' : Mode}
    (hnode : m'.tree.get? (dir ++ [file]) = some (.file bytes' mode')) :
    s.Finds name m' dir file bytes' mode' := by
  obtain ⟨path, hpath, htext, hleads⟩ := h.leads
  exact ⟨⟨h.hasFile.folder.persists hkeep, h.hasFile.plain, hnode⟩, h.text, h.within, path, hpath,
    htext, hleads.persists hkeep (Nat.le_refl _)⟩

/-- Replaced bytes are found where the old ones were. -/
theorem Finds.replaced (h : s.Finds name m dir file bytes mode) {bytes' : ByteArray} {mode' : Mode}
    (hreplaced : m.Replaced (dir ++ [file]) bytes' mode' m') :
    s.Finds name m' dir file bytes' mode' :=
  h.persists (hreplaced.persists_of_file h.hasFile.node) hreplaced.get?_self

/-- An artifact that is found where a file stood before was found there before. -/
theorem Finds.recedes {bytes' : ByteArray} {mode' : Mode} (h : s.Finds name m' dir file bytes mode)
    (hfiles : m.tree.MakesFiles m'.tree)
    (hnode : m.tree.get? (dir ++ [file]) = some (.file bytes' mode')) :
    s.Finds name m dir file bytes' mode' := by
  obtain ⟨path, hpath, htext, hleads⟩ := h.leads
  have hleads' := hleads.recedes hfiles fun _ _ _ _ => ⟨bytes', mode', hnode⟩
  rcases hleads'.folder_or_file .root with hfolder | ⟨dir', file', _, _, hplace, hdir, hfile, -⟩
  · obtain ⟨mode'', hdirectory⟩ := hfolder.get?_eq
    rw [hnode] at hdirectory
    cases hdirectory
  · obtain ⟨rfl, rfl⟩ := Location.concat_inj hplace
    exact ⟨⟨hdir, hfile, hnode⟩, h.text, h.within, path, hpath, htext, hleads'⟩

/-! ## §3. Resolving. -/

/-- What is found passes the checks. -/
theorem Finds.checks (h : s.Finds name m dir file bytes mode) {path : String}
    (hpath : s.artifactPath name = .ok path) :
    m.stat (.ofText path) = .ok ⟨.file, mode⟩ ∧
      m.canonicalize (.ofText path) = .ok (dir ++ [file]) := by
  obtain ⟨path', hpath', htext, hleads⟩ := h.leads
  rw [hpath] at hpath'
  obtain rfl := Except.ok.inj hpath'
  have hlocate : m.tree.locate m.cwd true (.ofText path) = .ok (dir ++ [file]) :=
    (Route.locate_eq_ok_iff_leads (absolute_of_artifactPath hpath)).2 hleads
  constructor
  · exact Machine.stat_eq_file_iff.2
      ⟨_, bytes, Machine.locate_eq_ok_iff.2 ⟨htext, hlocate⟩, h.hasFile.node⟩
  · exact Machine.canonicalize_eq_ok_iff.2
      ⟨Route.checkNul_of_checkText htext, hlocate, h.text⟩

/-- What passes the checks is found. -/
theorem finds_of_checks {path : String} (hpath : s.artifactPath name = .ok path) {l : Location}
    (hstat : m.stat (.ofText path) = .ok ⟨.file, mode⟩)
    (hcanonicalize : m.canonicalize (.ofText path) = .ok l)
    (hwithin : Location.isWithin s.root l = true) :
    ∃ dir file bytes, l = dir ++ [file] ∧ s.Finds name m dir file bytes mode := by
  obtain ⟨l', bytes, hlocate', hnode⟩ := Machine.stat_eq_file_iff.1 hstat
  obtain ⟨htext, hlocate'⟩ := Machine.locate_eq_ok_iff.1 hlocate'
  obtain ⟨-, hlocate, hshort⟩ := Machine.canonicalize_eq_ok_iff.1 hcanonicalize
  rw [hlocate] at hlocate'
  obtain rfl := Except.ok.inj hlocate'
  have hleads := (Route.locate_eq_ok_iff_leads (absolute_of_artifactPath hpath)).1 hlocate
  -- a walk that ends at a file ends in a folder that names alone lead to
  rcases hleads.folder_or_file .root with hfolder | ⟨dir, file, -, -, rfl, hdir, hfile, -⟩
  · obtain ⟨mode', hnode'⟩ := hfolder.get?_eq
    rw [hnode] at hnode'
    cases hnode'
  · exact ⟨dir, file, bytes, rfl, ⟨hdir, hfile, hnode⟩, hshort, hwithin, path, hpath, htext, hleads⟩

variable {frail : Call → Prop} {I : Machine → Prop}

/-- **Resolving an artifact.** -/
theorem resolve_ensures {Q : Location → Machine → Prop} {E : StoreError → Machine → Prop}
    (hm : I m)
    (hok : ∀ dir file bytes mode, s.Finds name m dir file bytes mode → Q (dir ++ [file]) m)
    (herr : (∃ c, frail c) ∨ (∀ dir file bytes mode, ¬s.Finds name m dir file bytes mode) →
      ∀ e, E e m) :
    Attempt.Ensures frail I (s.resolve name) Q E m := by
  unfold resolve
  refine Attempt.ensures_bind (Attempt.ensures_ofExcept ?_ ?_)
  · intro path hpath
    refine Attempt.ensures_bind (Attempt.ensures_lift (Disk.isFile_ensures hm ?_ ?_))
    · intro mode hstat
      refine Attempt.ensures_mapError (Attempt.ensures_bind (Attempt.ensures_query trivial hm ?_ ?_))
      · intro l hl
        refine Attempt.ensures_ofExcept ?_ ?_
        · intro l' hcheck
          obtain ⟨rfl, hwithin⟩ := Guard.checkLocation_eq_ok_iff.1 hcheck
          obtain ⟨dir, file, bytes, rfl, hfinds⟩ := finds_of_checks hpath hstat hl hwithin
          exact hok dir file bytes mode hfinds
        · -- outside the root there is no artifact
          intro e hcheck
          refine herr (.inr fun dir file bytes mode' hfinds => ?_) _
          have hl' : m.canonicalize (.ofText path) = .ok l := hl
          rw [(hfinds.checks hpath).2] at hl'
          obtain rfl := Except.ok.inj hl'
          rw [Guard.checkLocation_eq_ok_iff.2 ⟨rfl, hfinds.within⟩] at hcheck
          cases hcheck
      · intro e hfail
        refine herr (hfail.imp (fun h => ⟨_, h⟩) fun herror dir file bytes mode' hfinds => ?_) _
        have hl : m.canonicalize (.ofText path) = .error e := herror
        rw [(hfinds.checks hpath).2] at hl
        cases hl
    · intro hfail
      refine herr (hfail.imp (fun h => ⟨_, h⟩) fun hno dir file bytes mode' hfinds => ?_) _
      exact hno mode' (hfinds.checks hpath).1
  · intro e hpath
    refine herr (.inr fun dir file bytes mode hfinds => ?_) e
    obtain ⟨path, hpath', -⟩ := hfinds.leads
    rw [hpath] at hpath'
    cases hpath'

/-- Where an artifact is not found, nothing happens. -/
theorem resolve_bind_ensures {α : Type} {f : Location → Attempt StoreError α}
    {Q : α → Machine → Prop} (hm : I m)
    (hnot : ∀ dir file bytes mode, ¬s.Finds name m dir file bytes mode) :
    Attempt.Ensures frail I (s.resolve name >>= f) Q (fun _ m' => m' = m) m := by
  refine Attempt.ensures_bind (resolve_ensures hm ?_ fun _ _ => rfl)
  intro dir file bytes mode hfinds
  exact absurd hfinds (hnot dir file bytes mode)

/-- Resolving an artifact that stands at a place. -/
theorem Finds.resolve_ensures (h : s.Finds name m dir file bytes mode)
    {Q : Location → Machine → Prop} {E : StoreError → Machine → Prop} (hm : I m)
    (hok : Q (dir ++ [file]) m) (herr : (∃ c, frail c) → ∀ e, E e m) :
    Attempt.Ensures frail I (s.resolve name) Q E m := by
  refine Store.resolve_ensures hm ?_ ?_
  · intro dir' file' bytes' mode' h'
    obtain ⟨rfl, rfl, -, -⟩ := h.unique h'
    exact hok
  · intro hfail
    rcases hfail with hfrail | hnot
    · exact herr hfrail
    · exact absurd h (hnot dir file bytes mode)

/-- **Resolving succeeds where the artifact is found**, and changes nothing. -/
theorem exec_resolve_eq_ok_iff {l : Location} :
    (s.resolve name).exec m = (.ok l, m') ↔
      m' = m ∧ ∃ dir file bytes mode, l = dir ++ [file] ∧ s.Finds name m dir file bytes mode := by
  constructor
  · intro h
    have hensures : Attempt.Ensures Call.Sturdy (fun _ => True) (s.resolve name)
        (fun l m' => m' = m ∧ ∃ dir file bytes mode, l = dir ++ [file] ∧
          s.Finds name m dir file bytes mode) (fun _ _ => True) m := by
      refine Store.resolve_ensures trivial ?_ ?_
      · intro dir file bytes mode hfinds
        exact ⟨rfl, dir, file, bytes, mode, rfl, hfinds⟩
      · intro _ _
        trivial
    exact hensures.exec_ok h
  · intro h
    obtain ⟨rfl, dir, file, bytes, mode, rfl, hfinds⟩ := h
    have hensures : Attempt.Ensures Call.Sturdy (fun _ => True) (s.resolve name)
        (fun l m₁ => l = dir ++ [file] ∧ m₁ = m') (fun _ _ => False) m' :=
      hfinds.resolve_ensures trivial ⟨rfl, rfl⟩ fun hfrail => (Call.not_sturdy hfrail).elim
    obtain ⟨l, m₁, hexec, rfl, rfl⟩ := hensures.exec_succeeds
    exact hexec

/-- Where the artifact stands is what its name resolves to. -/
theorem Finds.exec_resolve (h : s.Finds name m dir file bytes mode) :
    ((s.resolve name).exec m).1 = .ok (dir ++ [file]) := by
  rw [exec_resolve_eq_ok_iff.2 ⟨rfl, dir, file, bytes, mode, rfl, h⟩]

end Store

end ArtifactPatch
