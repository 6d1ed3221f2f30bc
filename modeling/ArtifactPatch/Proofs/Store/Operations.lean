/-
  ArtifactPatch.Proofs.Store.Operations
  ─────────────────────────────────────
  **WHAT THE OPERATIONS OF A STORE ENSURE.**

  One rule for each operation on an artifact that stands at a place.  On the
  way the tree differs from the one before by a temporary file only; where an
  operation succeeds, by the file it wrote.  A backup asks whether its slot is
  taken, and a failure of that look counts as a no (`backup_ends_of_frail`).
-/
import ArtifactPatch.Proofs.Disk.Asking
import ArtifactPatch.Proofs.Store.Finds

namespace ArtifactPatch

/-! ## §1. Slots. -/

theorem Machine.exists_aside_refl (m : Machine) (dir : Location) :
    ∃ n, m.Aside (dir ++ [tempName n]) m := by
  obtain ⟨n, -, hfree, -⟩ := m.freeName_spec dir
  exact ⟨n, .refl hfree⟩

theorem Machine.exists_givenUp_refl (m : Machine) (frail : Call → Prop) (dir : Location) :
    ∃ n, m.GivenUp frail dir (tempName n) m := by
  obtain ⟨n, -, hfree, -⟩ := m.freeName_spec dir
  exact ⟨n, .refl hfree⟩

theorem Location.parent_concat (dir : Location) (name : String) :
    Location.parent (dir ++ [name]) = dir :=
  List.dropLast_concat

/-- A failure of the file system. -/
def StoreError.OfDisk (e : StoreError) : Prop :=
  ∃ l reason, e = .disk l reason

namespace Store

/-- The name of the backup of a file. -/
def slotName (file : String) : String :=
  file ++ backupSuffix

theorem slotOf_concat (dir : Location) (file : String) :
    slotOf (dir ++ [file]) = dir ++ [slotName file] := by
  unfold slotOf Location.withSuffix
  rw [List.getLast?_concat]
  show (dir ++ [file]).dropLast ++ _ = _
  rw [List.dropLast_concat]
  rfl

theorem four_le_length_slotName (file : String) : 4 ≤ (slotName file).toList.length := by
  unfold slotName
  rw [String.toList_append, List.length_append]
  exact Nat.le_add_left _ _

theorem slotName_ne_dot (file : String) : slotName file ≠ "." := by
  intro h
  have := four_le_length_slotName file
  rw [h] at this
  exact absurd this (by decide)

theorem slotName_ne_dots (file : String) : slotName file ≠ ".." := by
  intro h
  have := four_le_length_slotName file
  rw [h] at this
  exact absurd this (by decide)

theorem slotName_ne_tempName (file : String) (n : Nat) : slotName file ≠ tempName n :=
  Ne.symm (tempName_ne_append n file (show backupSuffix.toList.getLast? = some 'k' from rfl) rfl)

theorem slotName_ne (file : String) : slotName file ≠ file := by
  intro h
  have hlength := congrArg (fun t => t.toList.length) h
  simp only [slotName, String.toList_append, List.length_append] at hlength
  have : backupSuffix.toList.length = 4 := rfl
  omega

/-- A slot belongs to one file only. -/
theorem slotName_injective {file file' : String} (h : slotName file = slotName file') :
    file = file' := by
  have hlist := congrArg String.toList h
  unfold slotName at hlist
  rw [String.toList_append, String.toList_append, List.append_left_inj] at hlist
  exact String.toList_inj.1 hlist

theorem slot_inj {dir dir' : Location} {file file' : String}
    (h : dir ++ [slotName file] = dir' ++ [slotName file']) : dir = dir' ∧ file = file' := by
  obtain ⟨hdir, hname⟩ := Location.concat_inj h
  exact ⟨hdir, slotName_injective hname⟩

/-- The place of an artifact is not that of its backup. -/
theorem place_ne_slot (dir : Location) (file : String) : dir ++ [file] ≠ dir ++ [slotName file] :=
  Location.concat_ne dir (slotName_ne file).symm

/-- A temporary file is not made in the slot of a backup. -/
theorem slot_ne_temp (dir : Location) (file : String) (n : Nat) :
    dir ++ [slotName file] ≠ dir ++ [tempName n] :=
  Location.concat_ne dir (slotName_ne_tempName file n)

variable {s : Store} {name : String} {m m₁ : Machine} {dir : Location} {file : String}
  {bytes : ByteArray} {mode : Mode} {frail : Call → Prop} {I : Machine → Prop}

/-! ## §2. Where an artifact is found behind its backup. -/

/-- Where the artifact may be found behind its backup: where it was or, where its
path led through the slot, in the slot; with its bytes and permission bits. -/
def FoundNear (s : Store) (name : String) (dir : Location) (file : String) (bytes : ByteArray)
    (mode : Mode) (m₁ : Machine) : Prop :=
  ∀ dir' file' bytes' mode', s.Finds name m₁ dir' file' bytes' mode' →
    dir' = dir ∧ (file' = file ∨ file' = slotName file) ∧ bytes' = bytes ∧ mode' = mode

theorem Finds.foundNear (h : s.Finds name m dir file bytes mode) :
    FoundNear s name dir file bytes mode m := by
  intro dir' file' bytes' mode' h'
  obtain ⟨rfl, rfl, rfl, rfl⟩ := h.unique h'
  exact ⟨rfl, .inl rfl, rfl, rfl⟩

/-- A copy in the slot can be found in the place of the artifact, where its path
leads through the slot. -/
theorem Finds.foundNear_of_copy (h : s.Finds name m dir file bytes mode)
    (hcopy : m.Replaced (dir ++ [slotName file]) bytes mode m₁) :
    FoundNear s name dir file bytes mode m₁ := by
  intro dir' file' bytes' mode' h'
  have hnode := h'.hasFile.node
  by_cases hslot : dir' ++ [file'] = dir ++ [slotName file]
  · obtain ⟨rfl, rfl⟩ := Location.concat_inj hslot
    rw [hcopy.get?_self] at hnode
    obtain ⟨rfl, rfl⟩ := Node.file.inj (Option.some.inj hnode)
    exact ⟨rfl, .inr rfl, rfl, rfl⟩
  · -- a file that was not made just now was there before
    rw [hcopy.get?_of_ne hslot] at hnode
    exact h.foundNear _ _ _ _ (h'.recedes hcopy.makesFiles hnode)

/-! ## §3. Reading. -/

section

variable {E : StoreError → Machine → Prop}

theorem Finds.readLive_ensures (h : s.Finds name m dir file bytes mode)
    {Q : ByteArray → Machine → Prop} (hm : I m) (hok : Q bytes m)
    (herr : (∃ c, frail c) → ∀ e, E e m) :
    Attempt.Ensures frail I (onFile (dir ++ [file]) (.read (.ofLocation (dir ++ [file])))) Q E m := by
  have hread := h.hasFile.read (Route.spells_ofLocation _) h.text
  exact Attempt.ensures_query_of_ok trivial hm hread hok fun hfrail _ => herr ⟨_, hfrail⟩ _

theorem Finds.modeOf_ensures (h : s.Finds name m dir file bytes mode) {Q : Mode → Machine → Prop}
    (hm : I m) (hok : Q mode m) (herr : (∃ c, frail c) → ∀ e, E e m) :
    Attempt.Ensures frail I (modeOf (dir ++ [file])) Q E m := by
  have hstat := h.hasFile.stat (Route.spells_ofLocation _) h.text
  exact Attempt.ensures_bind (Attempt.ensures_query_of_ok trivial hm hstat hok fun hfrail _ =>
    herr ⟨_, hfrail⟩ _)

theorem Finds.readRaw_ensures (h : s.Finds name m dir file bytes mode)
    {Q : ByteArray → Machine → Prop} (hm : I m) (hok : Q bytes m)
    (herr : (∃ c, frail c) → ∀ e, E e m) : Attempt.Ensures frail I (s.readRaw name) Q E m :=
  Attempt.ensures_bind (h.resolve_ensures hm (h.readLive_ensures hm hok herr) herr)

theorem Finds.read_ensures (h : s.Finds name m dir file bytes mode)
    {Q : ArtifactText → Machine → Prop} (hm : I m)
    (hok : ∀ raw, Text.decode? bytes = some raw → Q (.ofRaw raw) m)
    (herr : (∃ c, frail c) ∨ Text.decode? bytes = none → ∀ e, E e m) :
    Attempt.Ensures frail I (s.read name) Q E m := by
  refine Attempt.ensures_bind (h.readRaw_ensures hm ?_ fun hfrail => herr (.inl hfrail))
  cases hdecode : Text.decode? bytes with
  | some raw => exact hok raw hdecode
  | none => exact herr (.inr hdecode) _

/-- Whether there is a backup. -/
theorem Finds.hasBackup_ensures (h : s.Finds name m dir file bytes mode)
    {Q : Bool → Machine → Prop} (hm : I m)
    (hyes : ∀ mode', m.stat (.ofLocation (slotOf (dir ++ [file]))) = .ok ⟨.file, mode'⟩ → Q true m)
    (hno : frail (.stat (.ofLocation (slotOf (dir ++ [file])))) ∨
      (∀ mode', m.stat (.ofLocation (slotOf (dir ++ [file]))) ≠ .ok ⟨.file, mode'⟩) → Q false m)
    (herr : (∃ c, frail c) → ∀ e, E e m) : Attempt.Ensures frail I (s.hasBackup name) Q E m := by
  refine Attempt.ensures_bind (Attempt.ensures_bind (h.resolve_ensures hm ?_ herr))
  exact Attempt.ensures_pure (Attempt.ensures_lift (Disk.isFile_ensures hm hyes hno))

end

/-! ## §4. Reading only asks. -/

section

variable (s : Store) (name : String)

theorem onlyAsks_resolve : Attempt.OnlyAsks (s.resolve name) := by
  refine (Attempt.onlyAsks_ofExcept _).bind fun path => ?_
  refine (Attempt.onlyAsks_lift (Disk.onlyAsks_isFile _)).bind fun found => ?_
  have hcheck : Attempt.OnlyAsks (s.guard.checkRoute (.ofText path)) :=
    (Attempt.onlyAsks_call (c := .canonicalize _) trivial _).bind fun _ =>
      Attempt.onlyAsks_ofExcept _
  cases found with
  | true => exact (Attempt.onlyAsks_pure PUnit.unit).bind fun _ => hcheck.mapError _
  | false => exact (Attempt.onlyAsks_throw _).bind fun _ => hcheck.mapError _

theorem onlyAsks_readRaw : Attempt.OnlyAsks (s.readRaw name) :=
  (s.onlyAsks_resolve name).bind fun l =>
    Attempt.onlyAsks_call (c := .read (.ofLocation l)) trivial _

theorem onlyAsks_read : Attempt.OnlyAsks (s.read name) := by
  refine (s.onlyAsks_readRaw name).bind fun bytes => ?_
  cases Text.decode? bytes with
  | some raw => exact Attempt.onlyAsks_pure _
  | none => exact Attempt.onlyAsks_throw _

theorem onlyAsks_hasBackup : Attempt.OnlyAsks (s.hasBackup name) :=
  ((s.onlyAsks_resolve name).bind fun _ => Attempt.onlyAsks_pure _).bind fun _ =>
    Attempt.onlyAsks_lift (Disk.onlyAsks_isFile _)

end

/-! ## §5. Writing. -/

section

variable {E : StoreError → Machine → Prop}

/-- Replacing a file of the directory where an artifact stands. -/
theorem replaceFile_ensures {place : String} {new : ByteArray} {mode : Mode}
    {Q : Unit → Machine → Prop} (hdir : m.tree.IsFolder dir) (hdot : place ≠ ".")
    (hdots : place ≠ "..")
    (hI : ∀ n m', m.Aside (dir ++ [tempName n]) m' → I m')
    (hok : ∀ m', m.Writable dir place → m.Replaced (dir ++ [place]) new mode m' → I m' ∧ Q () m')
    (herr : (∃ c, frail c) ∨ ¬m.Writable dir place →
      ∀ reason n m', m.GivenUp frail dir (tempName n) m' → E (.disk (dir ++ [place]) reason) m') :
    Attempt.Ensures frail I (replaceFile (dir ++ [place]) new mode) Q E m := by
  unfold replaceFile
  rw [Location.parent_concat]
  refine Attempt.ensures_mapError (Disk.atomicWrite_ensures hdir hdot hdots hI hok ?_)
  intro hfail n e m' hgivenUp
  exact herr hfail e n m' hgivenUp

theorem Finds.ne_temp (h : s.Finds name m dir file bytes mode) {n : Nat}
    (hfree : m.tree.get? (dir ++ [tempName n]) = none) : file ≠ tempName n := by
  intro heq
  have hnode := h.hasFile.node
  rw [heq, hfree] at hnode
  cases hnode

/-- Replacing the artifact itself. -/
theorem Finds.replaceLive_ensures (h : s.Finds name m dir file bytes mode) {new : ByteArray}
    {mode' : Mode} {Q : Unit → Machine → Prop}
    (hI : ∀ n m', m.Aside (dir ++ [tempName n]) m' → I m')
    (hok : ∀ m', m.Writable dir file → m.Replaced (dir ++ [file]) new mode' m' → I m' ∧ Q () m')
    (herr : (∃ c, frail c) ∨ ¬m.Writable dir file →
      ∀ reason n m', m.GivenUp frail dir (tempName n) m' → E (.disk (dir ++ [file]) reason) m') :
    Attempt.Ensures frail I (replaceFile (dir ++ [file]) new mode') Q E m :=
  replaceFile_ensures h.hasFile.folder h.hasFile.plain.ne_dot h.hasFile.plain.ne_dots hI hok herr

/-- Copy the file at a location into its slot. -/
def saveCopy (l : Location) : Attempt StoreError BackupOutcome := do
  let bytes : ByteArray ← onFile l (.read (.ofLocation l))
  replaceFile (slotOf l) bytes (← modeOf l)
  return .created (slotOf l)

theorem backup_eq (s : Store) (name : String) : s.backup name = (do
    let l ← s.resolve name
    if ← Attempt.lift (Disk.exists? (.ofLocation (slotOf l))) then
      return .alreadyPresent (slotOf l)
    saveCopy l) := rfl

/-- **Copying an artifact into its slot.**  Where no call is frail, only the file
system fails, and only where the slot cannot be written. -/
theorem Finds.saveCopy_ensures (h : s.Finds name m dir file bytes mode)
    {Q : BackupOutcome → Machine → Prop}
    (hI : ∀ n m', m.Aside (dir ++ [tempName n]) m' → I m')
    (hok : m.Writable dir (slotName file) →
      ∀ m', m.Replaced (dir ++ [slotName file]) bytes mode m' →
        I m' ∧ Q (.created (dir ++ [slotName file])) m')
    (herr : ∀ e n m', (∃ c, frail c) ∨ e.OfDisk ∧ ¬m.Writable dir (slotName file) →
      m.GivenUp frail dir (tempName n) m' → E e m') :
    Attempt.Ensures frail I (saveCopy (dir ++ [file])) Q E m := by
  obtain ⟨n, hrefl⟩ := m.exists_givenUp_refl frail dir
  have hm : I m := hI n m hrefl.aside
  have herr' : (∃ c, frail c) → ∀ e, E e m := fun hfrail e => herr e n m (.inl hfrail) hrefl
  unfold saveCopy
  rw [slotOf_concat]
  refine Attempt.ensures_bind (h.readLive_ensures hm ?_ herr')
  refine Attempt.ensures_bind (h.modeOf_ensures hm ?_ herr')
  refine Attempt.ensures_bind (replaceFile_ensures h.hasFile.folder (slotName_ne_dot file)
    (slotName_ne_dots file) hI ?_ ?_)
  · intro m' hwritable hreplaced
    exact hok hwritable m' hreplaced
  · intro hfail reason n m' hgivenUp
    exact herr _ n m' (hfail.imp_right fun hnot => ⟨⟨_, reason, rfl⟩, hnot⟩) hgivenUp

/-- **Taking a backup.**  It is taken from the artifact as it stands, or one is
said to be there already.  Where no call is frail, only the file system fails,
and only where nothing is seen in the slot and it cannot be written. -/
theorem Finds.backup_ensures (h : s.Finds name m dir file bytes mode)
    {Q : BackupOutcome → Machine → Prop}
    (hI : ∀ n m', m.Aside (dir ++ [tempName n]) m' → I m')
    (hpresent : ∀ st, m.stat (.ofLocation (slotOf (dir ++ [file]))) = .ok st →
      Q (.alreadyPresent (slotOf (dir ++ [file]))) m)
    (hcreated : frail (.stat (.ofLocation (slotOf (dir ++ [file])))) ∨
        (∀ st, m.stat (.ofLocation (slotOf (dir ++ [file]))) ≠ .ok st) →
      m.Writable dir (slotName file) →
      ∀ m', m.Replaced (slotOf (dir ++ [file])) bytes mode m' →
        I m' ∧ Q (.created (slotOf (dir ++ [file]))) m')
    (herr : ∀ e n m', (∃ c, frail c) ∨ e.OfDisk ∧ ¬m.Writable dir (slotName file) ∧
        (∀ st, m.stat (.ofLocation (slotOf (dir ++ [file]))) ≠ .ok st) →
      m.GivenUp frail dir (tempName n) m' → E e m') :
    Attempt.Ensures frail I (s.backup name) Q E m := by
  obtain ⟨n, hrefl⟩ := m.exists_givenUp_refl frail dir
  have hm : I m := hI n m hrefl.aside
  rw [backup_eq]
  refine Attempt.ensures_bind (h.resolve_ensures hm ?_ fun hfrail e =>
    herr e n m (.inl hfrail) hrefl)
  refine Attempt.ensures_bind (Attempt.ensures_lift (Disk.exists?_ensures hm ?_ ?_))
  · intro st hst
    exact hpresent st hst
  · -- nothing is seen in the slot, or the look at it failed
    intro hno
    rw [slotOf_concat] at hcreated herr hno ⊢
    refine h.saveCopy_ensures hI (hcreated hno) ?_
    intro e n m' hfail hgivenUp
    refine herr e n m' ?_ hgivenUp
    rcases hno with hfrail | hunseen
    · exact .inl ⟨_, hfrail⟩
    · exact hfail.imp_right fun ⟨hdisk, hnot⟩ => ⟨hdisk, hnot, hunseen⟩

/-- **Where the look at the slot fails, a backup is taken again**, whatever stands
there: the failure passes for an empty slot. -/
theorem backup_ends_of_frail {l : Location} {o : BackupOutcome}
    (hresolve : ((s.resolve name).exec m).1 = .ok l)
    (hfrail : frail (.stat (.ofLocation (slotOf l))))
    (hcopy : (saveCopy l).exec m = (.ok o, m₁)) :
    Procedure.Ends frail (ExceptT.run (s.backup name)) m (.ok o) m₁ := by
  -- only the look fails; the calls before and after it do not
  have hlook : Procedure.Ends frail (ExceptT.run
      (Attempt.lift (Disk.exists? (.ofLocation (slotOf l))) : Attempt StoreError Bool))
      m (.ok false) m := .call (.failed .notFound hfrail rfl) (.done _ m)
  obtain ⟨-, hfinds⟩ := exec_resolve_eq_ok_iff.1 (Prod.ext hresolve rfl)
  rw [backup_eq]
  exact Attempt.ends_bind (Attempt.ends_of_exec frail (exec_resolve_eq_ok_iff.2 ⟨rfl, hfinds⟩))
    (Attempt.ends_bind hlook (Attempt.ends_of_exec frail hcopy))

/-- It succeeds where the slot can be written. -/
theorem Finds.backup_ends_of_frail (h : s.Finds name m dir file bytes mode)
    (hfrail : frail (.stat (.ofLocation (dir ++ [slotName file]))))
    (hwritable : m.Writable dir (slotName file)) :
    ∃ o m', Procedure.Ends frail (ExceptT.run (s.backup name)) m (.ok o) m' ∧
      m.Replaced (dir ++ [slotName file]) bytes mode m' := by
  have hensures : Attempt.Ensures Call.Sturdy (fun _ => True) (saveCopy (dir ++ [file]))
      (fun _ m' => m.Replaced (dir ++ [slotName file]) bytes mode m') (fun _ _ => False) m := by
    refine h.saveCopy_ensures (fun _ _ _ => trivial) (fun _ m' hreplaced => ⟨trivial, hreplaced⟩) ?_
    intro e n m' hfail _
    rcases hfail with hfrail | ⟨-, hnot⟩
    · exact Call.not_sturdy hfrail
    · exact hnot hwritable
  obtain ⟨o, m', hcopy, hreplaced⟩ := hensures.exec_succeeds
  rw [← slotOf_concat] at hfrail
  exact ⟨o, m', Store.backup_ends_of_frail h.exec_resolve hfrail hcopy, hreplaced⟩

/-- **Writing an artifact.**  Where no call is frail, only the file system fails,
and only where the artifact cannot be written. -/
theorem Finds.write_ensures (h : s.Finds name m dir file bytes mode) {text : ArtifactText}
    {Q : Unit → Machine → Prop} (hI : ∀ n m', m.Aside (dir ++ [tempName n]) m' → I m')
    (hok : ∀ m', m.Writable dir file →
      m.Replaced (dir ++ [file]) (Text.encode text.toRaw) mode m' → I m' ∧ Q () m')
    (herr : ∀ e n m', (∃ c, frail c) ∨ e.OfDisk ∧ ¬m.Writable dir file →
      m.GivenUp frail dir (tempName n) m' → E e m') :
    Attempt.Ensures frail I (s.write name text) Q E m := by
  obtain ⟨n, hrefl⟩ := m.exists_givenUp_refl frail dir
  have hm : I m := hI n m hrefl.aside
  have herr' : (∃ c, frail c) → ∀ e, E e m := fun hfrail e => herr e n m (.inl hfrail) hrefl
  have hcanonicalize := h.hasFile.canonicalize h.text
  unfold write
  refine Attempt.ensures_bind (h.resolve_ensures hm ?_ herr')
  refine Attempt.ensures_bind (Attempt.ensures_mapError ?_)
  refine Attempt.ensures_bind (Attempt.ensures_query_of_ok trivial hm hcanonicalize ?_
    fun hfrail e => herr' ⟨_, hfrail⟩ _)
  -- the location is checked once more, and is the one that was found
  refine Attempt.ensures_ofExcept ?_ ?_
  · intro l' hcheck
    obtain ⟨rfl, -⟩ := Guard.checkLocation_eq_ok_iff.1 hcheck
    exact Attempt.ensures_bind (h.modeOf_ensures hm (h.replaceLive_ensures hI hok
      fun hfail reason n m' hgivenUp =>
        herr _ n m' (hfail.imp_right fun hnot => ⟨⟨_, reason, rfl⟩, hnot⟩) hgivenUp) herr')
  · intro e hcheck
    rw [Guard.checkLocation_eq_ok_iff.2 ⟨rfl, h.within⟩] at hcheck
    cases hcheck

/-- **Copying the backup over an artifact.** -/
theorem Finds.restore_ensures (h : s.Finds name m dir file bytes mode)
    {Q : Restored → Machine → Prop} (hI : ∀ n m', m.Aside (dir ++ [tempName n]) m' → I m')
    (hok : ∀ saved m', m.read (.ofLocation (slotOf (dir ++ [file]))) = .ok saved →
      m.Writable dir file → m.Replaced (dir ++ [file]) saved mode m' →
        I m' ∧ Q ⟨name, dir ++ [file], saved.size, Hash.xxh3 saved⟩ m')
    (herr : (∃ c, frail c) ∨ ¬m.Writable dir file ∨
        (∀ mode', m.stat (.ofLocation (slotOf (dir ++ [file]))) ≠ .ok ⟨.file, mode'⟩) →
      ∀ e n m', m.GivenUp frail dir (tempName n) m' → E e m') :
    Attempt.Ensures frail I (s.restore name) Q E m := by
  obtain ⟨n, hrefl⟩ := m.exists_givenUp_refl frail dir
  have hm : I m := hI n m hrefl.aside
  have herr' : (∃ c, frail c) → ∀ e, E e m := fun hfrail e => herr (.inl hfrail) e n m hrefl
  unfold restore
  refine Attempt.ensures_bind (h.resolve_ensures hm ?_ herr')
  refine Attempt.ensures_bind (Attempt.ensures_lift (Disk.isFile_ensures hm ?_ ?_))
  · intro mode' hstat
    obtain ⟨l, saved, hlocate, hnode⟩ := Machine.stat_eq_file_iff.1 hstat
    have hread := Machine.read_eq_ok_iff.2 ⟨l, mode', hlocate, hnode⟩
    refine Attempt.ensures_bind (Attempt.ensures_query_of_ok trivial hm hread ?_
      fun hfrail _ => herr' ⟨_, hfrail⟩ _)
    refine Attempt.ensures_bind (h.modeOf_ensures hm ?_ herr')
    refine Attempt.ensures_bind (h.replaceLive_ensures hI ?_ ?_)
    · intro m' hwritable hreplaced
      exact hok saved m' hread hwritable hreplaced
    · intro hfail reason
      exact herr (hfail.imp_right .inl) _
  · intro hno
    exact herr (hno.imp (fun hfrail => ⟨_, hfrail⟩) .inr) _ n m hrefl

/-- Without a backup there is nothing to copy. -/
theorem Finds.restore_ensures_of_free (h : s.Finds name m dir file bytes mode)
    {Q : Restored → Machine → Prop} (hm : I m)
    (hfree : ∀ mode', m.stat (.ofLocation (slotOf (dir ++ [file]))) ≠ .ok ⟨.file, mode'⟩)
    (hnone : E (.noBackup name (slotOf (dir ++ [file])).text) m)
    (herr : (∃ c, frail c) → ∀ e, E e m) : Attempt.Ensures frail I (s.restore name) Q E m := by
  unfold restore
  refine Attempt.ensures_bind (h.resolve_ensures hm ?_ herr)
  refine Attempt.ensures_bind (Attempt.ensures_lift (Disk.isFile_ensures hm ?_ fun _ => hnone))
  intro mode' hstat
  exact absurd hstat (hfree mode')

/-- **Freeing the slot of a backup.** -/
theorem Finds.discardBackup_ensures (h : s.Finds name m dir file bytes mode)
    {Q : Bool → Machine → Prop} (hm : I m)
    (hremoved : I (m.withTree (m.tree.erase (slotOf (dir ++ [file])))) ∧
      Q true (m.withTree (m.tree.erase (slotOf (dir ++ [file])))))
    (hnone : (∃ c, frail c) ∨ (∃ e, m.remove (.ofLocation (slotOf (dir ++ [file]))) = .error e) →
      Q false m)
    (herr : (∃ c, frail c) ∨ (∃ e, m.remove (.ofLocation (slotOf (dir ++ [file]))) = .error e) →
      ∀ e, E e m) : Attempt.Ensures frail I (s.discardBackup name) Q E m := by
  unfold discardBackup
  refine Attempt.ensures_bind (Attempt.ensures_bind
    (h.resolve_ensures hm ?_ fun hfrail => herr (.inl hfrail)))
  refine Attempt.ensures_pure (Attempt.ensures_bind (Attempt.ensures_lift
    (Procedure.ensures_ask ?_ ?_)))
  · intro a m' hperform
    have hremove := Machine.changed_eq_ok.1 hperform
    rw [slotOf_concat] at hremove hremoved
    obtain ⟨-, rfl⟩ := (Machine.remove_eq_ok_iff h.hasFile.folder (slotName_ne_dot file)
      (slotName_ne_dots file) (Route.spells_ofLocation _)).1 hremove
    exact hremoved
  · intro e m' hfail hleft
    obtain rfl := hleft
    have hfail' : (∃ c, frail c) ∨
        (∃ e, m'.remove (.ofLocation (slotOf (dir ++ [file]))) = .error e) :=
      hfail.imp (fun hfrail => ⟨_, hfrail⟩) fun herror => ⟨e, Machine.error_of_changed herror⟩
    refine ⟨hm, ?_⟩
    -- a slot that is free already is no failure
    by_cases he : e = .notFound
    · subst he
      exact hnone hfail'
    · have hthrow := herr hfail' (.disk (slotOf (dir ++ [file])) e)
      cases e with
      | notFound => exact absurd rfl he
      | _ => exact hthrow

end

end Store

end ArtifactPatch
