/-
  ArtifactPatch.Proofs.Patch.Isolation
  ────────────────────────────────────
  **WHAT AN OPERATION ON ONE ARTIFACT DOES TO ANOTHER.**

  Whatever is asked of an artifact, only the artifact, its slot and free places
  for a temporary file can change (`Confined`).  The calls make nothing but
  files, so an artifact that is found where none was stands at one of these
  places.  Hence artifacts do not interfere where neither is the other or in
  the other's slot (`others_untouched`).  Artifacts of different names need not
  be so far apart: one may be the slot of the other
  (`backup_overwritten_as_artifact`).
-/
import ArtifactPatch.Profile.Validate
import ArtifactPatch.Proofs.Disk.Making
import ArtifactPatch.Proofs.Patch.Agreement

namespace ArtifactPatch

/-- What may be asked of an artifact that changes something. -/
inductive Operation where
  | backup
  | write (text : ArtifactText)
  | apply (rules : List Rule)
  | restore
  | takeBack (keepBackup : Bool)
  | discardBackup

/-- What an operation answers. -/
def Operation.Answer : Operation → Type
  | .backup => Except StoreError BackupOutcome
  | .write _ => Except StoreError Unit
  | .apply _ => Except PatchError Plan
  | .restore => Except StoreError Restored
  | .takeBack _ => Except PatchError RestoreOutcome
  | .discardBackup => Except StoreError Bool

namespace Store

/-- The calls of an operation. -/
def procedure (s : Store) (name : String) : (op : Operation) → Procedure op.Answer
  | .backup => ExceptT.run (s.backup name)
  | .write text => ExceptT.run (s.write name text)
  | .apply rules => ExceptT.run (s.applyRules name rules)
  | .restore => ExceptT.run (s.restore name)
  | .takeBack keepBackup => ExceptT.run (s.takeBack name keepBackup)
  | .discardBackup => ExceptT.run (s.discardBackup name)

/-- The states in which an operation may be stopped, its end among them. -/
def Performs (s : Store) (name : String) (frail : Call → Prop) (op : Operation)
    (m m' : Machine) : Prop :=
  (s.procedure name op).Passes frail m m'

variable {s : Store} {name : String} {m m₁ m' : Machine} {dir : Location} {file : String}
  {bytes : ByteArray} {mode : Mode} {frail : Call → Prop} {I : Machine → Prop}

/-! ## §1. The footprint of an artifact. -/

/-- Trees that differ at most at an artifact, in its slot, and at free places for
a temporary file. -/
def Confined (dir : Location) (file : String) (m m' : Machine) : Prop :=
  ∀ k, k ≠ dir ++ [file] → k ≠ dir ++ [slotName file] →
    (∀ n, k = dir ++ [tempName n] → m.tree.get? k ≠ none) → m'.tree.get? k = m.tree.get? k

theorem Confined.refl (dir : Location) (file : String) (m : Machine) : Confined dir file m m :=
  fun _ _ _ _ => rfl

theorem Confined.trans (h : Confined dir file m m₁) (h' : Confined dir file m₁ m') :
    Confined dir file m m' := by
  intro k hlive hslot htemp
  have hsame := h k hlive hslot htemp
  rw [← hsame]
  refine h' k hlive hslot fun n hn => ?_
  rw [hsame]
  exact htemp n hn

theorem confined_of_aside {n : Nat} (h : m.Aside (dir ++ [tempName n]) m') :
    Confined dir file m m' := by
  intro k _ _ htemp
  exact h.same k fun hk => htemp n hk (hk ▸ h.free)

theorem confined_of_replaced {place : String} (hplace : place = file ∨ place = slotName file)
    (h : m.Replaced (dir ++ [place]) bytes mode m') : Confined dir file m m' := by
  intro k hlive hslot _
  refine h.get?_of_ne fun hk => ?_
  rcases hplace with rfl | rfl
  · exact hlive hk
  · exact hslot hk

theorem confined_of_erase :
    Confined dir file m (m.withTree (m.tree.erase (dir ++ [slotName file]))) := by
  intro k _ hslot _
  show (m.tree.erase _).get? k = _
  rw [Tree.get?_erase (by simp), if_neg hslot]

/-! ## §2. What each operation can reach. -/

theorem Finds.backup_confined (h : s.Finds name m dir file bytes mode) :
    Attempt.Ensures frail (Confined dir file m) (s.backup name)
      (fun _ m₁ => Confined dir file m m₁ ∧ FoundNear s name dir file bytes mode m₁)
      (fun _ _ => True) m := by
  refine h.backup_ensures (fun n m' haside => confined_of_aside haside)
    (fun _ _ => ⟨.refl dir file m, h.foundNear⟩) ?_ fun _ _ _ _ _ => trivial
  intro _ _ m' hcopy
  rw [slotOf_concat] at hcopy
  have hconfined := confined_of_replaced (.inr rfl) hcopy
  exact ⟨hconfined, hconfined, h.foundNear_of_copy hcopy⟩

theorem Finds.write_confined (h : s.Finds name m dir file bytes mode) (text : ArtifactText) :
    Attempt.Ensures frail (Confined dir file m) (s.write name text) (fun _ _ => True)
      (fun _ _ => True) m := by
  refine h.write_ensures (fun n m' haside => confined_of_aside haside) ?_ fun _ _ _ _ _ => trivial
  intro m' _ hreplaced
  exact ⟨confined_of_replaced (.inl rfl) hreplaced, trivial⟩

theorem Finds.applyRules_confined (h : s.Finds name m dir file bytes mode) (rules : List Rule) :
    Attempt.Ensures frail (Confined dir file m) (s.applyRules name rules) (fun _ _ => True)
      (fun _ _ => True) m := by
  rw [applyRules_eq]
  refine Attempt.ensures_bind (Attempt.ensures_mapError (h.backup_confined.mono ?_
    fun _ _ _ => trivial))
  intro o m₁ hbacked
  obtain ⟨hconfined, hnear⟩ := hbacked
  refine hnear.planAndWrite_ensures ?_ ?_ fun _ _ _ _ => trivial
  · intro n m' haside
    exact hconfined.trans (confined_of_aside haside)
  · intro place _ _ _ m' hplace _ _ _ _ hreplaced
    exact ⟨hconfined.trans (confined_of_replaced hplace hreplaced), trivial⟩

theorem Finds.restore_confined (h : s.Finds name m dir file bytes mode) :
    Attempt.Ensures frail (Confined dir file m) (s.restore name)
      (fun _ m₁ => ∃ saved, m.Replaced (dir ++ [file]) saved mode m₁) (fun _ _ => True) m := by
  refine h.restore_ensures (fun n m' haside => confined_of_aside haside) ?_ fun _ _ _ _ _ => trivial
  intro saved m' _ _ hreplaced
  exact ⟨confined_of_replaced (.inl rfl) hreplaced, saved, hreplaced⟩

theorem Finds.discardBackup_confined (h : s.Finds name m₁ dir file bytes mode)
    (hconfined : Confined dir file m m₁) :
    Attempt.Ensures frail (Confined dir file m) (s.discardBackup name) (fun _ _ => True)
      (fun _ _ => True) m₁ := by
  refine h.discardBackup_ensures hconfined ?_ (fun _ => trivial) fun _ _ => trivial
  rw [slotOf_concat]
  exact ⟨hconfined.trans confined_of_erase, trivial⟩

theorem Finds.takeBack_confined (h : s.Finds name m dir file bytes mode) (keepBackup : Bool) :
    Attempt.Ensures frail (Confined dir file m) (s.takeBack name keepBackup) (fun _ _ => True)
      (fun _ _ => True) m := by
  refine takeBack_ensures (h.restore_confined.mono ?_ ?_)
  · intro detail m₁ hreplaced
    obtain ⟨saved, hreplaced⟩ := hreplaced
    refine ⟨fun _ => trivial, fun _ => ?_⟩
    exact (h.replaced hreplaced).discardBackup_confined (confined_of_replaced (.inl rfl) hreplaced)
  · intro e m' _
    cases e with
    | _ => trivial

/-- **An operation stays within the footprint of its artifact.** -/
theorem Finds.performs_confined (h : s.Finds name m dir file bytes mode) {op : Operation}
    (hperform : s.Performs name frail op m m') : Confined dir file m m' := by
  have hm := Confined.refl dir file m
  cases op with
  | backup => exact h.backup_confined.passes hm hperform
  | write text => exact (h.write_confined text).passes hm hperform
  | apply rules => exact (h.applyRules_confined rules).passes hm hperform
  | restore => exact h.restore_confined.passes hm hperform
  | takeBack keepBackup => exact (h.takeBack_confined keepBackup).passes hm hperform
  | discardBackup => exact (h.discardBackup_confined hm).passes hm hperform

/-- An operation on an artifact that is not found does nothing. -/
theorem performs_of_not_finds (hnot : ∀ dir file bytes mode, ¬s.Finds name m dir file bytes mode)
    {op : Operation} (hperform : s.Performs name frail op m m') : m' = m := by
  have hresolve {α : Type} (f : Location → Attempt StoreError α) :
      Attempt.Ensures frail (fun m' => m' = m) (s.resolve name >>= f) (fun _ _ => False)
        (fun _ m' => m' = m) m := resolve_bind_ensures rfl hnot
  cases op with
  | backup => exact (hresolve _).passes rfl hperform
  | write text => exact (hresolve _).passes rfl hperform
  | apply rules =>
      exact (applyRules_ensures_of_not_finds (I := fun m' => m' = m) rfl hnot).passes rfl hperform
  | restore => exact (hresolve _).passes rfl hperform
  | takeBack keepBackup =>
      have htake : Attempt.Ensures frail (fun m' => m' = m) (s.takeBack name keepBackup)
          (fun _ _ => True) (fun _ _ => True) m :=
        takeBack_ensures_of_not_finds rfl hnot (fun _ _ => trivial) fun _ => trivial
      exact htake.passes rfl hperform
  | discardBackup =>
      have hslot : Attempt.Ensures frail (fun m' => m' = m) (s.backupSlot name)
          (fun _ _ => False) (fun _ m' => m' = m) m := hresolve _
      have hdiscard : Attempt.Ensures frail (fun m' => m' = m) (s.discardBackup name)
          (fun _ _ => False) (fun _ m' => m' = m) m :=
        Attempt.ensures_bind (hslot.mono (fun _ _ h => h.elim) fun _ _ h => h)
      exact hdiscard.passes rfl hperform

theorem Performs.makesFiles {op : Operation} (h : s.Performs name frail op m m') :
    m.tree.MakesFiles m'.tree :=
  Procedure.Passes.makesFiles h

/-! ## §3. Two artifacts. -/

section

variable {a b : String} {op : Operation}

/-- Neither of two artifacts is the other, or stands in the other's slot. -/
def Apart (s : Store) (m : Machine) (a b : String) : Prop :=
  ∀ liveA liveB, ((s.resolve a).exec m).1 = .ok liveA → ((s.resolve b).exec m).1 = .ok liveB →
    liveA ≠ liveB ∧ slotOf liveA ≠ liveB ∧ liveA ≠ slotOf liveB

/-- Other artifacts keep their places. -/
theorem Confined.get?_eq {dir' : Location} {place : String} (h : Confined dir file m m')
    (hlive : dir' ++ [place] ≠ dir ++ [file]) (hslot : dir' ++ [place] ≠ dir ++ [slotName file])
    (htemp : (∀ n, place ≠ tempName n) ∨ m.tree.get? (dir' ++ [place]) ≠ none) :
    m'.tree.get? (dir' ++ [place]) = m.tree.get? (dir' ++ [place]) := by
  refine h _ hlive hslot fun n hn => ?_
  rcases htemp with hname | hnode
  · exact absurd (Location.concat_inj hn).2 (hname n)
  · exact hnode

/-- Nothing happens to an artifact that is apart, nor to its slot. -/
theorem Performs.same_of_apart (hperform : s.Performs a frail op m m') (hapart : s.Apart m a b)
    (hb : s.Finds b m dir file bytes mode) :
    m'.tree.get? (dir ++ [file]) = m.tree.get? (dir ++ [file]) ∧
      m'.tree.get? (dir ++ [slotName file]) = m.tree.get? (dir ++ [slotName file]) := by
  by_cases hfound : ∃ dir' file' bytes mode, s.Finds a m dir' file' bytes mode
  · obtain ⟨dir', file', bytes', mode', ha⟩ := hfound
    have hconfined := ha.performs_confined hperform
    obtain ⟨hlive, hslot, hback⟩ := hapart _ _ ha.exec_resolve hb.exec_resolve
    rw [slotOf_concat] at hslot hback
    refine ⟨hconfined.get?_eq (Ne.symm hlive) (Ne.symm hslot) (.inr ?_),
      hconfined.get?_eq (Ne.symm hback) ?_ (.inl (slotName_ne_tempName file))⟩
    · rw [hb.hasFile.node]
      exact Option.some_ne_none _
    · -- a slot belongs to one file only
      intro hslots
      obtain ⟨rfl, rfl⟩ := slot_inj hslots
      exact hlive rfl
  · have hsame : m' = m := performs_of_not_finds (fun dir' file' bytes' mode' ha =>
      hfound ⟨dir', file', bytes', mode', ha⟩) hperform
    rw [hsame]
    exact ⟨rfl, rfl⟩

/-- **Artifacts that are apart do not interfere.**  Wherever an operation on one
artifact is stopped and whichever calls fail: another artifact that neither is
the first nor stands in its slot, and in whose slot the first does not stand, is
as it was, and so is its slot.  And an artifact that is found where it was not
found before stands in the slot of the first, or is its temporary file. -/
theorem others_untouched (hperform : s.Performs a frail op m m') :
    (s.Apart m a b → ∀ liveB, ((s.resolve b).exec m).1 = .ok liveB →
      m'.tree.get? liveB = m.tree.get? liveB ∧
        m'.tree.get? (slotOf liveB) = m.tree.get? (slotOf liveB)) ∧
    ∀ liveB, ((s.resolve b).exec m').1 = .ok liveB → ((s.resolve b).exec m).1 ≠ .ok liveB →
      ∃ liveA, ((s.resolve a).exec m).1 = .ok liveA ∧ (liveB = slotOf liveA ∨
        ∃ n, liveB = liveA.parent ++ [tempName n] ∧ m.tree.get? liveB = none) := by
  refine ⟨?_, ?_⟩
  · intro hapart liveB hresolve
    obtain ⟨-, dir, file, bytes, mode, rfl, hb⟩ := exec_resolve_eq_ok_iff.1 (Prod.ext hresolve rfl)
    rw [slotOf_concat]
    exact hperform.same_of_apart hapart hb
  · intro liveB hafter hbefore
    obtain ⟨-, dir, file, bytes, mode, rfl, hb⟩ := exec_resolve_eq_ok_iff.1 (Prod.ext hafter rfl)
    -- there was no file in this place, or the artifact would have been found there
    have hnew (bytes' : ByteArray) (mode' : Mode) :
        m.tree.get? (dir ++ [file]) ≠ some (.file bytes' mode') := by
      intro hnode
      exact hbefore (hb.recedes hperform.makesFiles hnode).exec_resolve
    have hchanged : m'.tree.get? (dir ++ [file]) ≠ m.tree.get? (dir ++ [file]) := by
      rw [hb.hasFile.node]
      exact Ne.symm (hnew bytes mode)
    by_cases hfound : ∃ dir' file' bytes mode, s.Finds a m dir' file' bytes mode
    · obtain ⟨dir', file', bytes', mode', ha⟩ := hfound
      refine ⟨dir' ++ [file'], ha.exec_resolve, ?_⟩
      rw [slotOf_concat, Location.parent_concat]
      by_contra hout
      obtain ⟨hslot, htemp⟩ := not_or.1 hout
      refine hchanged (ha.performs_confined hperform _ ?_ hslot fun n hn hnone => ?_)
      · intro hlive
        exact hnew bytes' mode' (hlive ▸ ha.hasFile.node)
      · exact htemp ⟨n, hn, hnone⟩
    · refine absurd ?_ hchanged
      have hsame : m' = m := performs_of_not_finds (fun dir' file' bytes' mode' ha =>
        hfound ⟨dir', file', bytes', mode', ha⟩) hperform
      rw [hsame]

end

/-- A profile with two artifacts, the second at any path. -/
def sampleTwins (path : String) : Profile :=
  { Profile.empty with
    package := "pkg"
    artifacts := [⟨"main", "cli.js"⟩, ⟨"other", path⟩]
    rules := [⟨"guard", "main", none, "call($A)", "guard($A)", 1, none⟩] }

/-- The store of their package. -/
def sampleTwinStore (path : String) : Store :=
  ⟨⟨["pkg"]⟩, (sampleTwins path).artifacts⟩

/-- A package with two files. -/
def sampleShelf : Machine :=
  ⟨⟨[(["pkg"], .directory 0o755), (["pkg", "cli.js"], .file (Text.encode "call(a);".toList) 0o644),
    (["pkg", "lib.js"], .file (Text.encode "call(b);".toList) 0o644)]⟩, []⟩

/-- One of two files is patched, and the other stays as it is. -/
theorem others_untouched_sample : ∃ m',
    (sampleTwinStore "lib.js").Performs "main" (fun _ => True) (.apply [sampleRule]) sampleShelf m' ∧
      m'.tree.get? ["pkg", "cli.js"] = some (.file (Text.encode "guard(a);".toList) 0o644) ∧
      m'.tree.get? ["pkg", "lib.js"] = some (.file (Text.encode "call(b);".toList) 0o644) := by
  have hmain : (((sampleTwinStore "lib.js").resolve "main").exec sampleShelf).1
      = .ok ["pkg", "cli.js"] := by decide +kernel
  have hother : (((sampleTwinStore "lib.js").resolve "other").exec sampleShelf).1
      = .ok ["pkg", "lib.js"] := by decide +kernel
  have hapart : (sampleTwinStore "lib.js").Apart sampleShelf "main" "other" := by
    intro liveA liveB hliveA hliveB
    obtain rfl := Except.ok.inj (hmain.symm.trans hliveA)
    obtain rfl := Except.ok.inj (hother.symm.trans hliveB)
    decide
  have hperform : (sampleTwinStore "lib.js").Performs "main" (fun _ => True) (.apply [sampleRule])
      sampleShelf (((sampleTwinStore "lib.js").applyRules "main" [sampleRule]).exec sampleShelf).2 :=
    (Procedure.ends_run _ _ _).passes
  refine ⟨_, hperform, by decide +kernel, ?_⟩
  rw [((others_untouched hperform).1 hapart _ hother).1]
  decide +kernel

/-- The second artifact of a profile without issues is the slot of the first: the
backup of the first makes it appear, and patching it patches the backup. -/
theorem backup_overwritten_as_artifact : (sampleTwins "cli.js.bak").issues = [] ∧
    ∃ m₁ plan m₂, ((sampleTwinStore "cli.js.bak").backup "main").exec sampleShelf
        = (.ok (.created ["pkg", "cli.js.bak"]), m₁) ∧
      (((sampleTwinStore "cli.js.bak").resolve "other").exec m₁).1 = .ok ["pkg", "cli.js.bak"] ∧
      m₁.tree.get? ["pkg", "cli.js.bak"] = some (.file (Text.encode "call(a);".toList) 0o644) ∧
      ((sampleTwinStore "cli.js.bak").applyRules "other" [sampleRule]).exec m₁ = (.ok plan, m₂) ∧
      m₂.tree.get? ["pkg", "cli.js.bak"] = some (.file (Text.encode "guard(a);".toList) 0o644) := by
  have hcreated : (((sampleTwinStore "cli.js.bak").backup "main").exec sampleShelf).1
      = .ok (.created ["pkg", "cli.js.bak"]) := by decide +kernel
  have hfound : (((sampleTwinStore "cli.js.bak").resolve "other").exec
      (((sampleTwinStore "cli.js.bak").backup "main").exec sampleShelf).2).1
        = .ok ["pkg", "cli.js.bak"] := by decide +kernel
  have hsaved : (((sampleTwinStore "cli.js.bak").backup "main").exec sampleShelf).2.tree.get?
      ["pkg", "cli.js.bak"] = some (.file (Text.encode "call(a);".toList) 0o644) := by
    decide +kernel
  have hok : (((sampleTwinStore "cli.js.bak").applyRules "other" [sampleRule]).exec
      (((sampleTwinStore "cli.js.bak").backup "main").exec sampleShelf).2).1.isOk = true := by
    decide +kernel
  have hlost : (((sampleTwinStore "cli.js.bak").applyRules "other" [sampleRule]).exec
      (((sampleTwinStore "cli.js.bak").backup "main").exec sampleShelf).2).2.tree.get?
        ["pkg", "cli.js.bak"] = some (.file (Text.encode "guard(a);".toList) 0o644) := by
    decide +kernel
  cases hbackup : ((sampleTwinStore "cli.js.bak").backup "main").exec sampleShelf with
  | mk outcome m₁ =>
      rw [hbackup] at hcreated hfound hsaved hok hlost
      cases hrun : ((sampleTwinStore "cli.js.bak").applyRules "other" [sampleRule]).exec m₁ with
      | mk result m₂ =>
          dsimp only at hok hlost
          rw [hrun] at hok hlost
          cases result with
          | error e => cases hok
          | ok plan =>
              exact ⟨by decide +kernel, m₁, plan, m₂, Prod.ext hcreated rfl, hfound, hsaved, hrun,
                hlost⟩

end Store

end ArtifactPatch
