/-
  ArtifactPatch.Proofs.Patch.Recovery
  ───────────────────────────────────
  **WHEN THE ORIGINAL IS NEVER LOST.**

  An artifact starts without a backup.  Whatever is asked of it afterwards, in
  whatever order, and wherever a call fails or the work is stopped for good:
  the artifact is as it was and has no backup, or the backup slot holds a file
  with its original bytes.  One failure is an exception.  A look at the slot
  that fails passes for an empty slot, and then a changed artifact is copied
  over the backup (`backup_overwritten`).  `original_recoverable_iff` says
  exactly when this cannot happen.

  The invariant is `Store.Recoverable`.  It survives a temporary file
  (`Recoverable.aside`), a backup of the original (`Recoverable.backed_up`), a
  write under a backup (`Saved.replaced`) and the removal of a backup that was
  copied back (`Recoverable.discarded`).  A request does nothing else to the
  tree, unless it finds the artifact exposed (`Exposed`) and cannot look at the
  slot.
-/
import ArtifactPatch.Proofs.Except
import ArtifactPatch.Proofs.Patch.Requests

namespace ArtifactPatch

/-! ## §1. Sessions with an artifact. -/

/-- What may be asked of an artifact. -/
inductive Request where
  | apply (rules : List Rule)
  | plan (rules : List Rule)
  | verify (es : List Expectation)
  | restore (keepBackup : Bool)

namespace Store

/-- The states in which a request may be stopped, its end among them. -/
def Serves (s : Store) (name : String) (frail : Call → Prop) : Request → Machine → Machine → Prop
  | .apply rules => Procedure.Passes frail (ExceptT.run (s.applyRules name rules))
  | .plan rules => Procedure.Passes frail (ExceptT.run (s.plan name rules))
  | .verify es => Procedure.Passes frail (ExceptT.run (s.verify name es))
  | .restore keepBackup => Procedure.Passes frail (ExceptT.run (s.takeBack name keepBackup))

/-- The states that requests reach, each carried out to its end or stopped
between two calls. -/
inductive Reaches (s : Store) (name : String) (frail : Call → Prop) (m₀ : Machine) : Machine → Prop
  | start : Reaches s name frail m₀ m₀
  | serve {m m' : Machine} (r : Request) (h : Reaches s name frail m₀ m)
      (hserve : s.Serves name frail r m m') : Reaches s name frail m₀ m'

/-! ## §2. The invariant. -/

/-- The backup slot holds the original, and can be looked at. -/
structure Saved (m : Machine) (dir : Location) (file : String) (bytes₀ : ByteArray)
    (mode₀ : Mode) : Prop where
  hasFile : m.HasFile dir (slotName file) bytes₀ mode₀
  text : (Route.ofLocation (dir ++ [slotName file])).checkText = .ok ()

/-- The artifact is the original without a backup, or there is a backup of the
original.  Nothing but the artifact was changed. -/
structure Recoverable (m₀ : Machine) (dir : Location) (file : String) (bytes₀ : ByteArray)
    (mode₀ : Mode) (m : Machine) : Prop where
  kept : ∀ k n, k ≠ dir ++ [file] → m₀.tree.get? k = some n → m.tree.get? k = some n
  live : ∃ bytes, m.tree.get? (dir ++ [file]) = some (.file bytes mode₀)
  original : Saved m dir file bytes₀ mode₀ ∨
    m.tree.get? (dir ++ [slotName file]) = none ∧
      m.tree.get? (dir ++ [file]) = some (.file bytes₀ mode₀)

section

variable {s : Store} {name : String} {m₀ m m' : Machine} {dir : Location} {file : String}
  {bytes₀ : ByteArray} {mode₀ : Mode}

theorem Saved.aside (h : Saved m dir file bytes₀ mode₀) {l : Location} (haside : m.Aside l m') :
    Saved m' dir file bytes₀ mode₀ :=
  ⟨⟨haside.folder h.hasFile.folder, h.hasFile.plain, haside.get?_eq_some h.hasFile.node⟩, h.text⟩

theorem Saved.stat (h : Saved m dir file bytes₀ mode₀) :
    m.stat (.ofLocation (dir ++ [slotName file])) = .ok ⟨.file, mode₀⟩ :=
  h.hasFile.stat (Route.spells_ofLocation _) h.text

theorem Saved.read (h : Saved m dir file bytes₀ mode₀) :
    m.read (.ofLocation (dir ++ [slotName file])) = .ok bytes₀ :=
  h.hasFile.read (Route.spells_ofLocation _) h.text

namespace Recoverable

/-- The tree around an artifact keeps its shape. -/
theorem persists (h : Recoverable m₀ dir file bytes₀ mode₀ m)
    (hlive : m₀.tree.get? (dir ++ [file]) = some (.file bytes₀ mode₀)) :
    m₀.tree.Persists m.tree := by
  intro l n hn
  refine .inr ?_
  by_cases hl : l = dir ++ [file]
  · subst hl
    rw [hlive] at hn
    obtain rfl := Option.some.inj hn
    obtain ⟨bytes, hbytes⟩ := h.live
    exact ⟨_, hbytes, trivial⟩
  · exact ⟨n, h.kept l n hl hn, Tree.SameShape.refl n⟩

/-- The artifact stays where it is. -/
theorem finds (h : Recoverable m₀ dir file bytes₀ mode₀ m)
    (hfinds : s.Finds name m₀ dir file bytes₀ mode₀) :
    ∃ bytes, s.Finds name m dir file bytes mode₀ := by
  obtain ⟨bytes, hbytes⟩ := h.live
  exact ⟨bytes, hfinds.persists (h.persists hfinds.hasFile.node) hbytes⟩

theorem start (hfinds : s.Finds name m₀ dir file bytes₀ mode₀)
    (hslot : m₀.tree.get? (dir ++ [slotName file]) = none) :
    Recoverable m₀ dir file bytes₀ mode₀ m₀ :=
  ⟨fun _ _ _ hn => hn, ⟨bytes₀, hfinds.hasFile.node⟩, .inr ⟨hslot, hfinds.hasFile.node⟩⟩

/-- A temporary file does no harm. -/
theorem aside (h : Recoverable m₀ dir file bytes₀ mode₀ m) {n : Nat}
    (haside : m.Aside (dir ++ [tempName n]) m') : Recoverable m₀ dir file bytes₀ mode₀ m' := by
  refine ⟨?_, ?_, ?_⟩
  · intro k node hk hnode
    exact haside.get?_eq_some (h.kept k node hk hnode)
  · obtain ⟨bytes, hbytes⟩ := h.live
    exact ⟨bytes, haside.get?_eq_some hbytes⟩
  · rcases h.original with hsaved | ⟨hnone, hlive⟩
    · exact .inl (hsaved.aside haside)
    · refine .inr ⟨?_, haside.get?_eq_some hlive⟩
      rw [haside.same _ (slot_ne_temp dir file n)]
      exact hnone

/-- A backup of the original is one, the first or another. -/
theorem backed_up (h : Recoverable m₀ dir file bytes₀ mode₀ m) (hdir : m.tree.IsFolder dir)
    (hslot : m₀.tree.get? (dir ++ [slotName file]) = none)
    (hlive : m.tree.get? (dir ++ [file]) = some (.file bytes₀ mode₀))
    (htakes : m.Takes dir (slotName file))
    (hreplaced : m.Replaced (dir ++ [slotName file]) bytes₀ mode₀ m') :
    Recoverable m₀ dir file bytes₀ mode₀ m' ∧ Saved m' dir file bytes₀ mode₀ := by
  have hkeep : m.tree.Persists m'.tree := by
    refine hreplaced.persists fun n hn => .inr ?_
    -- what stands in the slot, if anything does, is a backup
    rcases h.original with hsaved | ⟨hnone, -⟩
    · rw [hsaved.hasFile.node] at hn
      obtain rfl := Option.some.inj hn
      trivial
    · rw [hnone] at hn
      cases hn
  have hsaved : Saved m' dir file bytes₀ mode₀ :=
    ⟨⟨hdir.persists hkeep, ⟨slotName_ne_dot file, slotName_ne_dots file, htakes.short⟩,
      hreplaced.get?_self⟩, htakes.text⟩
  refine ⟨⟨?_, ⟨bytes₀, ?_⟩, .inl hsaved⟩, hsaved⟩
  · intro k n hk hn
    have hne : k ≠ dir ++ [slotName file] := by
      intro heq
      rw [heq, hslot] at hn
      cases hn
    rw [hreplaced.get?_of_ne hne]
    exact h.kept k n hk hn
  · rw [hreplaced.get?_of_ne (place_ne_slot dir file)]
    exact hlive

/-- Under a backup, the artifact may become anything. -/
theorem replaced (h : Recoverable m₀ dir file bytes₀ mode₀ m)
    (hsaved : Saved m dir file bytes₀ mode₀) {bytes : ByteArray}
    (hreplaced : m.Replaced (dir ++ [file]) bytes mode₀ m') :
    Recoverable m₀ dir file bytes₀ mode₀ m' ∧ Saved m' dir file bytes₀ mode₀ := by
  -- the slot lies beside the artifact, so the write leaves it alone
  obtain ⟨bytes', hbytes'⟩ := h.live
  have hkeep := hreplaced.persists_of_file hbytes'
  have hplace := place_ne_slot dir file
  have hsaved' : Saved m' dir file bytes₀ mode₀ := by
    refine ⟨⟨hsaved.hasFile.folder.persists hkeep, hsaved.hasFile.plain, ?_⟩, hsaved.text⟩
    rw [hreplaced.get?_of_ne (Ne.symm hplace)]
    exact hsaved.hasFile.node
  refine ⟨⟨?_, ⟨bytes, hreplaced.get?_self⟩, .inl hsaved'⟩, hsaved'⟩
  intro k n hk hn
  rw [hreplaced.get?_of_ne hk]
  exact h.kept k n hk hn

/-- A backup is not needed once the artifact is the original again. -/
theorem discarded (h : Recoverable m₀ dir file bytes₀ mode₀ m)
    (hslot : m₀.tree.get? (dir ++ [slotName file]) = none)
    (hlive : m.tree.get? (dir ++ [file]) = some (.file bytes₀ mode₀)) :
    Recoverable m₀ dir file bytes₀ mode₀ (m.withTree (m.tree.erase (dir ++ [slotName file]))) := by
  have herase (k : Location) : (m.withTree (m.tree.erase (dir ++ [slotName file]))).tree.get? k
      = if k = dir ++ [slotName file] then none else m.tree.get? k :=
    Tree.get?_erase (by simp) k
  have hplace := place_ne_slot dir file
  refine ⟨?_, ⟨bytes₀, ?_⟩, .inr ⟨?_, ?_⟩⟩
  · intro k n hk hn
    have hne : k ≠ dir ++ [slotName file] := by
      intro heq
      rw [heq, hslot] at hn
      cases hn
    rw [herase, if_neg hne]
    exact h.kept k n hk hn
  · rw [herase, if_neg hplace]
    exact hlive
  · rw [herase, if_pos rfl]
  · rw [herase, if_neg hplace]
    exact hlive

end Recoverable

/-- A changed artifact, beside a slot that can be written. -/
structure Exposed (m : Machine) (dir : Location) (file : String) (bytes₀ : ByteArray) : Prop where
  changed : ∃ bytes mode, m.tree.get? (dir ++ [file]) = some (.file bytes mode) ∧ bytes ≠ bytes₀
  writable : m.Writable dir (slotName file)

/-- An artifact that is not exposed beside a slot that can be written is the
original. -/
theorem Recoverable.live_of_not_exposed (h : Recoverable m₀ dir file bytes₀ mode₀ m)
    (hsafe : ¬Exposed m dir file bytes₀) (hwritable : m.Writable dir (slotName file)) :
    m.tree.get? (dir ++ [file]) = some (.file bytes₀ mode₀) := by
  obtain ⟨bytes, hbytes⟩ := h.live
  by_cases hchanged : bytes = bytes₀
  · rw [hbytes, hchanged]
  · exact absurd ⟨⟨bytes, mode₀, hbytes, hchanged⟩, hwritable⟩ hsafe

/-! ## §3. What each request ensures. -/

variable {frail : Call → Prop}

/-- **After a backup the original is saved**, and the artifact is as it was. -/
theorem Recoverable.backup_ensures (h : Recoverable m₀ dir file bytes₀ mode₀ m)
    (hfinds : s.Finds name m₀ dir file bytes₀ mode₀)
    (hslot : m₀.tree.get? (dir ++ [slotName file]) = none)
    (hlook : frail (.stat (.ofLocation (dir ++ [slotName file]))) → ¬Exposed m dir file bytes₀) :
    Attempt.Ensures frail (Recoverable m₀ dir file bytes₀ mode₀) (s.backup name)
      (fun _ m' => Recoverable m₀ dir file bytes₀ mode₀ m' ∧ Saved m' dir file bytes₀ mode₀)
      (fun _ _ => True) m := by
  obtain ⟨bytes, hnow⟩ := h.finds hfinds
  have hdir := hnow.hasFile.folder
  refine hnow.backup_ensures (fun n m' haside => h.aside haside) ?_ ?_ fun _ _ _ _ _ => trivial
  · -- something is seen in the slot, and only a backup can stand there
    intro st hst
    rw [slotOf_concat] at hst
    refine ⟨h, h.original.resolve_right ?_⟩
    intro hunsaved
    exact Machine.get?_ne_none_of_stat hdir (slotName_ne_dot file) (slotName_ne_dots file) hst
      hunsaved.1
  · -- nothing is seen: the slot is free, or the look at it failed beside the original
    intro hno hwritable m' hreplaced
    rw [slotOf_concat] at hno hreplaced
    have hlive : m.tree.get? (dir ++ [file]) = some (.file bytes₀ mode₀) := by
      rcases hno with hfrail | hunseen
      · exact h.live_of_not_exposed (hlook hfrail) hwritable
      · exact (h.original.resolve_left fun hsaved => hunseen _ hsaved.stat).2
    have hnode := hnow.hasFile.node
    rw [hlive] at hnode
    obtain ⟨rfl, -⟩ := Node.file.inj (Option.some.inj hnode)
    have hdone := h.backed_up hdir hslot hlive hwritable.target hreplaced
    exact ⟨hdone.1, hdone⟩

theorem Recoverable.applyRules_ensures (h : Recoverable m₀ dir file bytes₀ mode₀ m)
    (hfinds : s.Finds name m₀ dir file bytes₀ mode₀)
    (hslot : m₀.tree.get? (dir ++ [slotName file]) = none)
    (hlook : frail (.stat (.ofLocation (dir ++ [slotName file]))) → ¬Exposed m dir file bytes₀)
    (rules : List Rule) :
    Attempt.Ensures frail (Recoverable m₀ dir file bytes₀ mode₀) (s.applyRules name rules)
      (fun _ _ => True) (fun _ _ => True) m := by
  rw [applyRules_eq]
  refine Attempt.ensures_bind (Attempt.ensures_mapError
    ((h.backup_ensures hfinds hslot hlook).mono ?_ fun _ _ _ => trivial))
  intro o m₁ hbacked
  obtain ⟨h₁, hsaved⟩ := hbacked
  obtain ⟨bytes, hnow⟩ := h₁.finds hfinds
  refine hnow.planAndWrite_ensures (fun n m' haside => h₁.aside haside) ?_
    (fun _ _ _ _ _ => trivial) (fun _ _ _ _ => trivial) fun _ _ _ _ _ => trivial
  intro raw plan text m' _ _ _ _ hreplaced
  exact ⟨(h₁.replaced hsaved hreplaced).1, trivial⟩

theorem Recoverable.plan_ensures (h : Recoverable m₀ dir file bytes₀ mode₀ m)
    (hfinds : s.Finds name m₀ dir file bytes₀ mode₀) (rules : List Rule) :
    Attempt.Ensures frail (Recoverable m₀ dir file bytes₀ mode₀) (s.plan name rules)
      (fun _ _ => True) (fun _ _ => True) m := by
  obtain ⟨bytes, hnow⟩ := h.finds hfinds
  exact hnow.plan_ensures h (fun _ _ _ _ => trivial) (fun _ _ _ _ => trivial) fun _ _ => trivial

theorem Recoverable.verify_ensures (h : Recoverable m₀ dir file bytes₀ mode₀ m)
    (hfinds : s.Finds name m₀ dir file bytes₀ mode₀) (es : List Expectation) :
    Attempt.Ensures frail (Recoverable m₀ dir file bytes₀ mode₀) (s.verify name es)
      (fun _ _ => True) (fun _ _ => True) m := by
  obtain ⟨bytes, hnow⟩ := h.finds hfinds
  exact Attempt.ensures_bind (hnow.read_ensures h (fun _ _ => trivial) fun _ _ => trivial)

/-- **A restoration that is reported is one**: the artifact is the original. -/
theorem Recoverable.takeBack_ensures (h : Recoverable m₀ dir file bytes₀ mode₀ m)
    (hfinds : s.Finds name m₀ dir file bytes₀ mode₀)
    (hslot : m₀.tree.get? (dir ++ [slotName file]) = none) (keepBackup : Bool) :
    Attempt.Ensures frail (Recoverable m₀ dir file bytes₀ mode₀) (s.takeBack name keepBackup)
      (fun outcome m' => ∀ detail kept, outcome = .restored detail kept →
        m'.tree.get? (dir ++ [file]) = some (.file bytes₀ mode₀)) (fun _ _ => True) m := by
  obtain ⟨bytes, hnow⟩ := h.finds hfinds
  refine Store.takeBack_ensures (hnow.restore_ensures (fun n m' haside => h.aside haside) ?_ ?_)
  · intro saved m₁ hread _ hreplaced
    rw [slotOf_concat] at hread
    -- only a backup can be read from the slot, and it holds the original
    have hsaved : Saved m dir file bytes₀ mode₀ := by
      refine h.original.resolve_right fun hunsaved => ?_
      obtain ⟨l, mode, hlocate, hnode⟩ := Machine.read_eq_ok_iff.1 hread
      exact Machine.get?_ne_none_of_stat hnow.hasFile.folder (slotName_ne_dot file)
        (slotName_ne_dots file) (Machine.stat_eq_file_iff.2 ⟨l, saved, hlocate, hnode⟩) hunsaved.1
    rw [hsaved.read] at hread
    obtain rfl := Except.ok.inj hread
    obtain ⟨h₁, -⟩ := h.replaced hsaved hreplaced
    have hlive := hreplaced.get?_self
    refine ⟨h₁, ?_, ?_⟩
    · intro _ detail kept _
      exact hlive
    · intro _
      obtain ⟨bytes₁, hnow₁⟩ := h₁.finds hfinds
      -- the backup goes only now that the artifact is the original again
      refine hnow₁.discardBackup_ensures h₁ ?_ ?_ fun _ _ => trivial
      · rw [slotOf_concat]
        have hgone := h₁.discarded hslot hlive
        refine ⟨hgone, ?_⟩
        intro detail kept _
        show (m₁.tree.erase (dir ++ [slotName file])).get? (dir ++ [file]) = _
        rw [Tree.get?_erase (by simp), if_neg (place_ne_slot dir file)]
        exact hlive
      · intro _ detail kept _
        exact hlive
  · intro _ e n m' _
    cases e with
    | noBackup artifact path =>
        intro detail kept hrestored
        cases hrestored
    | _ => trivial

/-- A request keeps the original recoverable, wherever it is stopped. -/
theorem Recoverable.serves (h : Recoverable m₀ dir file bytes₀ mode₀ m)
    (hfinds : s.Finds name m₀ dir file bytes₀ mode₀)
    (hslot : m₀.tree.get? (dir ++ [slotName file]) = none)
    (hlook : frail (.stat (.ofLocation (dir ++ [slotName file]))) → ¬Exposed m dir file bytes₀)
    {r : Request} (hserve : s.Serves name frail r m m') :
    Recoverable m₀ dir file bytes₀ mode₀ m' := by
  cases r with
  | apply rules => exact (h.applyRules_ensures hfinds hslot hlook rules).passes h hserve
  | plan rules => exact (h.plan_ensures hfinds rules).passes h hserve
  | verify es => exact (h.verify_ensures hfinds es).passes h hserve
  | restore keepBackup => exact (h.takeBack_ensures hfinds hslot keepBackup).passes h hserve

/-- An exposed artifact is copied over its backup, where the look at the slot
fails. -/
theorem Recoverable.lost_of_exposed (h : Recoverable m₀ dir file bytes₀ mode₀ m)
    (hfinds : s.Finds name m₀ dir file bytes₀ mode₀)
    (hfrail : frail (.stat (.ofLocation (dir ++ [slotName file]))))
    (hexposed : Exposed m dir file bytes₀) :
    ∃ m', s.Serves name frail (.apply []) m m' ∧ ∃ bytes mode,
      m'.tree.get? (dir ++ [slotName file]) = some (.file bytes mode) ∧ bytes ≠ bytes₀ := by
  obtain ⟨bytes, hnow⟩ := h.finds hfinds
  obtain ⟨o, m', hbackup, hreplaced⟩ := hnow.backup_ends_of_frail hfrail hexposed.writable
  refine ⟨m', ?_, bytes, mode₀, hreplaced.get?_self, ?_⟩
  · -- the backup is the first thing that an application does
    show Procedure.Passes frail (ExceptT.run (s.applyRules name [])) m m'
    rw [applyRules_eq]
    exact Attempt.passes_bind (Attempt.ends_mapError hbackup) (.start _ m')
  · obtain ⟨bytes', mode', hbytes', hchanged⟩ := hexposed.changed
    rw [hnow.hasFile.node] at hbytes'
    obtain ⟨rfl, -⟩ := Node.file.inj (Option.some.inj hbytes')
    exact hchanged

/-! ## §4. Sessions. -/

/-- A session keeps the original recoverable, unless it passes a state in which
the artifact is exposed and the look at its slot may fail. -/
theorem recoverable_or_exposed (hfinds : s.Finds name m₀ dir file bytes₀ mode₀)
    (hslot : m₀.tree.get? (dir ++ [slotName file]) = none)
    (hreach : s.Reaches name frail m₀ m) :
    Recoverable m₀ dir file bytes₀ mode₀ m ∨
      frail (.stat (.ofLocation (dir ++ [slotName file]))) ∧ ∃ m₁, s.Reaches name frail m₀ m₁ ∧
        Recoverable m₀ dir file bytes₀ mode₀ m₁ ∧ Exposed m₁ dir file bytes₀ := by
  induction hreach with
  | start => exact .inl (.start hfinds hslot)
  | @serve m₁ m' r hbefore hserve ih =>
      rcases ih with h | hearlier
      · by_cases hexposed :
            frail (.stat (.ofLocation (dir ++ [slotName file]))) ∧ Exposed m₁ dir file bytes₀
        · exact .inr ⟨hexposed.1, m₁, hbefore, h, hexposed.2⟩
        · exact .inl (h.serves hfinds hslot (not_and.1 hexposed) hserve)
      · exact .inr hearlier

/-- What a session owes to an artifact that held `bytes₀`: it is the original and
has no backup, or its slot holds the original.  So an artifact that was changed
has the original in its slot, and a restoration that is reported has brought the
original back. -/
structure OriginalKept (s : Store) (name : String) (frail : Call → Prop) (live : Location)
    (bytes₀ : ByteArray) (m : Machine) : Prop where
  original : (m.tree.get? (slotOf live) = none ∧
      ∃ mode, m.tree.get? live = some (.file bytes₀ mode)) ∨
    ∃ mode, m.tree.get? (slotOf live) = some (.file bytes₀ mode)
  changed : ∃ bytes mode, m.tree.get? live = some (.file bytes mode) ∧
    (bytes ≠ bytes₀ → ∃ mode', m.tree.get? (slotOf live) = some (.file bytes₀ mode'))
  restored : ∀ keepBackup detail kept m',
    Procedure.Ends frail (ExceptT.run (s.takeBack name keepBackup)) m
      (.ok (.restored detail kept)) m' →
    ∃ mode, m'.tree.get? live = some (.file bytes₀ mode)

theorem Recoverable.originalKept (h : Recoverable m₀ dir file bytes₀ mode₀ m)
    (hfinds : s.Finds name m₀ dir file bytes₀ mode₀)
    (hslot : m₀.tree.get? (dir ++ [slotName file]) = none) :
    OriginalKept s name frail (dir ++ [file]) bytes₀ m := by
  refine ⟨?_, ?_, ?_⟩
  · rw [slotOf_concat]
    rcases h.original with hsaved | ⟨hnone, horiginal⟩
    · exact .inr ⟨mode₀, hsaved.hasFile.node⟩
    · exact .inl ⟨hnone, mode₀, horiginal⟩
  · obtain ⟨bytes, hbytes⟩ := h.live
    refine ⟨bytes, mode₀, hbytes, ?_⟩
    intro hchanged
    rw [slotOf_concat]
    refine ⟨mode₀, (h.original.resolve_right ?_).hasFile.node⟩
    intro horiginal
    rw [horiginal.2] at hbytes
    exact hchanged (Node.file.inj (Option.some.inj hbytes)).1.symm
  · intro keepBackup detail kept m' hends
    exact ⟨mode₀, (h.takeBack_ensures hfinds hslot keepBackup).ends hends detail kept rfl⟩

/-- **When the original is never lost.**  An artifact had no backup.  After any
requests, each carried out or stopped between two calls, and with any of the
calls in `frail` failing, the original is kept, exactly if no session comes to a
state in which the artifact is changed, its slot can be written, and the look at
the slot may fail. -/
theorem original_recoverable_iff {live : Location}
    (hresolve : ((s.resolve name).exec m₀).1 = .ok live)
    (hlive : m₀.tree.get? live = some (.file bytes₀ mode₀))
    (hslot : m₀.tree.get? (slotOf live) = none) :
    (∀ m, s.Reaches name frail m₀ m → OriginalKept s name frail live bytes₀ m) ↔
      ¬(frail (.stat (.ofLocation (slotOf live))) ∧ ∃ m dir file, s.Reaches name frail m₀ m ∧
        live = dir ++ [file] ∧ Exposed m dir file bytes₀) := by
  obtain ⟨-, dir, file, bytes, mode, rfl, hfinds⟩ :=
    exec_resolve_eq_ok_iff.1 (Prod.ext hresolve rfl)
  have hnode := hfinds.hasFile.node
  rw [hlive] at hnode
  obtain ⟨rfl, rfl⟩ := Node.file.inj (Option.some.inj hnode)
  rw [slotOf_concat] at hslot ⊢
  constructor
  · intro hkept hlost
    obtain ⟨hfrail, m, dir', file', hreach, hplace, hexposed⟩ := hlost
    obtain ⟨rfl, rfl⟩ := Location.concat_inj hplace
    -- the first exposed state of the session is still recoverable
    obtain ⟨m₁, hreach₁, h₁, hexposed₁⟩ : ∃ m₁, s.Reaches name frail m₀ m₁ ∧
        Recoverable m₀ dir file bytes₀ mode₀ m₁ ∧ Exposed m₁ dir file bytes₀ := by
      rcases recoverable_or_exposed hfinds hslot hreach with h | ⟨-, hearlier⟩
      · exact ⟨m, hreach, h, hexposed⟩
      · exact hearlier
    obtain ⟨m', hserve, bytes, mode, hbytes, hchanged⟩ :=
      h₁.lost_of_exposed hfinds hfrail hexposed₁
    have horiginal := (hkept m' (.serve _ hreach₁ hserve)).original
    rw [slotOf_concat, hbytes] at horiginal
    rcases horiginal with ⟨hnone, -⟩ | ⟨mode', hsaved⟩
    · cases hnone
    · exact hchanged (Node.file.inj (Option.some.inj hsaved)).1
  · intro hsafe m hreach
    rcases recoverable_or_exposed hfinds hslot hreach with h | ⟨hfrail, m₁, hreach₁, -, hexposed⟩
    · exact h.originalKept hfinds hslot
    · exact absurd ⟨hfrail, m₁, dir, file, hreach₁, rfl, hexposed⟩ hsafe

end

/-- After a patch of the small package, its slot holds the original, whatever
else may fail. -/
theorem original_recoverable_sample :
    ∃ mode, ((samplePackage.applyRules "cli" [sampleRule]).exec (sampleDisk [])).2.tree.get?
      ["pkg", "cli.js.bak"] = some (.file (Text.encode "call(a);".toList) mode) := by
  have hresolve : ((samplePackage.resolve "cli").exec (sampleDisk [])).1
      = .ok ["pkg", "cli.js"] := by decide +kernel
  have hlive : (sampleDisk []).tree.get? ["pkg", "cli.js"]
      = some (.file (Text.encode "call(a);".toList) 0o644) := by decide +kernel
  have hserve : samplePackage.Serves "cli" (· ≠ .stat (.ofLocation ["pkg", "cli.js.bak"]))
      (.apply [sampleRule]) (sampleDisk [])
      ((samplePackage.applyRules "cli" [sampleRule]).exec (sampleDisk [])).2 :=
    (Procedure.ends_run _ _ _).passes
  have hpatched : ((samplePackage.applyRules "cli" [sampleRule]).exec (sampleDisk [])).2.tree.get?
      ["pkg", "cli.js"] = some (.file (Text.encode "guard(a);".toList) 0o644) := by decide +kernel
  have hslot : slotOf ["pkg", "cli.js"] = ["pkg", "cli.js.bak"] := by decide +kernel
  have hkept := (original_recoverable_iff hresolve hlive (by decide +kernel)).2 ?_ _
    (.serve _ .start hserve)
  · obtain ⟨bytes, mode, hbytes, hsaved⟩ := hkept.changed
    rw [hpatched] at hbytes
    obtain ⟨rfl, -⟩ := Node.file.inj (Option.some.inj hbytes)
    exact hsaved (by decide +kernel)
  · intro hlost
    exact hlost.1 (by rw [hslot])

/-- The small package is patched twice.  The second time the look at the slot
fails: nothing matches, and nothing is left of the original. -/
theorem backup_overwritten :
    (sampleDisk []).tree.get? ["pkg", "cli.js"]
      = some (.file (Text.encode "call(a);".toList) 0o644) ∧
    (sampleDisk []).tree.get? ["pkg", "cli.js.bak"] = none ∧ ∃ plan m₁ failures m₂,
    (samplePackage.applyRules "cli" [sampleRule]).exec (sampleDisk []) = (.ok plan, m₁) ∧
    Procedure.Ends sampleBlindness (ExceptT.run (samplePackage.applyRules "cli" [sampleRule])) m₁
      (.error (.mismatch "cli" failures)) m₂ ∧
    samplePackage.Reaches "cli" sampleBlindness (sampleDisk []) m₂ ∧
    m₂.tree.get? ["pkg", "cli.js"] = some (.file (Text.encode "guard(a);".toList) 0o644) ∧
    m₂.tree.get? ["pkg", "cli.js.bak"] = some (.file (Text.encode "guard(a);".toList) 0o644) := by
  have hok : ((samplePackage.applyRules "cli" [sampleRule]).exec (sampleDisk [])).1.isOk
      = true := by decide +kernel
  obtain ⟨plan, m₁, hfirst⟩ := Attempt.exec_of_isOk hok
  have hm₁ : ((samplePackage.applyRules "cli" [sampleRule]).exec (sampleDisk [])).2 = m₁ := by
    rw [hfirst]
  have hresolve : ((samplePackage.resolve "cli").exec m₁).1 = .ok ["pkg", "cli.js"] := by
    rw [← hm₁]
    decide +kernel
  -- what the second application does after its look has failed
  have hcreated : ((saveCopy ["pkg", "cli.js"]).exec m₁).1
      = .ok (.created ["pkg", "cli.js.bak"]) := by
    rw [← hm₁]
    decide +kernel
  obtain ⟨m', hm'⟩ : ∃ m', ((saveCopy ["pkg", "cli.js"]).exec m₁).2 = m' := ⟨_, rfl⟩
  have hshort : ((samplePackage.planAndWrite "cli" [sampleRule]
      (.created ["pkg", "cli.js.bak"])).exec m').1.map (fun _ => ())
        = .error (.mismatch "cli" [⟨"guard", 0, .belowMinimum 1, []⟩]) := by
    rw [← hm', ← hm₁]
    decide +kernel
  obtain ⟨m₂, hm₂⟩ : ∃ m₂, ((samplePackage.planAndWrite "cli" [sampleRule]
    (.created ["pkg", "cli.js.bak"])).exec m').2 = m₂ := ⟨_, rfl⟩
  have hends : Procedure.Ends sampleBlindness _ m₁ _ m₂ :=
    applyRules_ends_of_frail hresolve rfl (Prod.ext hcreated hm')
      (Prod.ext (Except.error_of_map_eq_error hshort) hm₂)
  have hserve : samplePackage.Serves "cli" sampleBlindness (.apply [sampleRule])
      (sampleDisk []) m₁ := (Attempt.ends_of_exec _ hfirst).passes
  refine ⟨by decide +kernel, by decide +kernel, plan, m₁, _, m₂, hfirst, hends,
    .serve (.apply [sampleRule]) (.serve _ .start hserve) hends.passes, ?_⟩
  rw [← hm₂, ← hm', ← hm₁]
  decide +kernel

end Store

end ArtifactPatch
