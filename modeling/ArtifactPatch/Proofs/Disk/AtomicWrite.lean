/-
  ArtifactPatch.Proofs.Disk.AtomicWrite
  ─────────────────────────────────────
  **WRITING A FILE AS A WHOLE IS ATOMIC.**

  Until the file is moved, the machine is the one before with one more file, where
  nothing was (`Throughout`).  A failure gives the temporary file up, which gives
  back the machine before unless that fails as well (`Machine.Undone`).  Once the
  file is moved, the machine is the one before with the new file in place and no
  trace of the temporary one.  `atomicWrite_ensures_at` says so for every route,
  for frail calls, torn writes and stops anywhere; `atomicWrite_ensures` is what a
  store needs of it, in terms of the nodes of the tree (`Machine.Aside`,
  `Machine.Replaced`, `Machine.GivenUp`).
-/
import ArtifactPatch.Disk.AtomicWrite
import ArtifactPatch.Proofs.Disk.Temporary
import ArtifactPatch.Proofs.Disk.Procedure

namespace ArtifactPatch

/-! ## §1. Trees that differ beside a file. -/

namespace Machine

/-- The same tree but for one place, which was free. -/
structure Aside (l : Location) (m m' : Machine) : Prop where
  free : m.tree.get? l = none
  same : ∀ k, k ≠ l → m'.tree.get? k = m.tree.get? k

variable {l : Location} {m m' : Machine}

theorem Aside.refl (h : m.tree.get? l = none) : Aside l m m := ⟨h, fun _ _ => rfl⟩

theorem Aside.ne_nil (h : Aside l m m') : l ≠ [] :=
  Tree.ne_nil_of_free h.free

theorem Aside.put (h : Aside l m m') (n : Node) : Aside l m (m'.withTree (m'.tree.put l n)) := by
  refine ⟨h.free, fun k hk => ?_⟩
  show (m'.tree.put l n).get? k = _
  rw [Tree.get?_put h.ne_nil, if_neg hk]
  exact h.same k hk

/-- What stood anywhere before still stands there. -/
theorem Aside.get?_eq_some (h : Aside l m m') {k : Location} {n : Node}
    (hk : m.tree.get? k = some n) : m'.tree.get? k = some n := by
  have hne : k ≠ l := by
    intro heq
    rw [heq, h.free] at hk
    cases hk
  rw [h.same k hne, hk]

theorem Aside.folder (h : Aside l m m') {dir : Location} (hdir : m.tree.IsFolder dir) :
    m'.tree.IsFolder dir := by
  induction hdir with
  | root => exact .root
  | child _ hname hnode ih => exact .child ih hname (h.get?_eq_some hnode)

/-- The tree with a file at a place. -/
def Replaced (m : Machine) (l : Location) (bytes : ByteArray) (mode : Mode) (m' : Machine) : Prop :=
  ∀ k, m'.tree.get? k = if k = l then some (.file bytes mode) else m.tree.get? k

theorem Replaced.get?_self {bytes : ByteArray} {mode : Mode} (h : m.Replaced l bytes mode m') :
    m'.tree.get? l = some (.file bytes mode) := by
  rw [h l, if_pos rfl]

theorem Replaced.get?_of_ne {bytes : ByteArray} {mode : Mode} (h : m.Replaced l bytes mode m')
    {k : Location} (hk : k ≠ l) : m'.tree.get? k = m.tree.get? k := by
  rw [h k, if_neg hk]

theorem replaced_withFile (hl : l ≠ []) (bytes : ByteArray) (mode : Mode) :
    m.Replaced l bytes mode (m.withFile l bytes mode) :=
  get?_withFile hl

/-- Replacing a file, or a link that leads nowhere, keeps the shape of a tree. -/
theorem Replaced.persists {bytes : ByteArray} {mode : Mode} (h : m.Replaced l bytes mode m')
    (hl : ∀ n, m.tree.get? l = some n →
      m.tree.LeadsNowhere l ∨ Tree.SameShape n (.file bytes mode)) :
    m.tree.Persists m'.tree := by
  intro k n hn
  by_cases hk : k = l
  · subst hk
    exact (hl n hn).imp_right fun hshape => ⟨_, h.get?_self, hshape⟩
  · exact .inr ⟨n, (h.get?_of_ne hk).trans hn, Tree.SameShape.refl n⟩

/-- So does replacing a file by a file. -/
theorem Replaced.persists_of_file {bytes bytes' : ByteArray} {mode mode' : Mode}
    (h : m.Replaced l bytes mode m') (hl : m.tree.get? l = some (.file bytes' mode')) :
    m.tree.Persists m'.tree := by
  refine h.persists fun n hn => .inr ?_
  rw [hl] at hn
  obtain rfl := Option.some.inj hn
  trivial

/-- A file can be written as a whole. -/
structure Writable (m : Machine) (dir : Location) (name : String) : Prop where
  room : m.HasRoom dir
  target : m.Takes dir name

/-- A file in the place of a file, or of what no temporary file is called, makes no
difference to what can be written in its directory. -/
theorem Replaced.writable_iff {dir : Location} {place : String} {bytes : ByteArray} {mode : Mode}
    (h : m.Replaced (dir ++ [place]) bytes mode m')
    (hne : ∀ n, m.tree.get? (dir ++ [tempName n]) = none → place ≠ tempName n)
    (hplace : ∀ mode, m.tree.get? (dir ++ [place]) ≠ some (.directory mode)) (name : String) :
    m'.Writable dir name ↔ m.Writable dir name := by
  have hfree (n : Nat) :
      m'.tree.get? (dir ++ [tempName n]) = none ↔ m.tree.get? (dir ++ [tempName n]) = none := by
    by_cases hn : dir ++ [tempName n] = dir ++ [place]
    · rw [hn, h.get?_self]
      refine iff_of_false (Option.some_ne_none _) fun hnone => ?_
      exact hne n (hn ▸ hnone) (Location.concat_inj hn).2.symm
    · rw [h.get?_of_ne hn]
  have hdirectory : (∀ mode, m'.tree.get? (dir ++ [name]) ≠ some (.directory mode)) ↔
      ∀ mode, m.tree.get? (dir ++ [name]) ≠ some (.directory mode) := by
    by_cases hname : dir ++ [name] = dir ++ [place]
    · rw [hname, h.get?_self]
      exact iff_of_true (fun mode => by simp) hplace
    · rw [h.get?_of_ne hname]
  constructor
  · intro hw
    exact ⟨hw.room.congr hfree, hw.target.text, hw.target.short,
      hdirectory.1 hw.target.free_or_file⟩
  · intro hw
    exact ⟨hw.room.congr fun n => (hfree n).symm, hw.target.text, hw.target.short,
      hdirectory.2 hw.target.free_or_file⟩

theorem changed_eq_ok {r : Except OsError Machine} {a : Unit} :
    m.changed r = (.ok a, m') ↔ r = .ok m' := by
  cases r with
  | ok m₁ =>
      show (Except.ok (), m₁) = (Except.ok a, m') ↔ _
      rw [Prod.mk.injEq, Except.ok.injEq, Except.ok.injEq]
      exact and_iff_right rfl
  | error e =>
      constructor
      · intro h
        cases h
      · intro h
        cases h

theorem error_of_changed {r : Except OsError Machine} {e : OsError}
    (h : (m.changed r).1 = .error e) : r = .error e := by
  cases r with
  | ok m₁ => cases h
  | error e' =>
      cases h
      rfl

theorem perform_createTemp_eq_ok {directory r : Route} :
    m.perform (.createTemp directory) = (.ok r, m') ↔ m.createTemp directory = .ok (r, m') := by
  cases hr : m.createTemp directory with
  | ok p =>
      obtain ⟨r', m₁⟩ := p
      rw [perform_createTemp_ok hr]
      show (Except.ok r', m₁) = (Except.ok r, m') ↔ _
      rw [Prod.mk.injEq, Except.ok.injEq, Except.ok.injEq, Prod.mk.injEq]
  | error e =>
      rw [perform_createTemp_error hr]
      constructor
      · intro h
        cases h
      · intro h
        cases h

/-- What a temporary file that was given up leaves behind: nothing, unless
removing it failed. -/
structure GivenUp (frail : Call → Prop) (dir : Location) (temp : String) (m m' : Machine) : Prop where
  aside : m.Aside (dir ++ [temp]) m'
  gone : ¬frail (.remove ((Route.ofLocation dir).child temp)) → m'.tree.get? (dir ++ [temp]) = none

section

variable {frail : Call → Prop} {dir : Location} {temp : String}

theorem GivenUp.refl (h : m.tree.get? (dir ++ [temp]) = none) : GivenUp frail dir temp m m :=
  ⟨.refl h, fun _ => h⟩

/-- Where it was removed, the tree is the one before. -/
theorem GivenUp.get?_eq (h : GivenUp frail dir temp m m')
    (hremove : ¬frail (.remove ((Route.ofLocation dir).child temp))) (k : Location) :
    m'.tree.get? k = m.tree.get? k := by
  by_cases hk : k = dir ++ [temp]
  · rw [hk, h.gone hremove, h.aside.free]
  · exact h.aside.same k hk

end

end Machine

/-! ## §2. Calls for a temporary file. -/

/-- What a write that failed leaves behind: the machine before or, where the
temporary file cannot be removed, that file as well. -/
inductive Machine.Undone (frail : Call → Prop) (directory : Route) (m : Machine) : Machine → Prop
  | restored : Undone frail directory m m
  | stuck {dir : Location} {bytes : ByteArray} {mode : Mode} (h : m.Opens directory dir)
      (hfrail : frail (.remove (directory.child (m.freeName dir)))) :
      Undone frail directory m (m.withFile (m.tempPlace dir) bytes mode)

namespace Disk

/-- What holds before a write holds as long as there is a temporary file. -/
structure Throughout (I : Machine → Prop) (m : Machine) (dir : Location) : Prop where
  start : I m
  temp : ∀ bytes mode, I (m.withFile (m.tempPlace dir) bytes mode)

variable {α : Type} {frail : Call → Prop} {I : Machine → Prop} {m : Machine}
  {directory target : Route} {dir : Location} {name : String} {bytes : ByteArray} {mode : Mode}

/-- Giving a temporary file up gives back the machine before. -/
theorem discardTemp_ensures (h : m.Opens directory dir) (hI : Throughout I m dir)
    {Q : α → Machine → Prop} {E : OsError → Machine → Prop} {e : OsError}
    (hE : ∀ m', m.Undone frail directory m' → E e m') :
    Attempt.Ensures frail I (discardTemp (directory.child (m.freeName dir)) e) Q E
      (m.withFile (m.tempPlace dir) bytes mode) := by
  unfold discardTemp
  refine Attempt.ensures_bind (Attempt.ensures_lift (Procedure.ensures_ask ?_ ?_))
  · intro a m' hperform
    rw [h.perform_remove] at hperform
    obtain rfl := (Prod.mk.inj hperform).2
    exact ⟨hI.start, hE _ .restored⟩
  · intro e' m' hfail hleft
    obtain rfl := hleft
    -- the tree does not refuse to remove a file that is there
    refine ⟨hI.temp _ _, hE _ (.stuck h (hfail.resolve_right ?_))⟩
    rw [h.perform_remove]
    nofun

/-- A call for a temporary file: as the call goes, or the file is given up. -/
theorem withTemp_ensures (h : m.Opens directory dir) (hI : Throughout I m dir) {c : Call}
    {Q : c.Answer → Machine → Prop} {E : OsError → Machine → Prop}
    (hok : ∀ a m', (m.withFile (m.tempPlace dir) bytes mode).perform c = (.ok a, m') →
      I m' ∧ Q a m')
    (hleaves : ∀ m', (m.withFile (m.tempPlace dir) bytes mode).Leaves c m' →
      ∃ part, m' = m.withFile (m.tempPlace dir) part mode)
    (herr : ∀ e m', frail c ∨ ((m.withFile (m.tempPlace dir) bytes mode).perform c).1 = .error e →
      m.Undone frail directory m' → E e m') :
    Attempt.Ensures frail I (withTemp (directory.child (m.freeName dir)) c) Q E
      (m.withFile (m.tempPlace dir) bytes mode) := by
  unfold withTemp
  refine Attempt.ensures_bind (Attempt.ensures_lift (Procedure.ensures_ask ?_ ?_))
  · intro a m' hperform
    exact hok a m' hperform
  · intro e m' hfail hleft
    obtain ⟨part, rfl⟩ := hleaves m' hleft
    exact ⟨hI.temp _ _, discardTemp_ensures h hI fun m' => herr e m' hfail⟩

/-- A call that the tree grants fails only where it is frail. -/
theorem withTemp_ensures_of_perform (h : m.Opens directory dir) (hI : Throughout I m dir)
    {c : Call} {a : c.Answer} {m₂ : Machine}
    (hperform : (m.withFile (m.tempPlace dir) bytes mode).perform c = (.ok a, m₂))
    {Q : c.Answer → Machine → Prop} {E : OsError → Machine → Prop} (hok : I m₂ ∧ Q a m₂)
    (hleaves : ∀ m', (m.withFile (m.tempPlace dir) bytes mode).Leaves c m' →
      ∃ part, m' = m.withFile (m.tempPlace dir) part mode)
    (herr : frail c → ∀ e m', m.Undone frail directory m' → E e m') :
    Attempt.Ensures frail I (withTemp (directory.child (m.freeName dir)) c) Q E
      (m.withFile (m.tempPlace dir) bytes mode) := by
  refine withTemp_ensures h hI ?_ hleaves ?_
  · intro a' m' heq
    rw [hperform] at heq
    cases heq
    exact hok
  · intro e m' hfail
    rw [hperform] at hfail
    exact herr (hfail.resolve_right nofun) e m'

/-! ## §3. The whole write. -/

section

variable {Q : Unit → Machine → Prop} {E : OsError → Machine → Prop}

/-- Moving the temporary file over its target and setting the time of change. -/
theorem moveTemp_ensures (h : m.Opens directory dir) (htarget : directory.Continues target name)
    (hI : Throughout I m dir)
    (hok : m.TakesAt target dir name →
      I (m.withFile (dir ++ [name]) bytes mode) ∧ Q () (m.withFile (dir ++ [name]) bytes mode))
    (herr : (∃ c, frail c ∧ ∀ r, c ≠ .touch r) ∨ ¬m.TakesAt target dir name →
      ∀ e m', m.Undone frail directory m' → E e m') :
    Attempt.Ensures frail I (do
      let _ ← withTemp (directory.child (m.freeName dir))
        (.replace (directory.child (m.freeName dir)) target)
      let _ ← Attempt.lift (Procedure.ask (.touch target))) Q E
      (m.withFile (m.tempPlace dir) bytes mode) := by
  refine Attempt.ensures_bind (withTemp_ensures h hI ?_ ?_ ?_)
  · intro a m₂ hperform
    obtain ⟨htakes, rfl⟩ :=
      (h.replace_eq_ok_iff htarget bytes mode).1 (Machine.changed_eq_ok.1 hperform)
    have hdone := hok htakes
    refine ⟨hdone.1, ?_⟩
    -- the time of change may fail to be set, and the write has succeeded all the same
    exact Attempt.ensures_bind (Attempt.ensures_lift (Procedure.ensures_query trivial hdone.1
      (fun _ _ => hdone.2) fun _ _ => hdone.2))
  · intro m' hleft
    exact ⟨bytes, hleft⟩
  · intro e m' hfail
    refine herr ?_ e m'
    rcases hfail with hfrail | herror
    · exact .inl ⟨_, hfrail, nofun⟩
    · -- the tree refuses the move only where the target takes no file
      refine .inr fun htakes => ?_
      have hgranted := (h.replace_eq_ok_iff htarget bytes mode).2 ⟨htakes, rfl⟩
      rw [Machine.error_of_changed herror] at hgranted
      cases hgranted

/-- Syncing the temporary file, and then moving it. -/
theorem syncTemp_ensures (h : m.Opens directory dir) (htarget : directory.Continues target name)
    (hI : Throughout I m dir)
    (hok : m.TakesAt target dir name →
      I (m.withFile (dir ++ [name]) bytes mode) ∧ Q () (m.withFile (dir ++ [name]) bytes mode))
    (herr : (∃ c, frail c ∧ ∀ r, c ≠ .touch r) ∨ ¬m.TakesAt target dir name →
      ∀ e m', m.Undone frail directory m' → E e m') :
    Attempt.Ensures frail I (do
      let _ ← withTemp (directory.child (m.freeName dir))
        (.sync (directory.child (m.freeName dir)))
      let _ ← withTemp (directory.child (m.freeName dir))
        (.replace (directory.child (m.freeName dir)) target)
      let _ ← Attempt.lift (Procedure.ask (.touch target))) Q E
      (m.withFile (m.tempPlace dir) bytes mode) := by
  refine Attempt.ensures_bind (withTemp_ensures_of_perform h hI (h.perform_sync bytes mode)
    ⟨hI.temp bytes mode, ?_⟩ ?_ ?_)
  · exact moveTemp_ensures h htarget hI hok herr
  · intro m' hleft
    exact ⟨bytes, hleft⟩
  · intro hfrail
    exact herr (.inl ⟨_, hfrail, nofun⟩)

/-- **Writing a file as a whole, in any state.**  Until the file is moved, and
after every failure, the machine is the one before but for the temporary file;
a success needs a directory that can be opened and a target that takes a file,
and puts the file there; a failure needs a call other than the last that is
frail, or a place that cannot be written. -/
theorem atomicWrite_ensures_at {mode : Option Mode} (htarget : directory.Continues target name)
    (hstart : I m)
    (htemp : ∀ dir, m.Opens directory dir →
      ∀ part mode', I (m.withFile (m.tempPlace dir) part mode'))
    (hok : ∀ dir, m.Opens directory dir → m.TakesAt target dir name →
      I (m.withFile (dir ++ [name]) bytes (mode.getD tempMode)) ∧
        Q () (m.withFile (dir ++ [name]) bytes (mode.getD tempMode)))
    (herr : (∃ c, frail c ∧ ∀ r, c ≠ .touch r) ∨
        (¬∃ dir, m.Opens directory dir ∧ m.TakesAt target dir name) →
      ∀ e m', m.Undone frail directory m' → E e m') :
    Attempt.Ensures frail I (atomicWrite directory target bytes mode) Q E m := by
  refine Attempt.ensures_bind (Attempt.ensures_call ?_ ?_)
  · intro r m₁ hcreate
    obtain ⟨dir, hopens, rfl, rfl⟩ :=
      Machine.createTemp_eq_ok_iff.1 (Machine.perform_createTemp_eq_ok.1 hcreate)
    have hI : Throughout I m dir := ⟨hstart, htemp dir hopens⟩
    have hfrail (c : Call) (hc : ∀ r, c ≠ .touch r) (hfrail : frail c) :=
      herr (.inl ⟨c, hfrail, hc⟩)
    -- a directory can be opened in one place only, so it is this one that takes no file
    have herr' : (∃ c, frail c ∧ ∀ r, c ≠ .touch r) ∨ ¬m.TakesAt target dir name →
        ∀ e m', m.Undone frail directory m' → E e m' := by
      refine fun hfail => herr (hfail.imp_right ?_)
      rintro hnot ⟨dir', hopens', htakes⟩
      exact hnot (hopens.unique hopens' ▸ htakes)
    refine ⟨hI.temp _ _, ?_⟩
    refine Attempt.ensures_bind (withTemp_ensures_of_perform hopens hI
      (hopens.perform_write .empty tempMode bytes) ⟨hI.temp _ _, ?_⟩ ?_ (hfrail _ nofun))
    · -- the mode is that of the temporary file, unless another is set
      cases mode with
      | none => exact syncTemp_ensures hopens htarget hI (hok dir hopens) herr'
      | some mode =>
          refine Attempt.ensures_bind (withTemp_ensures_of_perform hopens hI
            (hopens.perform_setMode bytes tempMode mode) ⟨hI.temp _ _, ?_⟩ ?_ (hfrail _ nofun))
          · exact syncTemp_ensures hopens htarget hI (hok dir hopens) herr'
          · intro m' hleft
            exact ⟨bytes, hleft⟩
    · -- a write that fails may leave other bytes, but in the temporary file
      intro m' hleft
      rcases hleft with rfl | ⟨part, rfl⟩
      · exact ⟨.empty, rfl⟩
      · rw [hopens.perform_write]
        exact ⟨part, rfl⟩
  · intro e m' hfail hleft
    obtain rfl := hleft
    refine ⟨hstart, herr ?_ e m' .restored⟩
    rcases hfail with hfrail | herror
    · exact .inl ⟨_, hfrail, nofun⟩
    · -- where the directory can be opened, the tree does not refuse the temporary file
      refine .inr ?_
      rintro ⟨dir, hopens, -⟩
      have hgranted := Machine.createTemp_eq_ok_iff.2 ⟨dir, hopens, rfl, rfl⟩
      rw [Machine.perform_createTemp_eq_ok.2 hgranted] at herror
      cases herror

/-- **Writing a file of a folder as a whole.**  Every state on the way is the one
before but for a temporary file; a success needs a place that can be written, and
puts the file there; a failure needs a frail call or a place that cannot be
written, and gives the temporary file up. -/
theorem atomicWrite_ensures (hdir : m.tree.IsFolder dir) (hdot : name ≠ ".") (hdots : name ≠ "..")
    (hI : ∀ n m', m.Aside (dir ++ [tempName n]) m' → I m')
    (hok : ∀ m', m.Writable dir name → m.Replaced (dir ++ [name]) bytes mode m' →
      I m' ∧ Q () m')
    (herr : (∃ c, frail c) ∨ ¬m.Writable dir name →
      ∀ n e m', m.GivenUp frail dir (tempName n) m' → E e m') :
    Attempt.Ensures frail I
      (atomicWrite (.ofLocation dir) (.ofLocation (dir ++ [name])) bytes (some mode)) Q E m := by
  obtain ⟨n, hn, hfree, -⟩ := m.freeName_spec dir
  have haside := Machine.Aside.refl hfree
  have htarget : (Route.ofLocation dir).Continues (.ofLocation (dir ++ [name])) name :=
    ⟨rfl, 0, 0, by simp [Route.ofLocation]⟩
  have hplace : m.tempPlace dir = dir ++ [tempName n] := by rw [Machine.tempPlace, hn]
  refine atomicWrite_ensures_at htarget (hI n m haside) ?_ ?_ ?_
  · intro l hopens part mode'
    obtain ⟨rfl, -⟩ := (Machine.opens_ofLocation_iff hdir).1 hopens
    rw [hplace]
    exact hI n _ (haside.put _)
  · intro l hopens htakes
    obtain ⟨rfl, hroom⟩ := (Machine.opens_ofLocation_iff hdir).1 hopens
    exact hok _ ⟨hroom, (Machine.takesAt_ofLocation_iff hdot hdots).1 htakes⟩
      (Machine.replaced_withFile (by simp) bytes mode)
  · intro hfail e m' hundone
    refine herr ?_ n e m' ?_
    · refine hfail.imp (fun ⟨c, hc, _⟩ => ⟨c, hc⟩) fun hnot hwritable => hnot ⟨dir, ?_, ?_⟩
      · exact (Machine.opens_ofLocation_iff hdir).2 ⟨rfl, hwritable.room⟩
      · exact (Machine.takesAt_ofLocation_iff hdot hdots).2 hwritable.target
    · cases hundone with
      | restored => exact .refl hfree
      | stuck hopens hfrail =>
          obtain ⟨rfl, -⟩ := (Machine.opens_ofLocation_iff hdir).1 hopens
          rw [hn] at hfrail
          rw [hplace]
          exact ⟨haside.put _, fun hsturdy => absurd hfrail hsturdy⟩

end

end Disk

end ArtifactPatch
