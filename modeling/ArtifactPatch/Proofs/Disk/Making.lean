/-
  ArtifactPatch.Proofs.Disk.Making
  ────────────────────────────────
  **CALLS MAKE NOTHING BUT FILES.**

  No call makes a directory or a link, so neither does a procedure: after it,
  what is not a file was there before (`Passes.makesFiles`).  A walk goes
  through directories and links only.  So a walk in the new tree is one in the
  old, unless the file at its end is new (`Leads.recedes`).
-/
import ArtifactPatch.Proofs.Disk.AtomicWrite

namespace ArtifactPatch

namespace Tree

/-! ## §1. Trees with new files. -/

theorem SameShape.trans {a b c : Node} (hab : SameShape a b) (hbc : SameShape b c) :
    SameShape a c := by
  cases a <;> cases b <;> cases c <;>
    first
    | exact trivial
    | exact hab.elim
    | exact hbc.elim
    | exact Eq.trans hab hbc

/-- What stands in `t'` is a file, or has its like in `t`. -/
def MakesFiles (t t' : Tree) : Prop :=
  ∀ k n, t'.get? k = some n →
    (∃ bytes mode, n = .file bytes mode) ∨ ∃ n₀, t.get? k = some n₀ ∧ SameShape n₀ n

theorem MakesFiles.refl (t : Tree) : t.MakesFiles t :=
  fun _ n hn => .inr ⟨n, hn, SameShape.refl n⟩

theorem MakesFiles.trans {t t' t'' : Tree} (h : t.MakesFiles t') (h' : t'.MakesFiles t'') :
    t.MakesFiles t'' := by
  intro k n hn
  rcases h' k n hn with hfile | ⟨n₁, hn₁, hshape₁⟩
  · exact .inl hfile
  · rcases h k n₁ hn₁ with ⟨bytes, mode, rfl⟩ | ⟨n₀, hn₀, hshape₀⟩
    · -- the like of a file is a file
      cases n with
      | file bytes' mode' => exact .inl ⟨bytes', mode', rfl⟩
      | directory => exact hshape₁.elim
      | link => exact hshape₁.elim
    · exact .inr ⟨n₀, hn₀, hshape₀.trans hshape₁⟩

/-- What stands in a tree with a node put into it. -/
theorem get?_put_eq_some {t : Tree} {l k : Location} {n x : Node}
    (h : (t.put l n).get? k = some x) : k = l ∧ x = n ∨ t.get? k = some x := by
  by_cases hl : l = []
  · -- nothing can be put in the place of the root
    subst hl
    refine .inr ?_
    by_cases hk : k = []
    · rw [hk] at h ⊢
      exact h
    · rw [get?_of_ne_nil _ hk] at h ⊢
      have hne : (k == ([] : Location)) = false := beq_false_of_ne hk
      have hlookup : List.lookup k (([], n) :: (t.erase []).entries) = some x := h
      rw [List.lookup_cons, hne] at hlookup
      exact (lookup_filter_ne t.entries hk).symm.trans hlookup
  · rw [get?_put hl] at h
    split at h
    next hk => exact .inl ⟨hk, (Option.some.inj h).symm⟩
    next => exact .inr h

theorem get?_erase_eq_some {t : Tree} {l k : Location} {x : Node}
    (h : (t.erase l).get? k = some x) : t.get? k = some x := by
  by_cases hk : k = []
  · rw [hk] at h ⊢
    exact h
  · rw [get?_of_ne_nil _ hk] at h ⊢
    by_cases hkl : k = l
    · rw [hkl] at h
      rw [show List.lookup l (t.erase l).entries = none from lookup_filter_self t.entries l] at h
      cases h
    · exact (lookup_filter_ne t.entries hkl).symm.trans h

theorem makesFiles_put {t : Tree} {l : Location} {n : Node}
    (hn : (∃ bytes mode, n = .file bytes mode) ∨ ∃ n₀, t.get? l = some n₀ ∧ SameShape n₀ n) :
    t.MakesFiles (t.put l n) := by
  intro k x hx
  rcases get?_put_eq_some hx with ⟨rfl, rfl⟩ | hkept
  · exact hn
  · exact MakesFiles.refl t k x hkept

theorem makesFiles_erase (t : Tree) (l : Location) : t.MakesFiles (t.erase l) :=
  fun k x hx => MakesFiles.refl t k x (get?_erase_eq_some hx)

/-- **Walks recede.**  A walk in a tree with new files, which asks for a directory
or does not end at a new file, is one in the tree before. -/
theorem Leads.recedes {t t' : Tree} (hfiles : t.MakesFiles t') {links : Nat} {here l : Location}
    {names : List String} {directory : Bool} (h : t'.Leads links here names directory l)
    (hend : directory = false → ∀ bytes mode, t'.get? l = some (.file bytes mode) →
      ∃ bytes' mode', t.get? l = some (.file bytes' mode')) :
    t.Leads links here names directory l := by
  induction h with
  | here links here directory => exact .here links here directory
  | dot _ ih => exact .dot (ih hend)
  | dots _ ih => exact .dots (ih hend)
  | down hname hnode _ ih =>
      rcases hfiles _ _ hnode with ⟨bytes, mode, hfile⟩ | ⟨n₀, hn₀, hshape⟩
      · cases hfile
      · cases n₀ with
        | directory mode' => exact .down hname hn₀ (ih hend)
        | file => exact hshape.elim
        | link => exact hshape.elim
  | file hname hnode =>
      obtain ⟨bytes', mode', hnode'⟩ := hend rfl _ _ hnode
      exact .file hname hnode'
  | link hname hnode _ ih =>
      rcases hfiles _ _ hnode with ⟨bytes, mode, hfile⟩ | ⟨n₀, hn₀, hshape⟩
      · cases hfile
      · cases n₀ with
        | directory => exact hshape.elim
        | file => exact hshape.elim
        | link target' =>
            obtain rfl : target' = _ := hshape
            exact .link hname hn₀ (ih fun hd => hend (Bool.or_eq_false_iff.1 hd).1)

end Tree

/-! ## §2. Calls and procedures. -/

namespace Machine

variable {m m' : Machine} {r : Route}

theorem changed_makesFiles {outcome : Except OsError Machine}
    (h : ∀ m', outcome = .ok m' → m.tree.MakesFiles m'.tree) :
    m.tree.MakesFiles (m.changed outcome).2.tree := by
  cases outcome with
  | ok m' => exact h m' rfl
  | error e => exact .refl m.tree

theorem createTemp_makesFiles {directory : Route}
    (h : m.createTemp directory = .ok (r, m')) : m.tree.MakesFiles m'.tree := by
  unfold createTemp at h
  obtain ⟨-, -, h⟩ := Except.bind_eq_ok_iff.1 h
  obtain ⟨l, -, h⟩ := Except.bind_eq_ok_iff.1 h
  obtain ⟨-, -, h⟩ := Except.bind_eq_ok_iff.1 h
  dsimp only at h
  split at h
  next => cases h
  next =>
    obtain rfl := (Prod.mk.inj (Except.ok.inj h)).2
    exact Tree.makesFiles_put (.inl ⟨_, _, rfl⟩)

theorem write_makesFiles {bytes : ByteArray} (h : m.write r bytes = .ok m') :
    m.tree.MakesFiles m'.tree := by
  unfold write at h
  obtain ⟨l, -, h⟩ := Except.bind_eq_ok_iff.1 h
  split at h
  next =>
    obtain rfl := Except.ok.inj h
    exact Tree.makesFiles_put (.inl ⟨_, _, rfl⟩)
  next => cases h
  next => cases h

theorem setMode_makesFiles {mode : Mode} (h : m.setMode r mode = .ok m') :
    m.tree.MakesFiles m'.tree := by
  unfold setMode at h
  obtain ⟨l, -, h⟩ := Except.bind_eq_ok_iff.1 h
  split at h
  next =>
    obtain rfl := Except.ok.inj h
    exact Tree.makesFiles_put (.inl ⟨_, _, rfl⟩)
  next mode' hdirectory =>
    obtain rfl := Except.ok.inj h
    exact Tree.makesFiles_put (.inr ⟨_, hdirectory, trivial⟩)
  next => cases h

theorem remove_makesFiles (h : m.remove r = .ok m') : m.tree.MakesFiles m'.tree := by
  unfold remove at h
  obtain ⟨l, -, h⟩ := Except.bind_eq_ok_iff.1 h
  split at h
  next => cases h
  next =>
    obtain rfl := Except.ok.inj h
    exact Tree.makesFiles_erase m.tree l
  next => cases h

theorem replace_makesFiles {target : Route} (h : m.replace r target = .ok m') :
    m.tree.MakesFiles m'.tree := by
  unfold replace at h
  obtain ⟨-, -, h⟩ := Except.bind_eq_ok_iff.1 h
  obtain ⟨-, -, h⟩ := Except.bind_eq_ok_iff.1 h
  obtain ⟨source, -, h⟩ := Except.bind_eq_ok_iff.1 h
  have hmoved (l : Location) (bytes : ByteArray) (mode : Mode) :
      m.tree.MakesFiles ((m.tree.erase source).put l (.file bytes mode)) :=
    (Tree.makesFiles_erase m.tree source).trans (Tree.makesFiles_put (.inl ⟨_, _, rfl⟩))
  split at h
  next bytes mode _ =>
    split at h
    next => cases h
    next => cases h
    next => cases h
    next =>
      obtain ⟨spot, -, h⟩ := Except.bind_eq_ok_iff.1 h
      split at h
      next l _ =>
        dsimp only at h
        split at h
        next => cases h
        next =>
          obtain rfl := Except.ok.inj h
          exact hmoved l bytes mode
      next l =>
        dsimp only at h
        split at h
        next => cases h
        next =>
          split at h
          next => cases h
          next =>
            obtain rfl := Except.ok.inj h
            exact hmoved l bytes mode
  next => cases h

/-- Replacing a file makes a file. -/
theorem Replaced.makesFiles {l : Location} {bytes : ByteArray} {mode : Mode}
    (h : m.Replaced l bytes mode m') : m.tree.MakesFiles m'.tree := by
  intro k n hn
  rw [h k] at hn
  split at hn
  next => exact .inl ⟨bytes, mode, (Option.some.inj hn).symm⟩
  next => exact Tree.MakesFiles.refl m.tree k n hn

/-- **A call makes nothing but files.** -/
theorem perform_makesFiles (m : Machine) (c : Call) :
    m.tree.MakesFiles (m.perform c).2.tree := by
  cases c with
  | createTemp directory =>
      cases hr : m.createTemp directory with
      | ok p =>
          obtain ⟨r, m'⟩ := p
          rw [perform_createTemp_ok hr]
          exact createTemp_makesFiles hr
      | error e =>
          rw [perform_createTemp_error hr]
          exact .refl m.tree
  | write r bytes => exact changed_makesFiles fun _ => write_makesFiles
  | setMode r mode => exact changed_makesFiles fun _ => setMode_makesFiles
  | replace source target => exact changed_makesFiles fun _ => replace_makesFiles
  | remove r => exact changed_makesFiles fun _ => remove_makesFiles
  | stat | canonicalize | read | sync | touch | list => exact .refl m.tree

theorem Leaves.makesFiles {c : Call} (h : m.Leaves c m') : m.tree.MakesFiles m'.tree := by
  cases c with
  | write r bytes =>
      rcases h with rfl | ⟨part, rfl⟩
      · exact .refl _
      · exact m.perform_makesFiles (.write r part)
  | _ =>
      obtain rfl := h
      exact .refl _

end Machine

/-- **A procedure makes nothing but files**, wherever it is stopped and whichever
calls fail. -/
theorem Procedure.Passes.makesFiles {α : Type} {frail : Call → Prop} {p : Procedure α}
    {m m' : Machine} (h : p.Passes frail m m') : m.tree.MakesFiles m'.tree := by
  induction h with
  | start => exact .refl _
  | call hresp _ ih =>
      refine Tree.MakesFiles.trans ?_ ih
      cases hresp with
      | sound => exact Machine.perform_makesFiles _ _
      | failed e _ hleaves => exact hleaves.makesFiles

end ArtifactPatch
