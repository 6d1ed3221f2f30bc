/-
  ArtifactPatch.Proofs.Patch.Restoration
  ──────────────────────────────────────
  **PATCHED TREES, AND THE WAY BACK.**

  A tree is patched at some places (`Patched`) if each of them holds a file
  whose first bytes are in the slot beside it, where nothing was, and all else
  is as in the first tree.  Applying rules to an artifact adds its place
  (`Patched.applyRules_ensures`), and taking the patch back removes it
  (`Patched.takeBack_ensures`), whichever the other places are.  A tree that is
  patched nowhere is the first tree again (`Patched.get?_eq`).
-/
import ArtifactPatch.Proofs.Patch.Applied

namespace ArtifactPatch

namespace Store

variable {s : Store} {name : String} {m₀ m m₁ m' : Machine} {dir : Location} {file : String}
  {bytes : ByteArray} {mode : Mode} {frail : Call → Prop} {P P₁ : Location → Prop}

/-! ## §1. Where artifacts stand. -/

/-- An artifact resolves to a place. -/
def StandsAt (s : Store) (m : Machine) (name : String) (l : Location) : Prop :=
  ((s.resolve name).exec m).1 = .ok l

theorem standsAt_iff {l : Location} : s.StandsAt m name l ↔
    ∃ dir file bytes mode, l = dir ++ [file] ∧ s.Finds name m dir file bytes mode := by
  constructor
  · intro h
    exact (exec_resolve_eq_ok_iff.1 (Prod.ext h rfl)).2
  · intro h
    obtain ⟨dir, file, bytes, mode, rfl, hfinds⟩ := h
    exact hfinds.exec_resolve

theorem Finds.standsAt_iff (h : s.Finds name m dir file bytes mode) {l : Location} :
    s.StandsAt m name l ↔ l = dir ++ [file] := by
  constructor
  · intro hl
    exact (Except.ok.inj (h.exec_resolve.symm.trans hl)).symm
  · intro hl
    rw [hl]
    exact h.exec_resolve

theorem StandsAt.unique {l l' : Location} (h : s.StandsAt m name l) (h' : s.StandsAt m name l') :
    l = l' :=
  Except.ok.inj (h.symm.trans h')

/-- Two artifacts are not the same file. -/
def Distinct (s : Store) (m : Machine) (a b : String) : Prop :=
  ∀ l, s.StandsAt m a l → ¬s.StandsAt m b l

theorem Distinct.symm {a b : String} (h : s.Distinct m a b) : s.Distinct m b a :=
  fun l hb ha => h l ha hb

/-! ## §2. Patched trees. -/

/-- A file that could be written in the first tree, and backed up into a free
slot; the slot now holds its first bytes. -/
structure PatchedAt (m₀ : Machine) (dir : Location) (file : String) (bytes : ByteArray)
    (mode : Mode) (m : Machine) : Prop where
  hasFile : m₀.HasFile dir file bytes mode
  writable : m₀.Writable dir file
  takes : m₀.Takes dir (slotName file)
  free : m₀.tree.get? (dir ++ [slotName file]) = none
  live : ∃ new, m.tree.get? (dir ++ [file]) = some (.file new mode)
  saved : m.tree.get? (dir ++ [slotName file]) = some (.file bytes mode)

/-- The backup is seen. -/
theorem PatchedAt.hasSlot (h : PatchedAt m₀ dir file bytes mode m) (hdir : m.tree.IsFolder dir) :
    m.HasFile dir (slotName file) bytes mode :=
  ⟨hdir, ⟨slotName_ne_dot file, slotName_ne_dots file, h.takes.short⟩, h.saved⟩

/-- A tree that is patched at some places, and as it was elsewhere. -/
structure Patched (m₀ : Machine) (P : Location → Prop) (m : Machine) : Prop where
  patched : ∀ l, P l → ∃ dir file bytes mode, l = dir ++ [file] ∧
    PatchedAt m₀ dir file bytes mode m
  same : ∀ k, ¬P k → (∀ l, P l → k ≠ slotOf l) → m.tree.get? k = m₀.tree.get? k

/-- No file stands in the slot of another. -/
theorem PatchedAt.ne_slot (h : PatchedAt m₀ dir file bytes mode m) {dir' : Location}
    {file' : String} (hfree : m₀.tree.get? (dir' ++ [slotName file']) = none) :
    dir ++ [file] ≠ dir' ++ [slotName file'] := by
  intro heq
  have hnode := h.hasFile.node
  rw [heq, hfree] at hnode
  cases hnode

/-- What is done to one file does not reach another. -/
theorem PatchedAt.of_other {dir' : Location} {file' : String} {bytes' : ByteArray} {mode' : Mode}
    (h : PatchedAt m₀ dir file bytes mode m) (hother : PatchedAt m₀ dir' file' bytes' mode' m₁)
    (hne : dir ++ [file] ≠ dir' ++ [file'])
    (hkept : ∀ k, k ≠ dir' ++ [file'] → k ≠ dir' ++ [slotName file'] →
      m'.tree.get? k = m.tree.get? k) : PatchedAt m₀ dir file bytes mode m' := by
  have hlive := hkept _ hne (h.ne_slot hother.free)
  have hslot : m'.tree.get? (dir ++ [slotName file]) = m.tree.get? (dir ++ [slotName file]) := by
    refine hkept _ (hother.ne_slot h.free).symm fun heq => ?_
    obtain ⟨rfl, rfl⟩ := slot_inj heq
    exact hne rfl
  exact ⟨h.hasFile, h.writable, h.takes, h.free, hlive ▸ h.live, hslot ▸ h.saved⟩

namespace Patched

theorem start (m₀ : Machine) : Patched m₀ (fun _ => False) m₀ :=
  ⟨fun _ hl => hl.elim, fun _ _ _ => rfl⟩

/-- A tree that is patched nowhere is the first tree. -/
theorem get?_eq (h : Patched m₀ P m) (hnone : ∀ l, ¬P l) (k : Location) :
    m.tree.get? k = m₀.tree.get? k :=
  h.same k (hnone k) fun l hl => absurd hl (hnone l)

theorem congr (h : Patched m₀ P m) (hP : ∀ l, P l ↔ P₁ l) : Patched m₀ P₁ m := by
  obtain rfl : P = P₁ := funext fun l => propext (hP l)
  exact h

theorem patchedAt (h : Patched m₀ P m) (hl : P (dir ++ [file])) :
    ∃ bytes mode, PatchedAt m₀ dir file bytes mode m := by
  obtain ⟨dir', file', bytes, mode, hplace, hat⟩ := h.patched _ hl
  obtain ⟨rfl, rfl⟩ := Location.concat_inj hplace
  exact ⟨bytes, mode, hat⟩

/-- Nothing stood in the slots. -/
theorem slot_free (h : Patched m₀ P m) {l : Location} (hl : P l) :
    m₀.tree.get? (slotOf l) = none := by
  obtain ⟨dir, file, bytes, mode, rfl, hat⟩ := h.patched l hl
  rw [slotOf_concat]
  exact hat.free

/-- So what stood in the first tree stood in no slot. -/
theorem ne_slot (h : Patched m₀ P m) {k : Location} (hk : m₀.tree.get? k ≠ none) {l : Location}
    (hl : P l) : k ≠ slotOf l := by
  intro heq
  rw [heq] at hk
  exact hk (h.slot_free hl)

/-- What a place may be: one that is patched, the slot of one, or as it was. -/
theorem cases_get? (h : Patched m₀ P m) (k : Location) :
    (P k ∧ ∃ new bytes mode, m.tree.get? k = some (.file new mode) ∧
      m₀.tree.get? k = some (.file bytes mode)) ∨
    (∃ dir file bytes mode, P (dir ++ [file]) ∧ k = dir ++ [slotName file] ∧
      m₀.tree.get? k = none ∧ m.tree.get? k = some (.file bytes mode)) ∨
    (¬P k ∧ (∀ l, P l → k ≠ slotOf l) ∧ m.tree.get? k = m₀.tree.get? k) := by
  by_cases hk : P k
  · obtain ⟨dir, file, bytes, mode, rfl, hat⟩ := h.patched k hk
    obtain ⟨new, hnew⟩ := hat.live
    exact .inl ⟨hk, new, bytes, mode, hnew, hat.hasFile.node⟩
  · by_cases hslot : ∃ l, P l ∧ k = slotOf l
    · obtain ⟨l, hl, rfl⟩ := hslot
      obtain ⟨dir, file, bytes, mode, rfl, hat⟩ := h.patched l hl
      rw [slotOf_concat]
      exact .inr (.inl ⟨dir, file, bytes, mode, hl, rfl, hat.free, hat.saved⟩)
    · have hnot : ∀ l, P l → k ≠ slotOf l := fun l hl heq => hslot ⟨l, hl, heq⟩
      exact .inr (.inr ⟨hk, hnot, h.same k hk hnot⟩)

/-- Where a file is not patched, it is as it was, and its slot is. -/
theorem live_eq (h : Patched m₀ P m) (hnot : ¬P (dir ++ [file])) {n : Node}
    (hnode : m₀.tree.get? (dir ++ [file]) = some n) : m.tree.get? (dir ++ [file]) = some n := by
  rw [← hnode]
  refine h.same _ hnot fun l hl => h.ne_slot ?_ hl
  rw [hnode]
  exact Option.some_ne_none n

theorem slot_eq_none (h : Patched m₀ P m) (hnot : ¬P (dir ++ [file]))
    (hfree : m₀.tree.get? (dir ++ [slotName file]) = none) :
    m.tree.get? (dir ++ [slotName file]) = none := by
  rcases h.cases_get? (dir ++ [slotName file]) with ⟨-, _, bytes, mode, -, hfile⟩ |
    ⟨dir', file', _, _, hplace, hslots, -, -⟩ | ⟨-, -, hsame⟩
  · rw [hfree] at hfile
    cases hfile
  · -- a slot belongs to one file only
    obtain ⟨rfl, rfl⟩ := slot_inj hslots
    exact absurd hplace hnot
  · rw [hsame]
    exact hfree

/-- What stands in a tree stands in a tree that is patched at more places. -/
theorem persists (h : Patched m₀ P m) (h₁ : Patched m₀ P₁ m₁) (hsub : ∀ l, P l → P₁ l) :
    m.tree.Persists m₁.tree := by
  intro k n hn
  refine .inr ?_
  rcases h.cases_get? k with ⟨hk, new, _, mode, hnew, -⟩ |
    ⟨dir, file, _, mode, hplace, rfl, -, hsaved⟩ | ⟨-, -, hsame⟩
  · obtain ⟨dir, file, bytes, mode', rfl, hat⟩ := h₁.patched k (hsub k hk)
    obtain ⟨new', hnew'⟩ := hat.live
    rw [hnew] at hn
    obtain rfl := Option.some.inj hn
    exact ⟨_, hnew', trivial⟩
  · -- the slot of a place is a slot in both trees
    obtain ⟨bytes', mode', hat⟩ := h₁.patchedAt (hsub _ hplace)
    rw [hsaved] at hn
    obtain rfl := Option.some.inj hn
    exact ⟨_, hat.saved, trivial⟩
  · -- what is as it was may be patched by now, and then it is a file still
    rw [hsame] at hn
    rcases h₁.cases_get? k with ⟨-, _, _, _, hnew, hfile⟩ | ⟨_, _, _, _, -, -, hnone, -⟩ |
      ⟨-, -, hsame₁⟩
    · rw [hfile] at hn
      obtain rfl := Option.some.inj hn
      exact ⟨_, hnew, trivial⟩
    · rw [hnone] at hn
      cases hn
    · exact ⟨n, hsame₁.trans hn, Tree.SameShape.refl n⟩

theorem makesFiles (h : Patched m₀ P m) : m₀.tree.MakesFiles m.tree := by
  intro k n hn
  rcases h.cases_get? k with ⟨-, new, _, mode, hnew, -⟩ | ⟨_, _, bytes, mode, -, -, -, hsaved⟩ |
    ⟨-, -, hsame⟩
  · exact .inl ⟨new, mode, Option.some.inj (hn.symm.trans hnew)⟩
  · exact .inl ⟨bytes, mode, Option.some.inj (hn.symm.trans hsaved)⟩
  · exact .inr ⟨n, hsame ▸ hn, Tree.SameShape.refl n⟩

/-- The same names are free for a temporary file. -/
theorem temp_free_iff (h : Patched m₀ P m) (dir : Location) (n : Nat) :
    m₀.tree.get? (dir ++ [tempName n]) = none ↔ m.tree.get? (dir ++ [tempName n]) = none := by
  rcases h.cases_get? (dir ++ [tempName n]) with ⟨-, _, _, _, hnew, hfile⟩ |
    ⟨_, file, _, _, -, hslot, -, -⟩ | ⟨-, -, hsame⟩
  · rw [hnew, hfile]
    exact iff_of_false (Option.some_ne_none _) (Option.some_ne_none _)
  · exact absurd (Location.concat_inj hslot).2.symm (slotName_ne_tempName file n)
  · rw [hsame]

/-- A patched file can be written again. -/
theorem writable (h : Patched m₀ P m) (hat : PatchedAt m₀ dir file bytes mode m) :
    m.Writable dir file := by
  refine ⟨hat.writable.room.congr (h.temp_free_iff dir), hat.writable.target.text,
    hat.writable.target.short, ?_⟩
  obtain ⟨new, hnew⟩ := hat.live
  intro mode' hdirectory
  rw [hnew] at hdirectory
  cases hdirectory

/-! ## §3. Artifacts in a patched tree. -/

/-- An artifact stays where it was. -/
theorem standsAt (h : Patched m₀ P m) (h₁ : Patched m₀ P₁ m₁) (hsub : ∀ l, P l → P₁ l)
    {l : Location} (hl : s.StandsAt m name l) : s.StandsAt m₁ name l := by
  obtain ⟨dir, file, bytes, mode, rfl, hfinds⟩ := standsAt_iff.1 hl
  have hkeep := h.persists h₁ hsub
  obtain ⟨bytes', mode', hnode⟩ := hkeep.file hfinds.hasFile.node
  exact (hfinds.persists hkeep hnode).exec_resolve

/-- An artifact at a patched place was there in the first tree. -/
theorem finds_first (h : Patched m₀ P m) (hfinds : s.Finds name m dir file bytes mode)
    (hat : ∃ bytes₀ mode₀, PatchedAt m₀ dir file bytes₀ mode₀ m) :
    ∃ bytes₀, PatchedAt m₀ dir file bytes₀ mode m ∧ s.Finds name m₀ dir file bytes₀ mode := by
  obtain ⟨bytes₀, mode₀, hat⟩ := hat
  have hfirst := hfinds.recedes h.makesFiles hat.hasFile.node
  obtain ⟨new, hnew⟩ := hat.live
  rw [hfinds.hasFile.node] at hnew
  obtain ⟨-, rfl⟩ := Node.file.inj (Option.some.inj hnew)
  exact ⟨bytes₀, hat, hfirst⟩

/-! ## §4. Applying rules. -/

/-- A patched file may become anything. -/
theorem replaced (h : Patched m₀ P m) (hat : PatchedAt m₀ dir file bytes mode m)
    (hplace : P (dir ++ [file])) {new : ByteArray}
    (hreplaced : m.Replaced (dir ++ [file]) new mode m') : Patched m₀ P m' := by
  refine ⟨?_, ?_⟩
  · intro l hl
    by_cases hsame : l = dir ++ [file]
    · refine ⟨dir, file, bytes, mode, hsame, hat.hasFile, hat.writable, hat.takes, hat.free,
        ⟨new, hreplaced.get?_self⟩, ?_⟩
      rw [hreplaced.get?_of_ne (place_ne_slot dir file).symm]
      exact hat.saved
    · obtain ⟨dir', file', bytes', mode', rfl, hat'⟩ := h.patched l hl
      exact ⟨dir', file', bytes', mode', rfl,
        hat'.of_other hat hsame fun k hk _ => hreplaced.get?_of_ne hk⟩
  · intro k hk hnot
    have hne : k ≠ dir ++ [file] := by
      rintro rfl
      exact hk hplace
    rw [hreplaced.get?_of_ne hne]
    exact h.same k hk hnot

/-- A file that was not patched, with a copy of it in its slot, is. -/
theorem added (h : Patched m₀ P m) (hnot : ¬P (dir ++ [file]))
    (hat : PatchedAt m₀ dir file bytes mode m')
    (hbacked : m.Replaced (dir ++ [slotName file]) bytes mode m₁) {new : ByteArray}
    (hwritten : m₁.Replaced (dir ++ [file]) new mode m') :
    Patched m₀ (fun l => P l ∨ l = dir ++ [file]) m' := by
  have hkept (k : Location) (hlive : k ≠ dir ++ [file]) (hslot : k ≠ dir ++ [slotName file]) :
      m'.tree.get? k = m.tree.get? k := by
    rw [hwritten.get?_of_ne hlive, hbacked.get?_of_ne hslot]
  refine ⟨?_, ?_⟩
  · intro l hl
    rcases hl with hl | rfl
    · obtain ⟨dir', file', bytes', mode', rfl, hat'⟩ := h.patched l hl
      have hne : dir' ++ [file'] ≠ dir ++ [file] := fun heq => hnot (heq ▸ hl)
      exact ⟨dir', file', bytes', mode', rfl, hat'.of_other hat hne hkept⟩
    · exact ⟨dir, file, bytes, mode, rfl, hat⟩
  · intro k hk hslots
    have hslot := hslots _ (.inr rfl)
    rw [slotOf_concat] at hslot
    rw [hkept k (fun heq => hk (.inr heq)) hslot]
    exact h.same k (fun hP => hk (.inl hP)) fun l hl => hslots l (.inl hl)

/-- Rules that were applied to an artifact patch its place. -/
theorem applied (h : Patched m₀ P m) (hfirst : s.Finds name m₀ dir file bytes mode)
    (hfree : m₀.tree.get? (dir ++ [slotName file]) = none) {bytes' : ByteArray} {mode' : Mode}
    (hfinds : s.Finds name m dir file bytes' mode') {rules : List Rule} {plan : Plan} {raw : Text}
    {text : ArtifactText}
    (happlied : Applied name rules m dir file bytes' mode' plan m₁ raw text m') :
    Patched m₀ (fun l => P l ∨ l = dir ++ [file]) m' := by
  by_cases hplace : P (dir ++ [file])
  · obtain ⟨bytes₀, hat, -⟩ := h.finds_first hfinds (h.patchedAt hplace)
    have hpresent : m₁ = m := by
      cases happlied.backed with
      | present => rfl
      | created hunseen _ _ =>
          -- the backup that is there would have been seen
          have hslot := hat.hasSlot hfinds.hasFile.folder
          exact absurd (hslot.stat (Route.spells_ofLocation _) hat.takes.text) (hunseen _)
    obtain rfl := hpresent
    refine (h.replaced hat hplace happlied.written).congr fun l => ?_
    constructor
    · exact .inl
    · intro hl
      rcases hl with hl | rfl
      · exact hl
      · exact hplace
  · -- the file is the first one, and its slot is free
    have hnode := h.live_eq hplace hfirst.hasFile.node
    rw [hfinds.hasFile.node] at hnode
    obtain ⟨rfl, rfl⟩ := Node.file.inj (Option.some.inj hnode)
    have hnone := h.slot_eq_none hplace hfree
    cases happlied.backed with
    | present hseen =>
        exact absurd hnone (Machine.get?_ne_none_of_stat hfinds.hasFile.folder
          (slotName_ne_dot file) (slotName_ne_dots file) hseen)
    | created _ htakes hreplaced =>
        -- what could be written just now could be written in the first tree
        obtain ⟨hroom, htarget⟩ := happlied.writable
        have hroom₀ : m₀.HasRoom dir := by
          refine hroom.congr fun n => ?_
          rw [hreplaced.get?_of_ne (slot_ne_temp dir file n).symm]
          exact (h.temp_free_iff dir n).symm
        refine h.added hplace ⟨hfirst.hasFile, ⟨hroom₀, htarget.text, htarget.short, ?_⟩,
          ⟨htakes.text, htakes.short, ?_⟩, hfree, ⟨_, happlied.written.get?_self⟩, ?_⟩ hreplaced
          happlied.written
        · intro mode' hdirectory
          rw [hfirst.hasFile.node] at hdirectory
          cases hdirectory
        · intro mode' hdirectory
          rw [hfree] at hdirectory
          cases hdirectory
        · rw [happlied.written.get?_of_ne (place_ne_slot dir file).symm]
          exact hreplaced.get?_self

/-- **Applying rules to an artifact adds its place.** -/
theorem applyRules_ensures (h : Patched m₀ P m) (hfirst : s.Finds name m₀ dir file bytes mode)
    (hfree : m₀.tree.get? (dir ++ [slotName file]) = none)
    (hsturdy : ¬frail (.stat (.ofLocation (dir ++ [slotName file])))) (rules : List Rule) :
    Attempt.Ensures frail (fun _ => True) (s.applyRules name rules)
      (fun _ m' => Patched m₀ (fun l => P l ∨ s.StandsAt m₀ name l) m') (fun _ _ => True) m := by
  have hstands := (start m₀).standsAt h (fun _ hl => hl.elim) hfirst.exec_resolve
  obtain ⟨dir', file', bytes', mode', hplace, hfinds⟩ := standsAt_iff.1 hstands
  obtain ⟨rfl, rfl⟩ := Location.concat_inj hplace
  have hensures : Attempt.Ensures frail (fun _ => True) (s.applyRules name rules) _
      (fun _ _ => True) m :=
    hfinds.applied_ensures hsturdy (fun _ _ _ _ _ _ _ => trivial) fun _ _ _ _ _ _ _ => trivial
  refine hensures.mono ?_ fun _ _ _ => trivial
  intro plan m' happlied
  obtain ⟨m₁, raw, text, happlied⟩ := happlied
  refine (h.applied hfirst hfree hfinds happlied).congr fun l => ?_
  rw [hfirst.standsAt_iff]

/-! ## §5. Taking a patch back. -/

/-- A file that is the first one again, with its slot free, is not patched. -/
theorem removed (h : Patched m₀ P m) (hat : PatchedAt m₀ dir file bytes mode m)
    (hreplaced : m.Replaced (dir ++ [file]) bytes mode m₁) :
    Patched m₀ (fun l => P l ∧ l ≠ dir ++ [file])
      (m₁.withTree (m₁.tree.erase (dir ++ [slotName file]))) := by
  have hgone (k : Location) : (m₁.withTree (m₁.tree.erase (dir ++ [slotName file]))).tree.get? k
      = if k = dir ++ [slotName file] then none else m₁.tree.get? k :=
    Tree.get?_erase (by simp) k
  have hkept (k : Location) (hlive : k ≠ dir ++ [file]) (hslot : k ≠ dir ++ [slotName file]) :
      (m₁.withTree (m₁.tree.erase (dir ++ [slotName file]))).tree.get? k = m.tree.get? k := by
    rw [hgone, if_neg hslot, hreplaced.get?_of_ne hlive]
  refine ⟨?_, ?_⟩
  · intro l hl
    obtain ⟨hl, hne⟩ := hl
    obtain ⟨dir', file', bytes', mode', rfl, hat'⟩ := h.patched l hl
    exact ⟨dir', file', bytes', mode', rfl, hat'.of_other hat hne hkept⟩
  · -- the file and its slot are as they were in the first tree
    intro k hk hslots
    by_cases hlive : k = dir ++ [file]
    · subst hlive
      rw [hgone, if_neg (place_ne_slot dir file), hreplaced.get?_self, hat.hasFile.node]
    · by_cases hslot : k = dir ++ [slotName file]
      · rw [hgone, if_pos hslot, hslot, hat.free]
      · rw [hkept k hlive hslot]
        refine h.same k (fun hP => hk ⟨hP, hlive⟩) fun l hl => ?_
        by_cases hl' : l = dir ++ [file]
        · rw [hl', slotOf_concat]
          exact hslot
        · exact hslots l ⟨hl, hl'⟩

/-- A patch that is there is taken back. -/
theorem takeBack_ensures_of_patched (h : Patched m₀ P m)
    (hfinds : s.Finds name m dir file bytes mode) (hplace : P (dir ++ [file])) :
    Attempt.Ensures Call.Sturdy (fun _ => True) (s.takeBack name false)
      (fun outcome m' => Patched m₀ (fun l => P l ∧ l ≠ dir ++ [file]) m' ∧
        ∃ detail kept, outcome = .restored detail kept) (fun _ _ => False) m := by
  obtain ⟨bytes₀, hat, -⟩ := h.finds_first hfinds (h.patchedAt hplace)
  have hslot := hat.hasSlot hfinds.hasFile.folder
  have hroute := Route.spells_ofLocation (dir ++ [slotName file])
  refine hfinds.takeBack_ensures_of_stat (h.writable hat) (hslot.stat hroute hat.takes.text)
    (fun _ _ _ _ _ hkeep => Bool.noConfusion hkeep) ?_
  intro saved detail m₁ hread hreplaced _
  rw [hslot.read hroute hat.takes.text] at hread
  obtain rfl := Except.ok.inj hread
  exact ⟨h.removed hat hreplaced, _, _, rfl⟩

/-- **Taking the patch of an artifact back removes its place.**  It brings the
artifact back if its place was patched, and fails only where the artifact is not
found. -/
theorem takeBack_ensures (h : Patched m₀ P m)
    (hfree : ∀ l, s.StandsAt m name l → m₀.tree.get? (slotOf l) = none) :
    Attempt.Ensures Call.Sturdy (fun _ => True) (s.takeBack name false)
      (fun outcome m' => Patched m₀ (fun l => P l ∧ ¬s.StandsAt m₀ name l) m' ∧
        ((∃ detail kept, outcome = .restored detail kept) ↔ ∃ l, s.StandsAt m₀ name l ∧ P l))
      (fun _ m' => Patched m₀ (fun l => P l ∧ ¬s.StandsAt m₀ name l) m' ∧
        ∀ l, ¬s.StandsAt m₀ name l) m := by
  have hstays {l : Location} (hl : s.StandsAt m₀ name l) : s.StandsAt m name l :=
    (start m₀).standsAt h (fun _ hl => hl.elim) hl
  -- an artifact that stands at no patched place leaves them all
  have hleft (hnot : ∀ l, s.StandsAt m₀ name l → ¬P l) :
      Patched m₀ (fun l => P l ∧ ¬s.StandsAt m₀ name l) m := by
    refine h.congr fun l => ?_
    constructor
    · intro hl
      exact ⟨hl, fun hstands => hnot l hstands hl⟩
    · intro hl
      exact hl.1
  by_cases hfound : ∃ l, s.StandsAt m name l
  · obtain ⟨l, hl⟩ := hfound
    obtain ⟨dir, file, bytes, mode, rfl, hfinds⟩ := standsAt_iff.1 hl
    by_cases hplace : P (dir ++ [file])
    · obtain ⟨bytes₀, -, hfirst⟩ := h.finds_first hfinds (h.patchedAt hplace)
      refine (h.takeBack_ensures_of_patched hfinds hplace).mono ?_ fun _ _ he => he.elim
      intro outcome m' hdone
      obtain ⟨hpatched, hrestored⟩ := hdone
      refine ⟨hpatched.congr fun l => ?_, iff_of_true hrestored ⟨_, hfirst.exec_resolve, hplace⟩⟩
      rw [hfirst.standsAt_iff]
    · -- the slot is free, as it was in the first tree
      have hnot : ∀ l, s.StandsAt m₀ name l → ¬P l := by
        intro l hl'
        rw [hfinds.standsAt_iff.1 (hstays hl')]
        exact hplace
      have hnone := hfree _ hl
      rw [slotOf_concat] at hnone
      have hslot := h.slot_eq_none hplace hnone
      refine Store.takeBack_ensures (hfinds.restore_ensures_of_free trivial ?_ ?_
        fun hfrail => (Call.not_sturdy hfrail).elim)
      · intro mode' hseen
        rw [slotOf_concat] at hseen
        exact Machine.get?_ne_none_of_stat hfinds.hasFile.folder (slotName_ne_dot file)
          (slotName_ne_dots file) hseen hslot
      · refine ⟨hleft hnot, iff_of_false ?_ ?_⟩
        · intro hrestored
          obtain ⟨_, _, hrestored⟩ := hrestored
          cases hrestored
        · intro hstands
          obtain ⟨l, hstands, hl'⟩ := hstands
          exact hnot l hstands hl'
  · have hnot : ∀ l, ¬s.StandsAt m₀ name l := fun l hl => hfound ⟨l, hstays hl⟩
    have hsame := hleft fun l hl => absurd hl (hnot l)
    refine takeBack_ensures_of_not_finds trivial (fun dir file bytes mode hfinds => ?_) ?_
      fun _ => ⟨hsame, hnot⟩
    · exact hfound ⟨_, hfinds.exec_resolve⟩
    · intro artifact path
      refine ⟨hsame, iff_of_false ?_ ?_⟩
      · intro hrestored
        obtain ⟨_, _, hrestored⟩ := hrestored
        cases hrestored
      · intro hstands
        obtain ⟨l, hstands, -⟩ := hstands
        exact hnot l hstands

end Patched

end Store

end ArtifactPatch
