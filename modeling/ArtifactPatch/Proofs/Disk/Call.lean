/-
  ArtifactPatch.Proofs.Disk.Call
  ──────────────────────────────
  **CALLS ON FILES.**

  What the calls do that a store makes: they all name a file by the names that
  lead to it (`Route.Spells`), in a directory that names alone lead to
  (`Machine.HasFile`), so none of them meets a link on its way.  Names of
  temporary files are free (`freeName_spec`) and depend on nothing but which
  names are (`freeName_congr`).
-/
import Mathlib.Data.List.Nodup
import Mathlib.Data.List.Perm.Subperm
import ArtifactPatch.Disk.Call
import ArtifactPatch.Proofs.Disk.Tree
import ArtifactPatch.Proofs.Except

namespace ArtifactPatch

/-! ## §1. Names of temporary files. -/

theorem toList_tempName (n : Nat) :
    (tempName n).toList = ['.', 't', 'm', 'p'] ++ Nat.toDigits 10 (100000 + n) := by
  unfold tempName
  rw [String.toList_append]
  exact congrArg _ Nat.toList_repr

theorem tempName_injective {i j : Nat} (h : tempName i = tempName j) : i = j := by
  have hlist := congrArg String.toList h
  rw [toList_tempName, toList_tempName, List.append_right_inj] at hlist
  have hvalue := congrArg (Nat.ofDigitChars 10 · 0) hlist
  rw [Nat.ofDigitChars_toDigits (by decide) (by decide),
    Nat.ofDigitChars_toDigits (by decide) (by decide)] at hvalue
  omega

/-- The name of a temporary file ends in a digit. -/
theorem tempName_ne_append (n : Nat) (name : String) {suffix : String} {c : Char}
    (hlast : suffix.toList.getLast? = some c) (hc : c.isDigit = false) :
    tempName n ≠ name ++ suffix := by
  intro h
  have hlist := congrArg (fun s => s.toList.getLast?) h
  rw [toList_tempName, String.toList_append, List.getLast?_append_of_ne_nil _ Nat.toDigits_ne_nil,
    List.getLast?_append, hlast, Option.some_or] at hlist
  have hdigit := Nat.isDigit_of_mem_toDigits (by decide) (by decide) (List.mem_of_getLast? hlist)
  rw [hc] at hdigit
  cases hdigit

theorem isPlain_tempName {n : Nat} (h : (tempName n).utf8ByteSize ≤ Tree.maxName) :
    Tree.IsPlain (tempName n) := by
  have hhead : (tempName n).toList[1]? = some 't' := by
    rw [toList_tempName]
    rfl
  constructor
  · intro hdot
    rw [hdot] at hhead
    cases hhead
  · intro hdots
    rw [hdots] at hhead
    exact absurd hhead (by decide)
  · exact h

namespace Machine

/-- **The name of a new temporary file**: the first that is free. -/
theorem freeName_spec (m : Machine) (dir : Location) :
    ∃ n, m.freeName dir = tempName n ∧ m.tree.get? (dir ++ [tempName n]) = none
      ∧ ∀ k, k < n → m.tree.get? (dir ++ [tempName k]) ≠ none := by
  -- more candidates than nodes, so they cannot all be taken
  have hfree : ∃ n, n < m.tree.entries.length + 1 ∧ m.tree.get? (dir ++ [tempName n]) = none := by
    by_contra hall
    have htaken : (List.range (m.tree.entries.length + 1)).map (fun n => dir ++ [tempName n])
        ⊆ m.tree.entries.map Prod.fst := by
      intro l hl
      obtain ⟨n, hn, rfl⟩ := List.mem_map.1 hl
      rw [List.mem_range] at hn
      by_contra hnot
      refine hall ⟨n, hn, ?_⟩
      rw [Tree.get?_of_ne_nil _ (by simp), List.lookup_eq_none_iff]
      intro e he
      rw [bne_iff_ne]
      intro heq
      exact hnot (heq ▸ List.mem_map_of_mem he)
    have hnodup : ((List.range (m.tree.entries.length + 1)).map
        (fun n => dir ++ [tempName n])).Nodup := by
      refine List.Nodup.map ?_ List.nodup_range
      intro i j hij
      exact tempName_injective (List.singleton_inj.1 ((List.append_right_inj dir).1 hij))
    have hle := (List.subperm_of_subset hnodup htaken).length_le
    rw [List.length_map, List.length_map, List.length_range] at hle
    omega
  -- the one that is found is free, and those before it were passed over
  cases hfind : (List.range (m.tree.entries.length + 1)).find? fun n =>
      (m.tree.get? (dir ++ [tempName n])).isNone with
  | none =>
      obtain ⟨n, hn, hnone⟩ := hfree
      have hsome := List.find?_eq_none.1 hfind n (List.mem_range.2 hn)
      rw [hnone] at hsome
      exact absurd rfl hsome
  | some n =>
      have hfirst := List.find?_range_eq_some.1 hfind
      refine ⟨n, ?_, Option.isNone_iff_eq_none.1 hfirst.1, ?_⟩
      · unfold freeName
        simp only [List.find?_map, Function.comp_def, hfind, Option.map_some, Option.getD_some]
      · intro k hk hnone
        have := hfirst.2.2 k hk
        simp [hnone] at this

theorem freeName_congr {m m' : Machine} {dir : Location}
    (h : ∀ n, m.tree.get? (dir ++ [tempName n]) = none ↔ m'.tree.get? (dir ++ [tempName n]) = none) :
    m.freeName dir = m'.freeName dir := by
  obtain ⟨n, hn, hfree, hfirst⟩ := m.freeName_spec dir
  obtain ⟨n', hn', hfree', hfirst'⟩ := m'.freeName_spec dir
  -- neither of the first free names can come before the other
  rcases Nat.lt_trichotomy n n' with hlt | rfl | hlt
  · exact absurd ((h n).1 hfree) (hfirst' n hlt)
  · rw [hn, hn']
  · exact absurd ((h n').2 hfree') (hfirst n' hlt)

end Machine

/-! ## §2. What calls answer. -/

namespace Machine

variable {m : Machine} {r : Route} {l : Location}

theorem locate_eq_ok_iff {last : Bool} :
    m.locate last r = .ok l ↔ r.checkText = .ok () ∧ m.tree.locate m.cwd last r = .ok l := by
  refine Except.bind_eq_ok_iff.trans ?_
  constructor
  · intro h
    obtain ⟨⟨⟩, h⟩ := h
    exact h
  · intro h
    exact ⟨(), h⟩

theorem canonicalize_eq_ok_iff :
    m.canonicalize r = .ok l ↔ r.checkNul = .ok () ∧ m.tree.locate m.cwd true r = .ok l
      ∧ (Route.ofLocation l).checkText = .ok () := by
  unfold canonicalize
  rw [Except.bind_eq_ok_iff]
  constructor
  · intro h
    obtain ⟨⟨⟩, hnul, h⟩ := h
    obtain ⟨l', hlocate, h⟩ := Except.bind_eq_ok_iff.1 h
    obtain ⟨⟨⟩, htext, h⟩ := Except.bind_eq_ok_iff.1 h
    obtain rfl := Except.ok.inj h
    exact ⟨hnul, hlocate, htext⟩
  · intro h
    obtain ⟨hnul, hlocate, htext⟩ := h
    refine ⟨(), hnul, ?_⟩
    rw [hlocate]
    show (do
      (Route.ofLocation l).checkText
      return l : Except OsError Location) = _
    rw [htext]
    rfl

/-- A route is said to be a file where it leads to one. -/
theorem stat_eq_file_iff {mode : Mode} :
    m.stat r = .ok ⟨.file, mode⟩
      ↔ ∃ l bytes, m.locate true r = .ok l ∧ m.tree.get? l = some (.file bytes mode) := by
  unfold stat
  rw [Except.bind_eq_ok_iff]
  constructor
  · intro h
    obtain ⟨l, hlocate, h⟩ := h
    split at h
    next => cases h
    next bytes mode' hnode =>
      cases h
      exact ⟨l, bytes, hlocate, hnode⟩
    next => cases h
  · intro h
    obtain ⟨l, bytes, hlocate, hnode⟩ := h
    refine ⟨l, hlocate, ?_⟩
    rw [hnode]
    rfl

/-- A route is said to be a directory where it leads to one. -/
theorem stat_eq_directory_iff {mode : Mode} :
    m.stat r = .ok ⟨.directory, mode⟩
      ↔ ∃ l, m.locate true r = .ok l ∧ m.tree.get? l = some (.directory mode) := by
  unfold stat
  rw [Except.bind_eq_ok_iff]
  constructor
  · intro h
    obtain ⟨l, hlocate, h⟩ := h
    split at h
    next mode' hnode =>
      cases h
      exact ⟨l, hlocate, hnode⟩
    next => cases h
    next => cases h
  · intro h
    obtain ⟨l, hlocate, hnode⟩ := h
    refine ⟨l, hlocate, ?_⟩
    rw [hnode]
    rfl

/-- A route leads to a file or to a directory, if anywhere. -/
theorem kind_of_stat {st : Stat} (h : m.stat r = .ok st) :
    st = ⟨.file, st.mode⟩ ∨ st = ⟨.directory, st.mode⟩ := by
  unfold stat at h
  obtain ⟨l, -, h⟩ := Except.bind_eq_ok_iff.1 h
  split at h
  next =>
    cases h
    exact .inr rfl
  next =>
    cases h
    exact .inl rfl
  next => cases h

theorem read_eq_ok_iff {bytes : ByteArray} :
    m.read r = .ok bytes
      ↔ ∃ l mode, m.locate true r = .ok l ∧ m.tree.get? l = some (.file bytes mode) := by
  unfold read
  rw [Except.bind_eq_ok_iff]
  constructor
  · intro h
    obtain ⟨l, hlocate, h⟩ := h
    split at h
    next bytes' mode hnode =>
      cases h
      exact ⟨l, mode, hlocate, hnode⟩
    next => cases h
    next => cases h
  · intro h
    obtain ⟨l, mode, hlocate, hnode⟩ := h
    refine ⟨l, hlocate, ?_⟩
    rw [hnode]
    rfl

end Machine

/-! ## §3. Routes that name their way. -/

/-- A route from the root by names alone. -/
structure Route.Spells (r : Route) (l : Location) : Prop where
  absolute : r.absolute = true
  names : r.names = l
  directory : r.directory = false

namespace Route

theorem spells_ofLocation (l : Location) : (ofLocation l).Spells l := ⟨rfl, rfl, rfl⟩

/-- Where a route is followed to. -/
theorem follow_eq_walk {r : Route} (h : r.isEmpty = false) (t : Tree) (cwd : Location)
    (last : Bool) : t.follow cwd last r
      = t.walk last Tree.maxLinks (if r.absolute then [] else cwd) r.names r.directory := by
  unfold Tree.follow
  rw [h]
  rfl

theorem follow_of_absolute {r : Route} (h : r.absolute = true) (t : Tree) (cwd : Location)
    (last : Bool) : t.follow cwd last r = t.walk last Tree.maxLinks [] r.names r.directory := by
  rw [follow_eq_walk (by simp [isEmpty, h]), if_pos h]

/-- Where a route leads. -/
theorem locate_eq_ok_iff {r : Route} (h : r.isEmpty = false) {t : Tree} {cwd l : Location} :
    t.locate cwd true r = .ok l ↔
      t.Leads Tree.maxLinks (if r.absolute then [] else cwd) r.names r.directory l := by
  unfold Tree.locate
  rw [follow_eq_walk h, ← Tree.walk_eq_node_iff]
  cases t.walk true Tree.maxLinks (if r.absolute then [] else cwd) r.names r.directory with
  | error e => simp
  | ok spot =>
      cases spot with
      | node l' => simp
      | vacant l' directory => simp

/-- Where a route from the root leads. -/
theorem locate_eq_ok_iff_leads {r : Route} (h : r.absolute = true) {t : Tree} {cwd l : Location} :
    t.locate cwd true r = .ok l ↔ t.Leads Tree.maxLinks [] r.names r.directory l := by
  rw [locate_eq_ok_iff (by simp [isEmpty, h]), if_pos h]

/-- **A route that goes on from that of a directory by one name** steps down from
the directory, with single dots before the name or not. -/
theorem follow_of_leads {t : Tree} {cwd dir : Location} {directory target : Route} {name : String}
    {i : Nat}
    (h : t.Leads Tree.maxLinks (if directory.absolute then [] else cwd) directory.names true dir)
    (hnames : target.names = directory.names ++ List.replicate i "." ++ [name])
    (habsolute : target.absolute = directory.absolute) : ∃ links, ∀ last,
      t.follow cwd last target = t.walk last links dir [name] target.directory := by
  obtain ⟨links, hwalk⟩ := h.walk_append_dots
  refine ⟨links, fun last => ?_⟩
  rw [follow_eq_walk (by simp [isEmpty, hnames]), hnames, habsolute]
  exact hwalk last i name [] target.directory

/-- It leads to the file of that name. -/
theorem locate_of_leads {t : Tree} {cwd dir : Location} {directory target : Route} {name : String}
    {bytes : ByteArray} {mode : Mode} {i : Nat}
    (h : t.Leads Tree.maxLinks (if directory.absolute then [] else cwd) directory.names true dir)
    (hnames : target.names = directory.names ++ List.replicate i "." ++ [name])
    (habsolute : target.absolute = directory.absolute) (hslash : target.directory = false)
    (hname : Tree.IsPlain name) (hnode : t.get? (dir ++ [name]) = some (.file bytes mode))
    (last : Bool) : t.locate cwd last target = .ok (dir ++ [name]) := by
  obtain ⟨links, hfollow⟩ := follow_of_leads h hnames habsolute
  unfold Tree.locate
  rw [hfollow, hslash, Tree.walk_plain _ _ _ _ _ _ hname, hnode]
  rfl

theorem Spells.follow {r : Route} {l : Location} (h : r.Spells l) (t : Tree) (cwd : Location)
    (last : Bool) : t.follow cwd last r = t.walk last Tree.maxLinks [] l false := by
  rw [follow_of_absolute h.absolute, h.names, h.directory]

theorem checkNul_of_checkText {r : Route} (h : r.checkText = .ok ()) : r.checkNul = .ok () := by
  unfold checkText at h
  cases hn : r.checkNul with
  | ok => rfl
  | error e =>
      rw [hn] at h
      cases h

end Route

/-- Where a route leads persists with the shape of the tree. -/
theorem Machine.locate_persists {m m' : Machine} {r : Route} {l : Location}
    (hr : r.isEmpty = false) (hkeep : m.tree.Persists m'.tree)
    (hstart : (if r.absolute then [] else m'.cwd) = if r.absolute then [] else m.cwd)
    (h : m.locate true r = .ok l) : m'.locate true r = .ok l := by
  obtain ⟨htext, hlocate⟩ := locate_eq_ok_iff.1 h
  rw [Route.locate_eq_ok_iff hr] at hlocate
  refine locate_eq_ok_iff.2 ⟨htext, (Route.locate_eq_ok_iff hr).2 ?_⟩
  rw [hstart]
  exact hlocate.persists hkeep (Nat.le_refl _)

/-- So does what is seen there. -/
theorem Machine.stat_persists {m m' : Machine} {r : Route} (hr : r.absolute = true)
    (hkeep : m.tree.Persists m'.tree) {kind : NodeKind} {mode : Mode}
    (h : m.stat r = .ok ⟨kind, mode⟩) : ∃ mode', m'.stat r = .ok ⟨kind, mode'⟩ := by
  have hlocate (l : Location) (hl : m.locate true r = .ok l) : m'.locate true r = .ok l :=
    locate_persists (by simp [Route.isEmpty, hr]) hkeep (by rw [if_pos hr, if_pos hr]) hl
  -- no link stands at the end of a route that is followed to its end
  rcases kind_of_stat h with hfile | hdirectory
  · obtain rfl := (Stat.mk.inj hfile).1
    obtain ⟨l, bytes, hl, hn⟩ := stat_eq_file_iff.1 h
    obtain ⟨bytes', mode', hn'⟩ := hkeep.file hn
    exact ⟨mode', stat_eq_file_iff.2 ⟨l, bytes', hlocate l hl, hn'⟩⟩
  · obtain rfl := (Stat.mk.inj hdirectory).1
    obtain ⟨l, hl, hn⟩ := stat_eq_directory_iff.1 h
    obtain ⟨mode', hn'⟩ := hkeep.directory hn
    exact ⟨mode', stat_eq_directory_iff.2 ⟨l, hlocate l hl, hn'⟩⟩

/-! ## §4. Files in folders. -/

/-- A regular file in a directory that names alone lead to. -/
structure Machine.HasFile (m : Machine) (dir : Location) (name : String) (bytes : ByteArray)
    (mode : Mode) : Prop where
  folder : m.tree.IsFolder dir
  plain : Tree.IsPlain name
  node : m.tree.get? (dir ++ [name]) = some (.file bytes mode)

namespace Machine

variable {m : Machine} {dir : Location} {name : String} {bytes : ByteArray} {mode : Mode}
  {r : Route}

/-- The walk to a place in a folder. -/
theorem follow_child (hdir : m.tree.IsFolder dir) (hr : r.Spells (dir ++ [name])) (last : Bool) :
    m.tree.follow m.cwd last r = m.tree.walk last Tree.maxLinks dir [name] false := by
  rw [hr.follow, Tree.walk_folder hdir]

theorem walk_long {last : Bool} {links : Nat} (hdot : name ≠ ".") (hdots : name ≠ "..")
    (hlong : Tree.maxName < name.utf8ByteSize) :
    m.tree.walk last links dir [name] false = .error .nameTooLong := by
  rw [Tree.walk_cons]
  simp only [beq_false_of_ne hdot, beq_false_of_ne hdots, Bool.false_eq_true, if_false,
    if_pos hlong]

theorem HasFile.locate (h : m.HasFile dir name bytes mode) (hr : r.Spells (dir ++ [name]))
    (last : Bool) : m.tree.locate m.cwd last r = .ok (dir ++ [name]) := by
  unfold Tree.locate
  rw [follow_child h.folder hr, Tree.walk_plain _ _ _ _ _ _ h.plain, h.node]
  rfl

theorem HasFile.locate_checked (h : m.HasFile dir name bytes mode) (hr : r.Spells (dir ++ [name]))
    (ht : r.checkText = .ok ()) (last : Bool) : m.locate last r = .ok (dir ++ [name]) :=
  locate_eq_ok_iff.2 ⟨ht, h.locate hr last⟩

theorem HasFile.stat (h : m.HasFile dir name bytes mode) (hr : r.Spells (dir ++ [name]))
    (ht : r.checkText = .ok ()) : m.stat r = .ok ⟨.file, mode⟩ :=
  stat_eq_file_iff.2 ⟨_, bytes, h.locate_checked hr ht true, h.node⟩

theorem HasFile.read (h : m.HasFile dir name bytes mode) (hr : r.Spells (dir ++ [name]))
    (ht : r.checkText = .ok ()) : m.read r = .ok bytes :=
  read_eq_ok_iff.2 ⟨_, mode, h.locate_checked hr ht true, h.node⟩

theorem HasFile.canonicalize (h : m.HasFile dir name bytes mode)
    (ht : (Route.ofLocation (dir ++ [name])).checkText = .ok ()) :
    m.canonicalize (.ofLocation (dir ++ [name])) = .ok (dir ++ [name]) :=
  canonicalize_eq_ok_iff.2
    ⟨Route.checkNul_of_checkText ht, h.locate (Route.spells_ofLocation _) true, ht⟩

/-- Where something is seen, a walk has got there. -/
theorem walk_of_stat (hdir : m.tree.IsFolder dir) {st : Stat}
    (h : m.stat (.ofLocation (dir ++ [name])) = .ok st) :
    (Route.ofLocation (dir ++ [name])).checkText = .ok () ∧ ∃ l n,
      m.tree.walk true Tree.maxLinks dir [name] false = .ok (.node l) ∧ m.tree.get? l = some n ∧
        n.kind = st.kind := by
  have hwalk (l : Location) (hl : m.locate true (.ofLocation (dir ++ [name])) = .ok l) :
      (Route.ofLocation (dir ++ [name])).checkText = .ok () ∧
        m.tree.walk true Tree.maxLinks dir [name] false = .ok (.node l) := by
    obtain ⟨htext, hlocate⟩ := locate_eq_ok_iff.1 hl
    have hleads := (Route.locate_eq_ok_iff_leads (Route.spells_ofLocation _).absolute).1 hlocate
    refine ⟨htext, ?_⟩
    rw [← Tree.walk_folder hdir]
    exact Tree.walk_of_leads hleads
  -- in both cases the node is the one that the walk has come to
  rcases kind_of_stat h with hfile | hdirectory
  · rw [hfile] at h ⊢
    obtain ⟨l, bytes, hl, hn⟩ := stat_eq_file_iff.1 h
    exact ⟨(hwalk l hl).1, l, _, (hwalk l hl).2, hn, rfl⟩
  · rw [hdirectory] at h ⊢
    obtain ⟨l, hl, hn⟩ := stat_eq_directory_iff.1 h
    exact ⟨(hwalk l hl).1, l, _, (hwalk l hl).2, hn, rfl⟩

/-- The name of what is seen is not too long. -/
theorem short_of_stat (hdir : m.tree.IsFolder dir) (hdot : name ≠ ".") (hdots : name ≠ "..")
    {st : Stat} (h : m.stat (.ofLocation (dir ++ [name])) = .ok st) :
    name.utf8ByteSize ≤ Tree.maxName := by
  obtain ⟨-, l, n, hwalk, -⟩ := walk_of_stat hdir h
  by_contra hlong
  rw [walk_long hdot hdots (Nat.not_le.1 hlong)] at hwalk
  cases hwalk

/-- Something stands where something is seen. -/
theorem get?_ne_none_of_stat (hdir : m.tree.IsFolder dir) (hdot : name ≠ ".") (hdots : name ≠ "..")
    {st : Stat} (h : m.stat (.ofLocation (dir ++ [name])) = .ok st) :
    m.tree.get? (dir ++ [name]) ≠ none := by
  obtain ⟨-, l, n, hwalk, -⟩ := walk_of_stat hdir h
  intro hnone
  rw [Tree.walk_plain _ _ _ _ _ _ ⟨hdot, hdots, short_of_stat hdir hdot hdots h⟩, hnone] at hwalk
  cases hwalk

/-! ## §5. Making a file and moving it. -/

/-- A temporary file can be made in a directory. -/
structure HasRoom (m : Machine) (dir : Location) : Prop where
  first : ((Route.ofLocation dir).child (tempName 0)).checkText = .ok ()
  free : ((Route.ofLocation dir).child (m.freeName dir)).checkText = .ok ()
  short : (m.freeName dir).utf8ByteSize ≤ Tree.maxName

/-- Whether there is room depends on which names of temporary files are free. -/
theorem HasRoom.congr {m' : Machine} (hroom : m.HasRoom dir)
    (h : ∀ n, m.tree.get? (dir ++ [tempName n]) = none ↔ m'.tree.get? (dir ++ [tempName n]) = none) :
    m'.HasRoom dir := by
  have hfree := freeName_congr h
  exact ⟨hroom.first, hfree ▸ hroom.free, hfree ▸ hroom.short⟩

/-- A file can be moved over a place in a directory. -/
structure Takes (m : Machine) (dir : Location) (name : String) : Prop where
  text : (Route.ofLocation (dir ++ [name])).checkText = .ok ()
  short : name.utf8ByteSize ≤ Tree.maxName
  free_or_file : ∀ mode, m.tree.get? (dir ++ [name]) ≠ some (.directory mode)

/-- **Removing a file or a link.** -/
theorem remove_eq_ok_iff (hdir : m.tree.IsFolder dir) (hdot : name ≠ ".") (hdots : name ≠ "..")
    (hr : r.Spells (dir ++ [name])) {m' : Machine} :
    m.remove r = .ok m' ↔
      (r.checkText = .ok () ∧ name.utf8ByteSize ≤ Tree.maxName ∧
        m.tree.get? (dir ++ [name]) ≠ none ∧
        ∀ mode, m.tree.get? (dir ++ [name]) ≠ some (.directory mode)) ∧
      m' = m.withTree (m.tree.erase (dir ++ [name])) := by
  have hlocate (l : Location) : m.locate false r = .ok l ↔
      r.checkText = .ok () ∧ name.utf8ByteSize ≤ Tree.maxName ∧
        m.tree.get? (dir ++ [name]) ≠ none ∧ dir ++ [name] = l := by
    rw [locate_eq_ok_iff]
    refine and_congr_right fun _ => ?_
    unfold Tree.locate
    rw [follow_child hdir hr]
    by_cases hshort : name.utf8ByteSize ≤ Tree.maxName
    · rw [Tree.walk_plain _ _ _ _ _ _ ⟨hdot, hdots, hshort⟩]
      cases hnode : m.tree.get? (dir ++ [name]) with
      | none => simp
      | some n =>
          cases n <;> simp [Tree.walk_nil, hshort]
    · rw [walk_long hdot hdots (Nat.not_le.1 hshort)]
      simp [hshort]
  unfold remove
  rw [Except.bind_eq_ok_iff]
  constructor
  · intro h
    obtain ⟨l, hl, h⟩ := h
    obtain ⟨htext, hshort, hnode, rfl⟩ := (hlocate l).1 hl
    split at h
    next => cases h
    next n hother heq =>
      refine ⟨⟨htext, hshort, hnode, ?_⟩, (Except.ok.inj h).symm⟩
      intro mode hdirectory
      rw [heq] at hdirectory
      exact hother mode (Option.some.inj hdirectory)
    next => cases h
  · intro h
    obtain ⟨⟨htext, hshort, hnode, hother⟩, rfl⟩ := h
    refine ⟨_, (hlocate _).2 ⟨htext, hshort, hnode, rfl⟩, ?_⟩
    split
    next mode heq => exact absurd heq (hother mode)
    next => rfl
    next heq => exact absurd heq hnode

/-- Where a file is seen, a file or a link can be removed. -/
theorem remove_of_stat_file (hdir : m.tree.IsFolder dir) (hdot : name ≠ ".") (hdots : name ≠ "..")
    (h : m.stat (.ofLocation (dir ++ [name])) = .ok ⟨.file, mode⟩) :
    ∃ m', m.remove (.ofLocation (dir ++ [name])) = .ok m' := by
  obtain ⟨htext, l, n, hwalk, hn, hkind⟩ := walk_of_stat hdir h
  have hshort := short_of_stat hdir hdot hdots h
  refine ⟨_, (remove_eq_ok_iff hdir hdot hdots (Route.spells_ofLocation _)).2 ⟨⟨htext, hshort,
    get?_ne_none_of_stat hdir hdot hdots h, ?_⟩, rfl⟩⟩
  -- a directory in this place would have been seen as one
  intro mode' hdirectory
  rw [Tree.walk_plain _ _ _ _ _ _ ⟨hdot, hdots, hshort⟩, hdirectory] at hwalk
  dsimp only at hwalk
  rw [Tree.walk_nil] at hwalk
  obtain rfl := Tree.Spot.node.inj (Except.ok.inj hwalk)
  rw [hdirectory] at hn
  obtain rfl := Option.some.inj hn
  cases hkind

end Machine

end ArtifactPatch
