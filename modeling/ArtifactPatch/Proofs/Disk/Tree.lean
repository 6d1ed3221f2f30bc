/-
  ArtifactPatch.Proofs.Disk.Tree
  ──────────────────────────────
  **TREES AND WALKS.**

  A tree is known by its nodes (`get?`); `put` and `erase` change it at one
  location.  `Leads` is the walk that follows links, as a relation with one
  rule for each kind of name, and `walk_eq_node_iff` says that the two agree.
  From it:

    * `Leads.folder_or_file` — a walk ends at a folder or at a regular file in
      a folder, so its end is reached by names alone;
    * `Leads.persists` — a walk that succeeds goes on succeeding when files
      get other bytes, free places are filled and links that lead nowhere are
      replaced.
-/
import ArtifactPatch.Disk.Tree

namespace ArtifactPatch

/-- Names tell the places of a directory apart. -/
theorem Location.concat_ne (dir : Location) {a b : String} (h : a ≠ b) :
    dir ++ [a] ≠ dir ++ [b] := by
  intro heq
  exact h (List.singleton_inj.1 ((List.append_right_inj dir).1 heq))

theorem Location.concat_inj {dir dir' : Location} {a b : String} (h : dir ++ [a] = dir' ++ [b]) :
    dir = dir' ∧ a = b := by
  obtain ⟨hdir, hname⟩ := List.append_inj' h rfl
  exact ⟨hdir, List.singleton_inj.1 hname⟩

namespace Tree

/-! ## §1. Nodes of a changed tree. -/

@[simp] theorem get?_nil (t : Tree) : t.get? [] = some (.directory 0o755) := rfl

theorem get?_of_ne_nil (t : Tree) {l : Location} (h : l ≠ []) :
    t.get? l = t.entries.lookup l := by
  unfold get?
  rw [if_neg (by rw [List.isEmpty_iff]; exact h)]

theorem lookup_filter_ne (entries : List (Location × Node)) {l k : Location} (h : k ≠ l) :
    (entries.filter (·.1 != l)).lookup k = entries.lookup k := by
  induction entries with
  | nil => rfl
  | cons e entries ih =>
      obtain ⟨a, n⟩ := e
      by_cases ha : a = l
      · subst ha
        have hk : (k == a) = false := beq_false_of_ne h
        rw [List.filter_cons_of_neg (by simp), ih, List.lookup_cons, hk]
      · rw [List.filter_cons_of_pos (by simpa using ha), List.lookup_cons, List.lookup_cons, ih]

theorem lookup_filter_self (entries : List (Location × Node)) (l : Location) :
    (entries.filter (·.1 != l)).lookup l = none := by
  rw [List.lookup_eq_none_iff]
  intro e he
  have hne := (List.mem_filter.1 he).2
  rw [bne_iff_ne] at hne
  exact bne_iff_ne.2 (Ne.symm hne)

theorem get?_erase {t : Tree} {l : Location} (hl : l ≠ []) (k : Location) :
    (t.erase l).get? k = if k = l then none else t.get? k := by
  by_cases hk : k = []
  · subst hk
    rw [if_neg (Ne.symm hl), get?_nil, get?_nil]
  · rw [get?_of_ne_nil _ hk, get?_of_ne_nil _ hk]
    split
    next heq =>
      rw [heq]
      exact lookup_filter_self t.entries l
    next hne => exact lookup_filter_ne t.entries hne

theorem get?_put {t : Tree} {l : Location} (hl : l ≠ []) (n : Node) (k : Location) :
    (t.put l n).get? k = if k = l then some n else t.get? k := by
  by_cases hk : k = []
  · subst hk
    rw [if_neg (Ne.symm hl), get?_nil, get?_nil]
  · rw [get?_of_ne_nil _ hk]
    show ((l, n) :: (t.erase l).entries).lookup k = _
    rw [List.lookup_cons]
    split
    next heq =>
      rw [beq_iff_eq] at heq
      rw [if_pos heq]
    next hne =>
      rw [beq_eq_false_iff_ne] at hne
      rw [if_neg hne, ← get?_of_ne_nil _ hk, get?_erase hl, if_neg hne]

theorem ne_nil_of_free {t : Tree} {l : Location} (h : t.get? l = none) : l ≠ [] := by
  rintro rfl
  cases h

/-- Where nothing is, nothing is erased. -/
theorem erase_of_free {t : Tree} {l : Location} (h : t.get? l = none) : t.erase l = t := by
  rw [get?_of_ne_nil t (ne_nil_of_free h), List.lookup_eq_none_iff] at h
  refine congrArg Tree.mk (List.filter_eq_self.2 fun e he => ?_)
  rw [bne_comm]
  exact h e he

theorem erase_put (t : Tree) (l : Location) (n : Node) : (t.put l n).erase l = t.erase l := by
  refine congrArg Tree.mk ?_
  show ((l, n) :: t.entries.filter (·.1 != l)).filter (·.1 != l) = t.entries.filter (·.1 != l)
  rw [List.filter_cons, if_neg (by simp), List.filter_filter]
  simp

/-- What is put twice at one place is put there once. -/
theorem put_put (t : Tree) (l : Location) (n n' : Node) : (t.put l n).put l n' = t.put l n' :=
  congrArg (fun erased : Tree => Tree.mk ((l, n') :: erased.entries)) (erase_put t l n)

/-! ## §2. Folders. -/

/-- A name by which a walk steps down. -/
structure IsPlain (name : String) : Prop where
  ne_dot : name ≠ "."
  ne_dots : name ≠ ".."
  short : name.utf8ByteSize ≤ maxName

/-- A directory that the root leads to by names alone. -/
inductive IsFolder (t : Tree) : Location → Prop
  | root : IsFolder t []
  | child {dir : Location} {name : String} {mode : Mode} (h : IsFolder t dir)
      (hname : IsPlain name) (hnode : t.get? (dir ++ [name]) = some (.directory mode)) :
      IsFolder t (dir ++ [name])

theorem IsFolder.get?_eq {t : Tree} {l : Location} (h : t.IsFolder l) :
    ∃ mode, t.get? l = some (.directory mode) := by
  cases h with
  | root => exact ⟨_, rfl⟩
  | child _ _ hnode => exact ⟨_, hnode⟩

theorem IsFolder.parent {t : Tree} {l : Location} (h : t.IsFolder l) : t.IsFolder l.parent := by
  cases h with
  | root => exact .root
  | @child dir name mode h hname hnode =>
      show t.IsFolder (dir ++ [name]).dropLast
      rw [List.dropLast_concat]
      exact h

/-! ## §3. Walks that follow links. -/

theorem walk_nil (t : Tree) (last : Bool) (links : Nat) (here : Location) (directory : Bool) :
    t.walk last links here [] directory = .ok (.node here) := by
  cases links with
  | zero => rfl
  | succ links => rfl

/-- The next name of a walk. -/
theorem walk_cons (t : Tree) (last : Bool) (links : Nat) (here : Location) (name : String)
    (rest : List String) (directory : Bool) :
    t.walk last links here (name :: rest) directory
      = if name == "." then t.walk last links here rest directory
        else if name == ".." then t.walk last links here.parent rest directory
        else if maxName < name.utf8ByteSize then .error .nameTooLong
        else match t.get? (here ++ [name]) with
        | none =>
            if rest.isEmpty then .ok (.vacant (here ++ [name]) directory) else .error .notFound
        | some (.directory _) => t.walk last links (here ++ [name]) rest directory
        | some (.file ..) =>
            if rest.isEmpty && !directory then .ok (.node (here ++ [name]))
            else .error .notADirectory
        | some (.link target) =>
            if rest.isEmpty && !last && !directory then .ok (.node (here ++ [name]))
            else match links with
              | 0 => .error .tooManyLinks
              | links + 1 =>
                  t.walk last links (if (Route.ofText target).absolute then [] else here)
                    ((Route.ofText target).names ++ rest)
                    (directory || (rest.isEmpty && (Route.ofText target).directory)) := by
  cases links with
  | zero => rfl
  | succ links => rfl

/-- One step down, by the node that stands there. -/
theorem walk_plain (t : Tree) (last : Bool) (links : Nat) (here : Location) {name : String}
    (rest : List String) (directory : Bool) (hname : IsPlain name) :
    t.walk last links here (name :: rest) directory
      = match t.get? (here ++ [name]) with
        | none =>
            if rest.isEmpty then .ok (.vacant (here ++ [name]) directory) else .error .notFound
        | some (.directory _) => t.walk last links (here ++ [name]) rest directory
        | some (.file ..) =>
            if rest.isEmpty && !directory then .ok (.node (here ++ [name]))
            else .error .notADirectory
        | some (.link target) =>
            if rest.isEmpty && !last && !directory then .ok (.node (here ++ [name]))
            else match links with
              | 0 => .error .tooManyLinks
              | links + 1 =>
                  t.walk last links (if (Route.ofText target).absolute then [] else here)
                    ((Route.ofText target).names ++ rest)
                    (directory || (rest.isEmpty && (Route.ofText target).directory)) := by
  have hdot : (name == ".") = false := beq_false_of_ne hname.ne_dot
  have hdots : (name == "..") = false := beq_false_of_ne hname.ne_dots
  rw [walk_cons]
  simp only [hdot, hdots, Bool.false_eq_true, if_false, if_neg (Nat.not_lt.2 hname.short)]

/-- The walk down the names of a folder. -/
theorem walk_folder {t : Tree} {dir : Location} (h : t.IsFolder dir) (last : Bool) (links : Nat)
    (names : List String) (directory : Bool) :
    t.walk last links [] (dir ++ names) directory = t.walk last links dir names directory := by
  induction h generalizing names with
  | root => rfl
  | @child dir name mode _ hname hnode ih =>
      rw [List.append_assoc, List.singleton_append, ih, walk_plain t last links dir names directory
        hname, hnode]

/-- Where a walk leads that follows links to the end. -/
inductive Leads (t : Tree) : (links : Nat) → (here : Location) → (names : List String) →
    (directory : Bool) → Location → Prop
  | here (links : Nat) (here : Location) (directory : Bool) : Leads t links here [] directory here
  | dot {links : Nat} {here l : Location} {rest : List String} {directory : Bool}
      (h : Leads t links here rest directory l) : Leads t links here ("." :: rest) directory l
  | dots {links : Nat} {here l : Location} {rest : List String} {directory : Bool}
      (h : Leads t links here.parent rest directory l) :
      Leads t links here (".." :: rest) directory l
  | down {links : Nat} {here l : Location} {name : String} {rest : List String}
      {directory : Bool} {mode : Mode} (hname : IsPlain name)
      (hnode : t.get? (here ++ [name]) = some (.directory mode))
      (h : Leads t links (here ++ [name]) rest directory l) :
      Leads t links here (name :: rest) directory l
  | file {links : Nat} {here : Location} {name : String} {bytes : ByteArray} {mode : Mode}
      (hname : IsPlain name) (hnode : t.get? (here ++ [name]) = some (.file bytes mode)) :
      Leads t links here [name] false (here ++ [name])
  | link {links : Nat} {here l : Location} {name target : String} {rest : List String}
      {directory : Bool} (hname : IsPlain name)
      (hnode : t.get? (here ++ [name]) = some (.link target))
      (h : Leads t links (if (Route.ofText target).absolute then [] else here)
        ((Route.ofText target).names ++ rest)
        (directory || (rest.isEmpty && (Route.ofText target).directory)) l) :
      Leads t (links + 1) here (name :: rest) directory l

/-- One induction on the names, for any number of links to spare. -/
theorem leads_of_walkNames {t : Tree} {links : Nat}
    {onLink : Location → List String → Bool → Except OsError Spot}
    (honLink : ∀ here names directory l, onLink here names directory = .ok (.node l) →
      ∃ links', links = links' + 1 ∧ t.Leads links' here names directory l)
    {names : List String} {here l : Location} {directory : Bool}
    (h : t.walkNames true onLink here names directory = .ok (.node l)) :
    t.Leads links here names directory l := by
  induction names generalizing here with
  | nil =>
      obtain rfl := Spot.node.inj (Except.ok.inj h)
      exact .here links here directory
  | cons name rest ih =>
      unfold walkNames at h
      by_cases hdot : name = "."
      · rw [if_pos (beq_iff_eq.2 hdot)] at h
        rw [hdot]
        exact .dot (ih h)
      rw [if_neg (by rwa [beq_iff_eq])] at h
      by_cases hdots : name = ".."
      · rw [if_pos (beq_iff_eq.2 hdots)] at h
        rw [hdots]
        exact .dots (ih h)
      rw [if_neg (by rwa [beq_iff_eq])] at h
      by_cases hlong : maxName < name.utf8ByteSize
      · rw [if_pos hlong] at h
        cases h
      rw [if_neg hlong] at h
      -- from here on the name is a plain one, and the node below it decides
      have hname : IsPlain name := ⟨hdot, hdots, Nat.not_lt.1 hlong⟩
      dsimp only at h
      cases hnode : t.get? (here ++ [name]) with
      | none =>
          rw [hnode] at h
          dsimp only at h
          split at h
          next => cases h
          next => cases h
      | some n =>
          rw [hnode] at h
          cases n with
          | directory mode => exact .down hname hnode (ih h)
          | file bytes mode =>
              dsimp only at h
              split at h
              next hend =>
                obtain rfl := Spot.node.inj (Except.ok.inj h)
                rw [Bool.and_eq_true, List.isEmpty_iff, Bool.not_eq_true'] at hend
                obtain ⟨rfl, rfl⟩ := hend
                exact .file hname hnode
              next => cases h
          | link target =>
              -- a walk to the end follows every link, also the last
              simp only [Bool.not_true, Bool.and_false, Bool.false_and, Bool.false_eq_true,
                if_false] at h
              obtain ⟨links', rfl, hleads⟩ := honLink _ _ _ _ h
              exact .link hname hnode hleads

theorem leads_of_walk {t : Tree} {links : Nat} {here l : Location} {names : List String}
    {directory : Bool} (h : t.walk true links here names directory = .ok (.node l)) :
    t.Leads links here names directory l := by
  -- a followed link starts on new names with a link less to spare, so the links come first
  induction links generalizing here l names directory with
  | zero =>
      refine leads_of_walkNames ?_ h
      intro here names directory l hlink
      cases hlink
  | succ links ih =>
      refine leads_of_walkNames ?_ h
      intro here names directory l hlink
      exact ⟨links, rfl, ih hlink⟩

theorem walk_of_leads {t : Tree} {links : Nat} {here l : Location} {names : List String}
    {directory : Bool} (h : t.Leads links here names directory l) :
    t.walk true links here names directory = .ok (.node l) := by
  induction h with
  | here links here directory => exact walk_nil t true links here directory
  | dot _ ih =>
      rw [walk_cons]
      exact ih
  | dots _ ih =>
      rw [walk_cons]
      exact ih
  | down hname hnode _ ih =>
      rw [walk_plain t true _ _ _ _ hname, hnode]
      exact ih
  | file hname hnode =>
      rw [walk_plain t true _ _ _ _ hname, hnode]
      rfl
  | link hname hnode _ ih =>
      rw [walk_plain t true _ _ _ _ hname, hnode]
      simp only [Bool.not_true, Bool.and_false, Bool.false_and, Bool.false_eq_true, if_false]
      exact ih

/-- **The relation is the walk.** -/
theorem walk_eq_node_iff {t : Tree} {links : Nat} {here l : Location} {names : List String}
    {directory : Bool} :
    t.walk true links here names directory = .ok (.node l)
      ↔ t.Leads links here names directory l :=
  ⟨leads_of_walk, walk_of_leads⟩

/-- A walk ends in one place. -/
theorem Leads.unique {t : Tree} {links : Nat} {here l l' : Location} {names : List String}
    {directory : Bool} (h : t.Leads links here names directory l)
    (h' : t.Leads links here names directory l') : l = l' := by
  have heq := (walk_of_leads h).symm.trans (walk_of_leads h')
  exact Spot.node.inj (Except.ok.inj heq)

namespace Leads

/-- **Where a walk can end**: at a folder, or at a file in a folder. -/
theorem folder_or_file {t : Tree} {links : Nat} {here l : Location} {names : List String}
    {directory : Bool} (h : t.Leads links here names directory l) (hhere : t.IsFolder here) :
    t.IsFolder l ∨ ∃ dir name bytes mode, l = dir ++ [name] ∧ t.IsFolder dir ∧ IsPlain name
      ∧ t.get? l = some (.file bytes mode) := by
  induction h with
  | here => exact .inl hhere
  | dot _ ih => exact ih hhere
  | dots _ ih => exact ih hhere.parent
  | down hname hnode _ ih => exact ih (.child hhere hname hnode)
  | file hname hnode => exact .inr ⟨_, _, _, _, rfl, hhere, hname, hnode⟩
  | @link links here l name target rest directory hname hnode _ ih =>
      -- a target is walked from the root or from where the link stands
      refine ih ?_
      split
      · exact .root
      · exact hhere

/-- **The first names of a walk lead somewhere too**, also with more links to
spare.  A slash at the end must be accounted for by a name behind them, or by the
walk itself. -/
theorem of_prefix {t : Tree} {links : Nat} {here l : Location} {names : List String}
    {directory : Bool} (h : t.Leads links here names directory l) :
    ∀ {front : List String} {links' : Nat} {directory' : Bool}, front <+: names → links ≤ links' →
      (directory' = true → front = names → directory = true) →
      ∃ l', t.Leads links' here front directory' l' := by
  induction h with
  | here links here directory =>
      intro front links' directory' hfront _ _
      obtain rfl := List.prefix_nil.1 hfront
      exact ⟨here, .here links' here directory'⟩
  | @dot links here l names directory _ ih =>
      intro front links' directory' hfront hlinks hslash
      rcases List.prefix_cons_iff.1 hfront with rfl | ⟨front, rfl, htail⟩
      · exact ⟨here, .here links' here directory'⟩
      · obtain ⟨l', h⟩ := ih htail hlinks fun hd heq => hslash hd (congrArg _ heq)
        exact ⟨l', .dot h⟩
  | @dots links here l names directory _ ih =>
      intro front links' directory' hfront hlinks hslash
      rcases List.prefix_cons_iff.1 hfront with rfl | ⟨front, rfl, htail⟩
      · exact ⟨here, .here links' here directory'⟩
      · obtain ⟨l', h⟩ := ih htail hlinks fun hd heq => hslash hd (congrArg _ heq)
        exact ⟨l', .dots h⟩
  | @down links here l name names directory mode hname hnode _ ih =>
      intro front links' directory' hfront hlinks hslash
      rcases List.prefix_cons_iff.1 hfront with rfl | ⟨front, rfl, htail⟩
      · exact ⟨here, .here links' here directory'⟩
      · obtain ⟨l', h⟩ := ih htail hlinks fun hd heq => hslash hd (congrArg _ heq)
        exact ⟨l', .down hname hnode h⟩
  | @file links here name bytes mode hname hnode =>
      intro front links' directory' hfront _ hslash
      rcases List.prefix_cons_iff.1 hfront with rfl | ⟨front, rfl, htail⟩
      · exact ⟨here, .here links' here directory'⟩
      · -- a slash behind a file would need something to account for it
        obtain rfl := List.prefix_nil.1 htail
        cases directory' with
        | false => exact ⟨_, .file hname hnode⟩
        | true => cases hslash rfl rfl
  | @link links here l name target names directory hname hnode _ ih =>
      intro front links' directory' hfront hlinks hslash
      rcases List.prefix_cons_iff.1 hfront with rfl | ⟨front, rfl, htail⟩
      · exact ⟨here, .here links' here directory'⟩
      · cases links' with
        | zero => omega
        | succ links' =>
            -- a slash behind the target counts for the front part if nothing follows it
            have hslash' : (directory' || (front.isEmpty && (Route.ofText target).directory)) = true →
                (Route.ofText target).names ++ front = (Route.ofText target).names ++ names →
                (directory || (names.isEmpty && (Route.ofText target).directory)) = true := by
              intro hd heq
              obtain rfl := List.append_cancel_left heq
              rw [Bool.or_eq_true] at hd ⊢
              exact hd.imp_left fun hd => hslash hd rfl
            obtain ⟨l', h⟩ := ih ((List.prefix_append_right_inj _).2 htail)
              (Nat.le_of_succ_le_succ hlinks) hslash'
            exact ⟨l', .link hname hnode h⟩

/-- The target of a link that a walk passes leads somewhere by itself. -/
theorem target {t : Tree} {links links' : Nat} {here l : Location} {target : String}
    {rest : List String} {directory : Bool}
    (h : t.Leads links here ((Route.ofText target).names ++ rest)
      (directory || (rest.isEmpty && (Route.ofText target).directory)) l) (hlinks : links ≤ links') :
    ∃ l', t.Leads links' here (Route.ofText target).names (Route.ofText target).directory l' := by
  refine h.of_prefix (List.prefix_append _ _) hlinks fun hd heq => ?_
  obtain rfl := List.self_eq_append_right.1 heq
  rw [hd, List.isEmpty_nil, Bool.and_true, Bool.or_true]

end Leads

/-- Single dots lead nowhere. -/
theorem walk_dots (t : Tree) (last : Bool) (links : Nat) (here : Location) (n : Nat)
    (names : List String) (directory : Bool) :
    t.walk last links here (List.replicate n "." ++ names) directory
      = t.walk last links here names directory := by
  induction n with
  | zero => rfl
  | succ n ih =>
      rw [List.replicate_succ, List.cons_append, walk_cons]
      exact ih

/-- **A walk into a directory goes on there**, whatever follows it and whether or
not that is followed to the end. -/
theorem Leads.walk_append {t : Tree} {links : Nat} {here dir : Location} {front : List String}
    {directory : Bool} (h : t.Leads links here front directory dir)
    (hdirectory : directory = true) : ∃ links', ∀ last name rest directory',
      t.walk last links here (front ++ name :: rest) directory'
        = t.walk last links' dir (name :: rest) directory' := by
  induction h with
  | here links => exact ⟨links, fun _ _ _ _ => rfl⟩
  | dot _ ih =>
      obtain ⟨links', hwalk⟩ := ih hdirectory
      refine ⟨links', fun last name rest directory' => ?_⟩
      rw [← hwalk, List.cons_append, walk_cons]
      rfl
  | dots _ ih =>
      obtain ⟨links', hwalk⟩ := ih hdirectory
      refine ⟨links', fun last name rest directory' => ?_⟩
      rw [← hwalk, List.cons_append, walk_cons]
      rfl
  | down hname hnode _ ih =>
      obtain ⟨links', hwalk⟩ := ih hdirectory
      refine ⟨links', fun last name rest directory' => ?_⟩
      rw [← hwalk, List.cons_append, walk_plain t last _ _ _ _ hname, hnode]
  | file => cases hdirectory
  | @link links here l name target front directory hname hnode _ ih =>
      -- what follows the link is walked behind the names of its target
      obtain ⟨links', hwalk⟩ := ih (by rw [hdirectory, Bool.true_or])
      refine ⟨links', fun last next rest directory' => ?_⟩
      have hempty : (front ++ next :: rest).isEmpty = false := by simp
      rw [← hwalk, List.cons_append, walk_plain t last _ _ _ _ hname, hnode]
      simp only [hempty, Bool.false_and, Bool.false_eq_true, if_false, Bool.or_false,
        List.append_assoc]

/-- It also goes on behind single dots. -/
theorem Leads.walk_append_dots {t : Tree} {links : Nat} {here dir : Location}
    {front : List String} (h : t.Leads links here front true dir) :
    ∃ links', ∀ last i name rest directory',
      t.walk last links here (front ++ List.replicate i "." ++ name :: rest) directory'
        = t.walk last links' dir (name :: rest) directory' := by
  obtain ⟨links', hwalk⟩ := h.walk_append rfl
  refine ⟨links', fun last i name rest directory' => ?_⟩
  cases i with
  | zero => simpa using hwalk last name rest directory'
  | succ i =>
      rw [List.append_assoc, List.replicate_succ, List.cons_append, hwalk, walk_cons]
      exact walk_dots t last links' dir i (name :: rest) directory'

/-- A dot at the end asks for a directory. -/
theorem leads_concat_dot_iff {t : Tree} {links : Nat} {here dir : Location} {names : List String} :
    t.Leads links here (names ++ ["."]) false dir ↔ t.Leads links here names true dir := by
  have hend {l : Location} (h : t.Leads links here names true l) :
      t.Leads links here (names ++ ["."]) false l := by
    obtain ⟨links', hwalk⟩ := h.walk_append rfl
    rw [← walk_eq_node_iff, hwalk, walk_cons]
    exact walk_nil t true links' l false
  constructor
  · intro h
    have hfront : ∃ l, t.Leads links here names true l :=
      h.of_prefix (List.prefix_append names ["."]) (Nat.le_refl _) fun _ heq => by simp at heq
    obtain ⟨l, hl⟩ := hfront
    rwa [h.unique (hend hl)]
  · exact hend

/-- The names of a folder lead into it. -/
theorem IsFolder.leads {t : Tree} {dir : Location} (h : t.IsFolder dir) (links : Nat) :
    t.Leads links [] dir true dir := by
  have hwalk := walk_folder h true links [] true
  rw [List.append_nil, walk_nil] at hwalk
  exact walk_eq_node_iff.1 hwalk

/-! ## §4. Walks in a changed tree. -/

/-- Nodes that a walk cannot tell apart. -/
def SameShape : Node → Node → Prop
  | .directory _, .directory _ => True
  | .file .., .file .. => True
  | .link a, .link b => a = b
  | _, _ => False

theorem SameShape.refl (n : Node) : SameShape n n := by
  cases n with
  | link target => rfl
  | _ => trivial

/-- A link that leads to no node. -/
def LeadsNowhere (t : Tree) (l : Location) : Prop :=
  ∃ target, t.get? l = some (.link target) ∧
    ∀ l', ¬t.Leads (maxLinks - 1) (if (Route.ofText target).absolute then [] else l.parent)
      (Route.ofText target).names (Route.ofText target).directory l'

/-- Every node of `t` that leads somewhere has its like in `t'`. -/
def Persists (t t' : Tree) : Prop :=
  ∀ l n, t.get? l = some n → t.LeadsNowhere l ∨ ∃ n', t'.get? l = some n' ∧ SameShape n n'

/-- What is put where nothing was leaves all as it is. -/
theorem persists_put {t : Tree} {l : Location} (h : t.get? l = none) (n : Node) :
    t.Persists (t.put l n) := by
  intro k x hx
  have hk : k ≠ l := by
    rintro rfl
    rw [h] at hx
    cases hx
  refine .inr ⟨x, ?_, SameShape.refl x⟩
  rw [get?_put (ne_nil_of_free h), if_neg hk, hx]

/-- A node that is no link has its like. -/
theorem Persists.get?_eq_some {t t' : Tree} (hkeep : t.Persists t') {l : Location} {n : Node}
    (h : t.get? l = some n) (hlink : ∀ target, n ≠ .link target) :
    ∃ n', t'.get? l = some n' ∧ SameShape n n' := by
  refine (hkeep l n h).resolve_left ?_
  intro hnowhere
  obtain ⟨target, htarget, -⟩ := hnowhere
  rw [h] at htarget
  exact hlink target (Option.some.inj htarget)

theorem Persists.directory {t t' : Tree} (hkeep : t.Persists t') {l : Location} {mode : Mode}
    (h : t.get? l = some (.directory mode)) : ∃ mode', t'.get? l = some (.directory mode') := by
  obtain ⟨n', hn', hshape⟩ := hkeep.get?_eq_some h fun _ => nofun
  cases n' with
  | directory mode' => exact ⟨mode', hn'⟩
  | file => exact hshape.elim
  | link => exact hshape.elim

theorem Persists.file {t t' : Tree} (hkeep : t.Persists t') {l : Location} {bytes : ByteArray}
    {mode : Mode} (h : t.get? l = some (.file bytes mode)) :
    ∃ bytes' mode', t'.get? l = some (.file bytes' mode') := by
  obtain ⟨n', hn', hshape⟩ := hkeep.get?_eq_some h fun _ => nofun
  cases n' with
  | file bytes' mode' => exact ⟨bytes', mode', hn'⟩
  | directory => exact hshape.elim
  | link => exact hshape.elim

/-- **Walks persist.**  A walk that succeeds never passes a link that leads
nowhere, so what becomes of such a link does not concern it. -/
theorem Leads.persists {t t' : Tree} (hkeep : t.Persists t') {links : Nat} {here l : Location}
    {names : List String} {directory : Bool} (h : t.Leads links here names directory l)
    (hlinks : links ≤ maxLinks) : t'.Leads links here names directory l := by
  induction h with
  | here links here directory => exact .here links here directory
  | dot _ ih => exact .dot (ih hlinks)
  | dots _ ih => exact .dots (ih hlinks)
  | down hname hnode _ ih =>
      obtain ⟨mode', hnode'⟩ := hkeep.directory hnode
      exact .down hname hnode' (ih hlinks)
  | file hname hnode =>
      obtain ⟨bytes', mode', hnode'⟩ := hkeep.file hnode
      exact .file hname hnode'
  | @link links here l name target rest directory hname hnode h ih =>
      rcases hkeep _ _ hnode with ⟨target', hlink, hdead⟩ | ⟨n', hn', hshape⟩
      · -- the target is the front part of what was still to be walked, so it leads somewhere
        rw [hnode] at hlink
        obtain rfl := Node.link.inj (Option.some.inj hlink)
        obtain ⟨l', h'⟩ := h.target (show _ ≤ maxLinks - 1 by omega)
        have hparent : Location.parent (here ++ [name]) = here := List.dropLast_concat
        rw [hparent] at hdead
        exact absurd h' (hdead l')
      · cases n' with
        | directory => exact hshape.elim
        | file => exact hshape.elim
        | link target' =>
            obtain rfl : target = target' := hshape
            exact .link hname hn' (ih (by omega))

/-- A link that leads to a directory. -/
def LinkToDirectory (t : Tree) (l : Location) : Prop :=
  ∃ target dir, t.get? l = some (.link target) ∧
    t.Leads (maxLinks - 1) (if (Route.ofText target).absolute then [] else l.parent)
      (Route.ofText target).names true dir

/-- A walk that asks for a directory passes no file, and no link that leads to
none, so what is put there does not concern it. -/
theorem Leads.persists_put {t : Tree} {l : Location} {n : Node} (hl : l ≠ [])
    (hdirectory : ∀ mode, t.get? l ≠ some (.directory mode)) (hlink : ¬t.LinkToDirectory l)
    {links : Nat} {here k : Location} {names : List String} {directory : Bool}
    (h : t.Leads links here names directory k) (hasks : directory = true)
    (hlinks : links ≤ maxLinks) : (t.put l n).Leads links here names directory k := by
  have hsame {k : Location} (hk : k ≠ l) : (t.put l n).get? k = t.get? k := by
    rw [get?_put hl, if_neg hk]
  induction h with
  | here links here directory => exact .here links here directory
  | dot _ ih => exact .dot (ih hasks hlinks)
  | dots _ ih => exact .dots (ih hasks hlinks)
  | @down links here k name rest directory mode hname hnode _ ih =>
      have hne : here ++ [name] ≠ l := by
        rintro rfl
        exact hdirectory mode hnode
      exact .down hname ((hsame hne).trans hnode) (ih hasks hlinks)
  | file => cases hasks
  | @link links here k name target rest directory hname hnode h ih =>
      -- a link that is passed leads to a directory, as something follows or a slash does
      have hne : here ++ [name] ≠ l := by
        rintro rfl
        have htarget : ∃ dir, t.Leads (maxLinks - 1)
            (if (Route.ofText target).absolute then [] else here) (Route.ofText target).names true
            dir :=
          h.of_prefix (List.prefix_append _ rest) (by omega) fun _ _ => by rw [hasks, Bool.true_or]
        obtain ⟨dir, hdir⟩ := htarget
        have hparent : Location.parent (here ++ [name]) = here := List.dropLast_concat
        exact hlink ⟨target, dir, hnode, by rwa [hparent]⟩
      exact .link hname ((hsame hne).trans hnode) (ih (by rw [hasks, Bool.true_or]) (by omega))

/-- Folders persist. -/
theorem IsFolder.persists {t t' : Tree} (hkeep : t.Persists t') {l : Location}
    (h : t.IsFolder l) : t'.IsFolder l := by
  induction h with
  | root => exact .root
  | child _ hname hnode ih =>
      obtain ⟨mode', hnode'⟩ := hkeep.directory hnode
      exact .child ih hname hnode'

end Tree

end ArtifactPatch
