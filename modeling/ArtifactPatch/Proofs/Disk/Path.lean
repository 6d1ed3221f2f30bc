/-
  ArtifactPatch.Proofs.Disk.Path
  ──────────────────────────────
  **A PATH AND ITS PARENT.**

  The parent of a path is found in its text: the text is cut behind the last
  component but one, and single dots and empty pieces are no components.  A file
  system follows names.  So the names of a path are those of its parent, then the
  last name, and around that single dots, which lead nowhere (`continues_of_parent?`).
-/
import Mathlib.Data.List.Induction
import ArtifactPatch.Disk.Path

namespace ArtifactPatch

/-! ## §1. Cutting a text at a separator. -/

/-- The cut is the one of the library. -/
theorem Text.splitOn_eq (sep : Char) (t : Text) : splitOn sep t = List.splitOn sep t := by
  have hgo (piece t : Text) :
      splitOn.go sep piece t = List.splitOnPPrepend (· == sep) t piece := by
    induction t generalizing piece with
    | nil => rw [splitOn.go, List.splitOnPPrepend_nil]
    | cons c t ih =>
        have hnext : splitOn.go sep [] t = List.splitOnP (· == sep) t := ih []
        rw [splitOn.go, List.splitOnPPrepend_cons_eq_if, hnext, ih (c :: piece)]
        simp only [beq_iff_eq]
  exact hgo [] t

/-- No piece has the separator in it. -/
theorem Text.not_mem_of_mem_splitOn {sep : Char} {t piece : Text} (h : piece ∈ splitOn sep t) :
    sep ∉ piece := by
  -- the piece that is being read has none either
  have hgo (t done : Text) (hdone : sep ∉ done) :
      ∀ piece ∈ splitOn.go sep done t, sep ∉ piece := by
    induction t generalizing done with
    | nil => simpa [splitOn.go] using hdone
    | cons c t ih =>
        unfold splitOn.go
        split
        next =>
          refine List.forall_mem_cons.2 ⟨by simpa using hdone, ?_⟩
          exact ih [] List.not_mem_nil
        next hc =>
          refine ih (c :: done) fun hmem => ?_
          rcases List.mem_cons.1 hmem with heq | hmem
          · exact hc heq.symm
          · exact hdone hmem
  exact hgo t [] List.not_mem_nil piece h

namespace PathText

theorem not_mem_of_mem_pieces {p piece : String} (h : piece ∈ pieces p) : '/' ∉ piece.toList := by
  unfold pieces at h
  obtain ⟨t, ht, rfl⟩ := List.mem_map.1 h
  rw [String.toList_ofList]
  exact Text.not_mem_of_mem_splitOn ht

/-- A path that is put together, as a text. -/
theorem toList_intercalate (ps : List String) :
    ("/".intercalate ps).toList = ['/'].intercalate (ps.map String.toList) :=
  String.toList_intercalate

/-- A path is its pieces with slashes between them. -/
theorem intercalate_pieces (p : String) : "/".intercalate (pieces p) = p := by
  rw [← String.toList_inj, toList_intercalate]
  unfold pieces
  have hround : String.toList ∘ String.ofList = id := funext fun t => String.toList_ofList
  rw [List.map_map, hround, List.map_id, Text.splitOn_eq]
  exact List.intercalate_splitOn '/'

/-- Pieces without a slash are found again. -/
theorem pieces_intercalate {ps : List String} (hne : ps ≠ [])
    (h : ∀ piece ∈ ps, '/' ∉ piece.toList) : pieces ("/".intercalate ps) = ps := by
  have hround : String.ofList ∘ String.toList = id := funext fun s => String.ofList_toList
  unfold pieces
  rw [toList_intercalate, Text.splitOn_eq,
    List.splitOn_intercalate '/' (by simpa using h) (by simpa using hne), List.map_map, hround, List.map_id]

theorem isAbsolute_of_not_mem {p : String} (h : '/' ∉ p.toList) : isAbsolute p = false := by
  unfold isAbsolute
  rw [beq_eq_false_iff_ne]
  intro hhead
  exact h (List.mem_of_head? hhead)

/-- Of several pieces, the first decides whether the path begins with a slash. -/
theorem isAbsolute_intercalate_cons {piece : String} {rest : List String}
    (hpiece : '/' ∉ piece.toList) (hrest : rest ≠ []) :
    isAbsolute ("/".intercalate (piece :: rest)) = piece.isEmpty := by
  obtain ⟨next, rest, rfl⟩ := List.exists_cons_of_ne_nil hrest
  unfold isAbsolute
  rw [toList_intercalate, List.map_cons, List.map_cons, List.intercalate_cons_cons]
  cases hlist : piece.toList with
  | nil =>
      rw [String.toList_eq_nil_iff] at hlist
      rw [hlist]
      rfl
  | cons c cs =>
      have hc : c ≠ '/' := by
        rintro rfl
        exact hpiece (hlist ▸ List.mem_cons_self)
      have hempty : piece.isEmpty = false := by
        rw [Bool.eq_false_iff]
        intro he
        rw [String.isEmpty_iff] at he
        rw [he] at hlist
        cases hlist
      rw [hempty]
      simpa using hc

/-! ## §2. Components. -/

/-- Where the components stand among some pieces. -/
def componentsAt (ps : List String) : List Nat :=
  (ps.zipIdx.filter fun (piece, i) => isComponent piece i).map Prod.snd

theorem componentsAt_concat (ps : List String) (piece : String) :
    componentsAt (ps ++ [piece]) =
      componentsAt ps ++ if isComponent piece ps.length then [ps.length] else [] := by
  unfold componentsAt
  rw [List.zipIdx_append, List.filter_append, List.map_append, List.zipIdx_singleton,
    List.filter_cons, List.filter_nil, Nat.zero_add]
  dsimp only
  split
  next => rfl
  next => rfl

/-- What is no component is empty or a dot. -/
theorem eq_of_not_isComponent {piece : String} {i : Nat} (h : isComponent piece i = false) :
    piece = "" ∨ piece = "." := by
  unfold isComponent at h
  by_cases hempty : piece = ""
  · exact .inl hempty
  · by_cases hdot : piece = "."
    · exact .inr hdot
    · simp [hempty, hdot] at h

theorem ne_empty_of_isComponent {piece : String} {i : Nat} (h : isComponent piece i = true) :
    piece ≠ "" := by
  rintro rfl
  cases h

/-- Where there are no components, all is empty or a dot. -/
theorem eq_of_componentsAt_eq_nil {ps : List String} (h : componentsAt ps = []) :
    ∀ piece ∈ ps, piece = "" ∨ piece = "." := by
  induction ps using List.reverseRecOn with
  | nil => simp
  | append_singleton ps last ih =>
      rw [componentsAt_concat, List.append_eq_nil_iff] at h
      obtain ⟨hfront, hlast⟩ := h
      have hnot : isComponent last ps.length = false := by
        rw [Bool.eq_false_iff]
        intro hcomponent
        rw [if_pos hcomponent] at hlast
        cases hlast
      intro piece hpiece
      rcases List.mem_append.1 hpiece with hpiece | hpiece
      · exact ih hfront piece hpiece
      · rw [List.mem_singleton.1 hpiece]
        exact eq_of_not_isComponent hnot

/-- **The last component**: behind it, all is empty or a dot. -/
theorem exists_last_component {ps : List String} {i : Nat} {others : List Nat}
    (h : (componentsAt ps).reverse = i :: others) : ∃ front name back, ps = front ++ name :: back ∧
      front.length = i ∧ name ≠ "" ∧ (∀ piece ∈ back, piece = "" ∨ piece = ".") ∧
      (componentsAt front).reverse = others := by
  induction ps using List.reverseRecOn with
  | nil => cases h
  | append_singleton ps last ih =>
      rw [componentsAt_concat] at h
      cases hlast : isComponent last ps.length with
      | true =>
          rw [hlast, if_pos rfl, List.reverse_append] at h
          obtain ⟨rfl, hothers⟩ := List.cons.inj h
          exact ⟨ps, last, [], rfl, rfl, ne_empty_of_isComponent hlast, by simp, hothers⟩
      | false =>
          rw [hlast, if_neg Bool.false_ne_true, List.append_nil] at h
          obtain ⟨front, name, back, rfl, hfront, hname, hback, hothers⟩ := ih h
          refine ⟨front, name, back ++ [last], by simp, hfront, hname, ?_, hothers⟩
          intro piece hpiece
          rcases List.mem_append.1 hpiece with hpiece | hpiece
          · exact hback piece hpiece
          · rw [List.mem_singleton.1 hpiece]
            exact eq_of_not_isComponent hlast

/-- **A path that is cut behind a component** begins as the path does, and has the
pieces up to there. -/
theorem cut_behind {p last : String} {first rest : List String}
    (hpieces : pieces p = first ++ [last] ++ rest) (hlast : last ≠ "") (hrest : rest ≠ []) :
    isAbsolute ("/".intercalate (first ++ [last])) = isAbsolute p ∧
      pieces ("/".intercalate (first ++ [last])) = first ++ [last] := by
  have hslash : ∀ piece ∈ first ++ [last], '/' ∉ piece.toList := by
    intro piece hpiece
    refine not_mem_of_mem_pieces (p := p) ?_
    rw [hpieces]
    exact List.mem_append_left _ hpiece
  refine ⟨?_, pieces_intercalate (by simp) hslash⟩
  have hp : p = "/".intercalate (first ++ [last] ++ rest) := by rw [← hpieces, intercalate_pieces]
  rw [hp]
  cases first with
  | nil =>
      -- a component by itself does not begin with a slash, and is not empty in front of one
      have hnot := hslash last (by simp)
      have hempty : last.isEmpty = false := by simpa using hlast
      show isAbsolute ("/".intercalate [last]) = isAbsolute ("/".intercalate (last :: rest))
      rw [isAbsolute_intercalate_cons hnot hrest, hempty]
      exact isAbsolute_of_not_mem (by simpa [toList_intercalate] using hnot)
  | cons piece first =>
      have hnot := hslash piece (by simp)
      simp only [List.cons_append]
      rw [isAbsolute_intercalate_cons hnot (by simp), isAbsolute_intercalate_cons hnot (by simp)]

/-- The parent of a path with one component. -/
theorem isAbsolute_and_pieces_root (absolute : Bool) :
    isAbsolute (if absolute then "/" else "") = absolute ∧
      (pieces (if absolute then "/" else "")).filter (!·.isEmpty) = [] := by
  cases absolute with
  | true => exact ⟨rfl, rfl⟩
  | false => exact ⟨rfl, rfl⟩

/-- **How the parent of a path is cut**: off go the last component and, around it,
what is empty or a dot. -/
theorem pieces_of_parent? {p d : String} (h : parent? p = some d) :
    isAbsolute p = isAbsolute d ∧ ∃ front between name back,
      pieces p = front ++ between ++ name :: back ∧ name ≠ "" ∧
      (∀ piece ∈ between ++ back, piece = "" ∨ piece = ".") ∧
      (pieces d).filter (!·.isEmpty) = front.filter (!·.isEmpty) := by
  unfold parent? ancestors at h
  dsimp only at h
  split at h
  next => cases h
  next j others hends =>
      obtain ⟨front, name, back, hpieces, -, hname, hback, hothers⟩ := exists_last_component hends
      cases others with
      | nil =>
          -- one component: the parent is the root, or says nothing
          obtain rfl : (if isAbsolute p then "/" else "") = d := Option.some.inj h
          obtain ⟨habsolute, hempty⟩ := isAbsolute_and_pieces_root (isAbsolute p)
          have hfront := eq_of_componentsAt_eq_nil (List.reverse_eq_nil_iff.1 hothers)
          exact ⟨habsolute.symm, [], front, name, back, hpieces, hname,
            List.forall_mem_append.2 ⟨hfront, hback⟩, hempty⟩
      | cons i others =>
          -- the last but one ends the parent
          obtain rfl : "/".intercalate ((pieces p).take (i + 1)) = d := Option.some.inj h
          obtain ⟨first, last, between, rfl, rfl, hlast, hbetween, -⟩ :=
            exists_last_component hothers
          have hwhole : pieces p = first ++ [last] ++ (between ++ name :: back) := by
            rw [hpieces]
            simp
          have htake : (pieces p).take (first.length + 1) = first ++ [last] := by
            rw [hwhole]
            exact List.take_left' (by simp)
          obtain ⟨habsolute, hcut⟩ := cut_behind hwhole hlast (by simp)
          rw [htake]
          exact ⟨habsolute.symm, first ++ [last], between, name, back,
            hwhole.trans (List.append_assoc ..).symm, hname,
            List.forall_mem_append.2 ⟨hbetween, hback⟩, by rw [hcut]⟩

end PathText

/-! ## §3. Routes. -/

namespace Route

/-- A route goes on from another by one name, with single dots around it. -/
structure Continues (r target : Route) (name : String) : Prop where
  absolute : target.absolute = r.absolute
  names : ∃ i j, target.names = r.names ++ List.replicate i "." ++ name :: List.replicate j "."

theorem Continues.isEmpty_eq_false {r target : Route} {name : String}
    (h : r.Continues target name) : target.isEmpty = false := by
  obtain ⟨-, i, j, hnames⟩ := h
  simp [isEmpty, hnames]

/-- A dot behind the name would be the last name. -/
theorem Continues.of_getLast? {r target : Route} {name last : String}
    (h : r.Continues target name) (hlast : target.names.getLast? = some last) (hdot : last ≠ ".") :
    last = name ∧ ∃ i, target.names = r.names ++ List.replicate i "." ++ [name] := by
  obtain ⟨-, i, j, hnames⟩ := h
  rw [hnames] at hlast ⊢
  cases j with
  | zero =>
      rw [List.replicate_zero, List.getLast?_concat] at hlast
      exact ⟨(Option.some.inj hlast).symm, i, rfl⟩
  | succ j =>
      rw [List.replicate_succ', ← List.cons_append, ← List.append_assoc,
        List.getLast?_concat] at hlast
      exact absurd (Option.some.inj hlast).symm hdot

/-- **A path goes on from its parent.** -/
theorem continues_of_parent? {p d : String} (h : PathText.parent? p = some d) :
    ∃ name, (ofText d).Continues (ofText p) name := by
  obtain ⟨habsolute, front, between, name, back, hpieces, hname, hdots, hfront⟩ :=
    PathText.pieces_of_parent? h
  have hfilter (ps : List String) (hps : ∀ piece ∈ ps, piece = "" ∨ piece = ".") :
      ∃ i, ps.filter (!·.isEmpty) = List.replicate i "." := by
    refine ⟨_, List.eq_replicate_of_mem fun piece hpiece => ?_⟩
    obtain ⟨hmem, hkept⟩ := List.mem_filter.1 hpiece
    rcases hps piece hmem with rfl | hdot
    · cases hkept
    · exact hdot
  obtain ⟨i, hi⟩ := hfilter between fun piece hpiece => hdots piece (List.mem_append_left _ hpiece)
  obtain ⟨j, hj⟩ := hfilter back fun piece hpiece => hdots piece (List.mem_append_right _ hpiece)
  refine ⟨name, habsolute, i, j, ?_⟩
  show (PathText.pieces p).filter (!·.isEmpty) = (PathText.pieces d).filter (!·.isEmpty) ++ _ ++ _
  have hkept : (!name.isEmpty) = true := by simpa using hname
  rw [hpieces, List.filter_append, List.filter_append, List.filter_cons, if_pos hkept, hi, hj,
    hfront]

end Route

end ArtifactPatch
