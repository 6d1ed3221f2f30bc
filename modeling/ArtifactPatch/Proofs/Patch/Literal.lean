/-
  ArtifactPatch.Proofs.Patch.Literal
  ──────────────────────────────────
  **RULES WITHOUT PLACEHOLDERS.**

  A source without a dollar sign is read as one literal, so two such sources
  compile to a rule that replaces one text by another (`compile_eq_ofTexts`).
  Of the two texts it can be seen whether the rule is final (`FixedRewrite`).
-/
import ArtifactPatch.Proofs.Patch.Final
import ArtifactPatch.Proofs.Pattern.Notation

namespace ArtifactPatch

/-! ## §1. Sources without placeholders. -/

/-- A literal without a dollar sign is written as it stands. -/
theorem Segment.renderOne_of_not_mem {source : Text} (h : '$' ∉ source) :
    renderOne (.literal source) = source := by
  have hplain : ∀ c ∈ source, (if c = '$' then ['$', '$'] else [c]) = [c] := by
    intro c hc
    exact if_neg (ne_of_mem_of_not_mem hc h)
  show source.flatMap _ = source
  rw [List.flatMap_congr hplain]
  exact List.flatMap_singleton' source

theorem Segment.parse_of_not_mem {source : String} (hne : source.toList ≠ [])
    (h : '$' ∉ source.toList) : parse source = .ok [.literal source.toList] :=
  parse_literal_source hne (renderOne_of_not_mem h).symm

namespace Rule

/-- The rule that replaces one text by another. -/
def ofTexts (id : String) (found new : Text) (hne : found ≠ new) : Rule where
  id := id
  pattern := ⟨[.literal found], List.cons_ne_nil _ _, rfl⟩
  template := ⟨[.literal new]⟩
  min := 1
  max := none
  same_placeholders := rfl
  not_noOp := fun h => hne (Segment.literal.inj (List.singleton_inj.1 h))
  one_le_min := Nat.one_pos

/-- Two sources without placeholders compile to such a rule. -/
theorem compile_eq_ofTexts {id found new : String} (hfound : found.toList ≠ [])
    (hnew : new.toList ≠ []) (hplain : '$' ∉ found.toList) (hplain' : '$' ∉ new.toList)
    (hne : found.toList ≠ new.toList) :
    compile id found new = .ok (ofTexts id found.toList new.toList hne) := by
  have hpattern : Pattern.compile found = .ok (ofTexts id found.toList new.toList hne).pattern := by
    unfold Pattern.compile
    rw [Segment.parse_of_not_mem hfound hplain]
    rfl
  have htemplate : Template.compile new
      = .ok (ofTexts id found.toList new.toList hne).template := by
    unfold Template.compile
    rw [Segment.parse_of_not_mem hnew hplain']
    rfl
  unfold compile
  rw [hpattern, htemplate]
  dsimp only [bind, Except.bind]
  rw [dif_pos (ofTexts id found.toList new.toList hne).same_placeholders,
    dif_neg (ofTexts id found.toList new.toList hne).not_noOp]
  rfl

/-! ## §2. Finality. -/

/-- Two texts of which the first is no part of what is around the second. -/
structure FixedRewrite (found new : Text) : Prop where
  found_ne_nil : found ≠ []
  new_ne_nil : new ≠ []
  found_closed : endsWithIdentChar found = false
  new_closed : endsWithIdentChar new = false
  apart : Text.Apart found new
  found_opening : found.head? ≠ some '\n'
  new_opening : new.head? ≠ some '\n'
  found_returns : found.countP (· == '\r') = 0
  new_returns : new.countP (· == '\r') = 0
  newlines : found.countP (· == '\n') ≤ new.countP (· == '\n')

variable {r : Rule} {found new : Text}

theorem FixedRewrite.settles (h : FixedRewrite found new)
    (hpattern : r.pattern.segments = [.literal found])
    (htemplate : r.template.segments = [.literal new]) : r.Settles := by
  have hsolid {t : Text} (ht : t ≠ []) : Segment.literal [] ∉ [Segment.literal t] :=
    fun hmem => ht (Segment.literal.inj (List.mem_singleton.1 hmem)).symm
  refine ⟨?_, ?_, ?_, ?_, ?_, ?_⟩
  · unfold Pattern.Solid
    rw [hpattern]
    exact hsolid h.found_ne_nil
  · unfold Pattern.endsWithIdent
    rw [hpattern]
    exact h.found_closed
  · rw [htemplate]
    exact List.cons_ne_nil _ _
  · rw [htemplate]
    exact hsolid h.new_ne_nil
  · rw [htemplate]
    exact h.new_closed
  · intro captures captures' u u' hu _
    have hfill : r.pattern.fill captures = found := by
      unfold Pattern.fill
      rw [hpattern]
      exact List.append_nil found
    have hfill' : r.template.fill captures' = new := by
      unfold Template.fill
      rw [htemplate]
      exact List.append_nil new
    rw [hu.eq_fill, hfill, hfill']
    exact h.apart

theorem FixedRewrite.keepsLines (h : FixedRewrite found new)
    (hpattern : r.pattern.segments = [.literal found])
    (htemplate : r.template.segments = [.literal new]) : r.KeepsLines := by
  refine ⟨?_, ?_, ?_⟩
  · rw [hpattern]
    exact ⟨h.found_opening, h.found_returns⟩
  · rw [htemplate]
    exact ⟨h.new_opening, h.new_returns⟩
  · rw [hpattern, htemplate]
    exact h.newlines

end Rule

end ArtifactPatch
