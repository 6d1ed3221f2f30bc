/-
  ArtifactPatch.Proofs.Pattern.PlainText
  ──────────────────────────────────────
  **A SHAPE OF PLAIN TEXT AND A MARKER.**

  A plain text can be asked for as a marker, which is counted by a search for a
  needle, or as a shape without placeholders, which is counted by the scan of a
  pattern.  The scan passes over copies of the text that stand within an
  identifier, so the two searches may take different copies, also where both
  count as many:

      a.a  in  ba.a.a      the marker takes the copy at 1, the shape the one at 3

  Each of them finds as many hits as can be packed.  A copy that the scan takes
  is one for the other search, and where no edge of the text is an identifier
  character the converse holds, too.  Main result: `shape_count_le_marker_count`.
-/
import ArtifactPatch.Profile.Basic
import ArtifactPatch.Proofs.Pattern.Occurrence

namespace ArtifactPatch

open Text (lastFrom)

namespace Pattern

variable {t content : Text} {before : Option Char}

/-! ## §1. Plain texts as patterns. -/

theorem literal_ne_nil (t : Text) : [Segment.literal t] ≠ [] :=
  List.cons_ne_nil _ _

theorem literal_boundaries_clear (t : Text) : Segment.boundaryError? [.literal t] = none := rfl

/-- The pattern of one literal. -/
def plain (t : Text) : Pattern :=
  ⟨[.literal t], literal_ne_nil t, literal_boundaries_clear t⟩

/-- Doubling the dollar signs is the notation of a literal. -/
theorem replaceAll_dollar (t : Text) :
    Text.replaceAll ['$'] ['$', '$'] t = Segment.renderOne (.literal t) := by
  have hne : ['$'] ≠ [] := by decide
  induction t with
  | nil => rfl
  | cons c t ih =>
      rw [Segment.renderOne_literal_cons]
      by_cases hc : c = '$'
      · subst hc
        rw [if_pos rfl, ← ih]
        exact Text.replaceAll_hit hne t
      · have hmiss : Text.after? ['$'] (c :: t) = none := by
          simp [Text.after?, Ne.symm hc]
        rw [if_neg hc, ← ih, Text.replaceAll_miss hne hmiss]
        rfl

/-- **A text compiles to its pattern**, with its dollar signs doubled. -/
theorem compile_replaceAll_dollar (hne : t ≠ []) :
    compile (String.ofList (Text.replaceAll ['$'] ['$', '$'] t)) = .ok (plain t) := by
  have hsource : (String.ofList (Text.replaceAll ['$'] ['$', '$'] t)).toList
      = Segment.renderOne (.literal t) := by
    rw [String.toList_ofList, replaceAll_dollar]
  unfold compile
  rw [Segment.parse_literal_source hne hsource]
  rfl

theorem plain_solid (hne : t ≠ []) : (plain t).Solid := by
  intro hmem
  exact hne (Segment.literal.inj (List.mem_singleton.1 hmem)).symm

/-- **A match of a plain text** is a copy of it that no identifier goes on
across. -/
theorem front_plain_iff {s : Text} {n : Nat} :
    (plain t).front before s n ↔ ∃ rest, s = t ++ rest ∧ n = t.length ∧
      (beginsWithIdentChar t && before.any isIdentChar) = false ∧
      (endsWithIdentChar t && beginsWithIdentChar rest) = false := by
  have hread (captures : Captures) (rest : Text) :
      readSegments (plain t).segments [] s = some (captures, rest) ↔
        s = t ++ rest ∧ captures = [] := by
    show readSegments [.literal t] [] s = _ ↔ _
    rw [readSegments_literal_iff]
    constructor
    · rintro ⟨rest', hs, hrest⟩
      obtain ⟨rfl, rfl⟩ := Prod.mk.inj (Option.some.inj hrest)
      exact ⟨hs, rfl⟩
    · rintro ⟨hs, rfl⟩
      exact ⟨rest, hs, rfl⟩
  unfold front
  simp only [matchFront?_eq_some_iff, hread]
  constructor
  · rintro ⟨captures, hfirst, u, rest, hu, hlength, ⟨hs, -⟩, hlast⟩
    obtain rfl := List.append_cancel_right (hu.symm.trans hs)
    exact ⟨rest, hs, hlength.symm, hfirst, hlast⟩
  · rintro ⟨rest, hs, hlength, hfirst, hlast⟩
    exact ⟨[], hfirst, t, rest, hs, hlength.symm, ⟨hs, rfl⟩, hlast⟩

/-! ## §2. The two counts. -/

/-- **The scan takes copies of the text only**, and so many can be counted. -/
theorem count_plain_le (hne : t ≠ []) (content : Text) :
    (plain t).count content ≤ Text.occurrences t content := by
  have hsearch := (matches_splits (plain_solid hne) content).greedy
  refine (hsearch.packs.mono fun before s n hfront => ?_).le_occurrences hne
  obtain ⟨rest, hs, hn, -, -⟩ := front_plain_iff.1 hfront
  exact ⟨⟨rest, hs.symm⟩, hn⟩

/-- **Where no identifier could go on, the scan takes every copy.** -/
theorem le_count_plain (hne : t ≠ []) (hbegins : beginsWithIdentChar t = false)
    (hends : endsWithIdentChar t = false) (content : Text) :
    Text.occurrences t content ≤ (plain t).count content := by
  have hsearch := Text.greedy_occurrences hne none content
  refine le_count (plain_solid hne) (hsearch.packs.mono fun before s n hfront => ?_)
  obtain ⟨⟨rest, hs⟩, hn⟩ := hfront
  refine front_plain_iff.2 ⟨rest, hs.symm, hn, ?_, ?_⟩
  · rw [hbegins, Bool.false_and]
  · rw [hends, Bool.false_and]

/-- Nothing is counted where an identifier goes on across every copy. -/
theorem count_plain_eq_zero (hne : t ≠ [])
    (hcrossed : ∀ a b, content = a ++ (t ++ b) →
      (beginsWithIdentChar t && (lastFrom none a).any isIdentChar) = true ∨
        (endsWithIdentChar t && beginsWithIdentChar b) = true) :
    (plain t).count content = 0 := by
  show ((plain t).matches content).length = 0
  rw [List.length_eq_zero_iff, List.eq_nil_iff_forall_not_mem]
  intro m hm
  obtain ⟨a, b, hcontent, -, -, -, hmatch⟩ := mem_scan (plain_solid hne) [] content m hm
  obtain ⟨rest, hrest, hlength, hfirst, hlast⟩ := front_plain_iff.1 ⟨m.captures, hmatch⟩
  obtain ⟨htext, rfl⟩ := List.append_inj hrest hlength
  rw [List.nil_append, List.append_assoc, htext] at hcontent
  rcases hcrossed a b hcontent with h | h
  · rw [hfirst] at h
    cases h
  · rw [hlast] at h
    cases h

/-- An identifier character that is another one than this. -/
theorem exists_isIdentChar_ne (c : Char) : ∃ d, isIdentChar d = true ∧ d ≠ c := by
  by_cases hc : c = 'a'
  · exact ⟨'b', by decide, by rw [hc]; decide⟩
  · exact ⟨'a', by decide, Ne.symm hc⟩

/-- A text that begins with an identifier character is counted as a marker where
another such character stands in front of it, but not as a shape. -/
theorem exists_count_lt_of_begins (h : beginsWithIdentChar t = true) :
    ∃ content, (plain t).count content < Text.occurrences t content := by
  cases t with
  | nil => cases h
  | cons c u =>
      have hne : c :: u ≠ [] := List.cons_ne_nil c u
      obtain ⟨d, hd, hdc⟩ := exists_isIdentChar_ne c
      have hmiss : Text.after? (c :: u) (d :: (c :: u ++ [])) = none := by
        simp [Text.after?, Ne.symm hdc]
      have hmarker : Text.occurrences (c :: u) (d :: (c :: u ++ [])) = 1 := by
        rw [Text.occurrences_miss hne hmiss, Text.occurrences_hit hne, Text.occurrences_nil]
      refine ⟨d :: (c :: u ++ []), ?_⟩
      rw [hmarker, count_plain_eq_zero hne]
      · exact Nat.one_pos
      · intro a b hab
        -- the copy does not begin at the other character, so it begins behind it
        cases a with
        | nil => exact absurd (List.cons.inj hab).1 hdc
        | cons e a =>
            obtain ⟨rfl, htail⟩ := List.cons.inj hab
            have hlength : (c :: u).length + 0 = a.length + ((c :: u).length + b.length) := by
              have := congrArg List.length htail
              simpa only [List.append_eq, List.length_append, List.length_nil] using this
            obtain rfl : a = [] := List.eq_nil_of_length_eq_zero (by omega)
            refine .inl ?_
            rw [h]
            exact hd

/-- The same of a text that ends with an identifier character. -/
theorem exists_count_lt_of_ends (h : endsWithIdentChar t = true) :
    ∃ content, (plain t).count content < Text.occurrences t content := by
  have hne : t ≠ [] := by
    intro hnil
    rw [hnil] at h
    cases h
  obtain ⟨d, hd, hdc⟩ := exists_isIdentChar_ne (t.getLast hne)
  refine ⟨t ++ [d], ?_⟩
  rw [Text.occurrences_hit hne, count_plain_eq_zero hne]
  · exact Nat.succ_pos _
  · intro a b hab
    have hlength := congrArg List.length hab
    simp only [List.length_append, List.length_singleton] at hlength
    -- the copy does not end with the other character, so it ends in front of it
    rcases List.eq_nil_or_concat b with rfl | ⟨b, e, rfl⟩
    · have hlast := congrArg List.getLast? hab
      rw [List.append_nil, List.getLast?_concat, List.getLast?_append_of_ne_nil a hne,
        List.getLast?_eq_some_getLast hne] at hlast
      exact absurd (Option.some.inj hlast) hdc
    · rw [List.concat_eq_append, List.length_append, List.length_singleton] at hlength
      obtain rfl : a = [] := List.eq_nil_of_length_eq_zero (by omega)
      obtain rfl : b = [] := List.eq_nil_of_length_eq_zero (by omega)
      obtain rfl := List.singleton_inj.1 (List.append_cancel_left hab)
      refine .inr ?_
      rw [h]
      exact hd

end Pattern

namespace Expectation

/-- **A plain text is never counted more often as a shape than as a marker.**  For
every text with a character: its source, with every dollar sign doubled, compiles;
in every content the shape is counted at most as often as the marker; and the two
counts are equal in every content exactly if the text neither begins nor ends with
an identifier character. -/
theorem shape_count_le_marker_count {t : Text} (hne : t ≠ []) (min min' : Nat) :
    ∃ p, (Demand.shape (String.ofList (Text.replaceAll ['$'] ['$', '$'] t)) min).compile
        = .ok (.shape p min) ∧
      (∀ content, (shape p min).count content ≤ (marker t min').count content) ∧
      ((∀ content, (shape p min).count content = (marker t min').count content) ↔
        beginsWithIdentChar t = false ∧ endsWithIdentChar t = false) := by
  refine ⟨.plain t, ?_, Pattern.count_plain_le hne, ?_, ?_⟩
  · show (Pattern.compile _).map _ = _
    rw [Pattern.compile_replaceAll_dollar hne]
    rfl
  · intro hequal
    refine ⟨Bool.eq_false_iff.2 fun hbegins => ?_, Bool.eq_false_iff.2 fun hends => ?_⟩
    · obtain ⟨content, hlt⟩ := Pattern.exists_count_lt_of_begins hbegins
      exact Nat.ne_of_lt hlt (hequal content)
    · obtain ⟨content, hlt⟩ := Pattern.exists_count_lt_of_ends hends
      exact Nat.ne_of_lt hlt (hequal content)
  · rintro ⟨hbegins, hends⟩ content
    exact Nat.le_antisymm (Pattern.count_plain_le hne content)
      (Pattern.le_count_plain hne hbegins hends content)

/-- Copies that touch, behind an identifier character: the marker takes the first
and the third, the shape only the second.  Between dashes both take every copy
that they come to. -/
theorem shape_count_le_marker_count_sample :
    (∃ p, (Demand.shape "$$.$$" 1).compile = .ok (.shape p 1) ∧
      (∀ content, (shape p 1).count content ≤ (marker "$.$".toList 1).count content) ∧
      (shape p 1).count "b$.$.$.$".toList = 1 ∧
      (marker "$.$".toList 1).count "b$.$.$.$".toList = 2) ∧
    ∃ p, (Demand.shape "-$$-" 1).compile = .ok (.shape p 1) ∧
      ∀ content, (shape p 1).count content = (marker "-$-".toList 1).count content := by
  have hdollar : String.ofList (Text.replaceAll ['$'] ['$', '$'] "$.$".toList) = "$$.$$" := by
    decide
  have hdash : String.ofList (Text.replaceAll ['$'] ['$', '$'] "-$-".toList) = "-$$-" := by decide
  obtain ⟨p, hp, hle, -⟩ := shape_count_le_marker_count (t := "$.$".toList) (by decide) 1 1
  obtain ⟨p', hp', -, hequal⟩ := shape_count_le_marker_count (t := "-$-".toList) (by decide) 1 1
  rw [hdollar] at hp
  rw [hdash] at hp'
  have hplain : (Demand.shape "$$.$$" 1).compile = .ok (.shape (.plain "$.$".toList) 1) := by
    decide +kernel
  rw [hplain] at hp
  obtain ⟨rfl, -⟩ := Expectation.shape.inj (Except.ok.inj hp)
  exact ⟨⟨_, hplain, hle, by decide +kernel, by decide +kernel⟩, p', hp',
    hequal.2 ⟨by decide, by decide⟩⟩

end Expectation

end ArtifactPatch
