/-
  ArtifactPatch.Proofs.Patch.Final
  ────────────────────────────────
  **RULES THAT ARE DONE ONCE THEY ARE DONE.**

  Of a rule alone it can be seen that its matches cannot be laid over what it
  puts in their place (`Rule.Settles`), that it leaves line endings as they are
  (`Rule.KeepsLines`), and that each new text has a hit for an expectation
  (`Rule.grants_marker`, `Rule.grants_shape`).  Then, whatever stands around the
  matches, what is written is read back as it was, meets the expectations, and
  has no match any more (`rewrite_final`).
-/
import ArtifactPatch.Proofs.LineEnding
import ArtifactPatch.Proofs.Patch.Agreement
import ArtifactPatch.Proofs.Pattern.Rescan

namespace ArtifactPatch

/-! ## §1. Lines of filled segments. -/

namespace Segment

variable {segments : List Segment} {captures : Captures}

/-- The first character of filled segments, if it is one of a literal. -/
def opening? : List Segment → Option Char
  | .literal lit :: _ => lit.head?
  | _ => none

/-- No carriage return in the literals, and no newline in front. -/
structure Level (segments : List Segment) : Prop where
  opening?_ne : opening? segments ≠ some '\n'
  returns : literalCount (· == '\r') segments = 0

theorem Level.fill (h : Level segments) (hne : segments ≠ []) (hsolid : .literal [] ∉ segments)
    (hbinds : captures.Binds segments) :
    LineEnding.Level (segments.flatMap (Segment.fill captures)) := by
  refine ⟨flatMap_fill_ne_nil hne hsolid hbinds, ?_, ?_⟩
  · obtain ⟨s, rest, rfl⟩ := List.exists_cons_of_ne_nil hne
    have hs := fill_ne_nil List.mem_cons_self hsolid hbinds
    rw [List.flatMap_cons, List.head?_append_of_ne_nil _ hs]
    cases s with
    | literal lit => exact h.opening?_ne
    | placeholder name =>
        obtain ⟨tok, hbound, htok⟩ := hbinds name List.mem_cons_self
        rw [fill_placeholder hbound]
        intro hhead
        have hnewline := htok.isIdentChar (List.mem_of_mem_head? hhead)
        exact absurd hnewline (by decide)
  · rw [← List.count_eq_zero, count_fill (by decide) hbinds]
    exact h.returns

end Segment

namespace Rule

variable {r : Rule} {captures : Captures} {u content : Text}

/-! ## §2. New texts. -/

theorem all_isOk_outcomesOn_singleton (r : Rule) (content : Text) :
    (outcomesOn [r] content).all RuleOutcome.isOk = r.inBounds (r.pattern.count content) := by
  show ((r.outcomeOn content).isOk && true) = _
  rw [Bool.and_true, isOk_outcomeOn]

theorem min_le_of_inBounds {n : Nat} (h : r.inBounds n = true) : r.min ≤ n :=
  Nat.le_trans (Nat.le_max_left r.min 1) (of_decide_eq_true (Bool.and_eq_true_iff.1 h).1)

/-- A match binds the placeholders of the template to tokens. -/
theorem binds_template (h : r.pattern.IsMatch captures u) : captures.Binds r.template.segments :=
  fun name hname => h.binds name (mem_pattern_of_mem_template hname)

/-! ## §3. Finality. -/

/-- No match of a rule can be laid over what it puts in the place of another,
and no text that it puts in ends where an identifier could go on. -/
structure Settles (r : Rule) : Prop where
  solid : r.pattern.Solid
  closed : r.pattern.endsWithIdent = false
  template_ne_nil : r.template.segments ≠ []
  template_solid : .literal [] ∉ r.template.segments
  template_closed : Segment.endsWithIdent r.template.segments = false
  apart : ∀ {captures captures' : Captures} {u u' : Text}, r.pattern.IsMatch captures u →
    r.pattern.IsMatch captures' u' → Text.Apart u (r.template.fill captures')

/-- **What such a rule has rewritten it does not match again.** -/
theorem Settles.count_rewritten (h : r.Settles) (hin : r.inBounds (r.pattern.count content) = true) :
    r.pattern.count (r.rewritten content) = 0 := by
  have hscan : r.pattern.matches (r.rewritten content) = [] := by
    rw [rewritten_of_inBounds hin]
    refine (Pattern.matches_splits h.solid content).scan_weave h.solid h.closed ?_ rfl 0
    intro found hfound
    have hbinds := binds_template hfound
    exact ⟨Segment.flatMap_fill_ne_nil h.template_ne_nil h.template_solid hbinds,
      (Segment.endsWithIdentChar_fill h.template_ne_nil h.template_solid hbinds).trans
        h.template_closed,
      fun _ _ hu => h.apart hu hfound⟩
  unfold Pattern.count
  rw [hscan]
  rfl

/-! ## §4. Expectations. -/

/-- Wherever a rule is within bounds, it leaves what an expectation asks for. -/
def Grants (r : Rule) (e : Expectation) : Prop :=
  ∀ content, r.inBounds (r.pattern.count content) = true → e.required ≤ e.count (r.rewritten content)

/-- A search that has a hit in each new text has as many as the rule asks for. -/
theorem packs_rewritten (front : Text.Front) (hsolid : r.pattern.Solid)
    (hin : r.inBounds (r.pattern.count content) = true)
    (hshows : ∀ captures u, r.pattern.IsMatch captures u →
      Text.Shows front (r.template.fill captures)) :
    ∃ n, r.min ≤ n ∧ Text.Packs front none n (r.rewritten content) := by
  have hpieces : ∀ piece ∈ (r.pattern.matches content).map r.filled, Text.Shows front piece := by
    intro piece hpiece
    obtain ⟨found, hfound, rfl⟩ := List.mem_map.1 hpiece
    exact hshows _ _ (Pattern.isMatch_of_mem_matches hsolid hfound)
  refine ⟨((r.pattern.matches content).map r.filled).length, ?_, ?_⟩
  · rw [List.length_map]
    exact min_le_of_inBounds hin
  · rw [rewritten_of_inBounds hin]
    exact Text.packs_weave hpieces none _

/-- A needle in a literal of the template is found for each match. -/
theorem min_le_occurrences {needle lit : Text} (hsolid : r.pattern.Solid) (hne : needle ≠ [])
    (hlit : .literal lit ∈ r.template.segments) (hneedle : needle <:+: lit)
    (hin : r.inBounds (r.pattern.count content) = true) :
    r.min ≤ Text.occurrences needle (r.rewritten content) := by
  obtain ⟨n, hn, hpacks⟩ := packs_rewritten (Text.needleFront needle) hsolid hin
    fun captures _ _ => Text.shows_needle hne (hneedle.trans (Segment.infix_fill hlit captures))
  exact Nat.le_trans hn (hpacks.le_occurrences hne)

theorem grants_marker {needle lit : Text} {min : Nat} (hsolid : r.pattern.Solid)
    (hne : needle ≠ []) (hlit : .literal lit ∈ r.template.segments) (hneedle : needle <:+: lit)
    (hmin : min ≤ r.min) : r.Grants (.marker needle min) :=
  fun _ hin => Nat.le_trans hmin (min_le_occurrences hsolid hne hlit hneedle hin)

theorem grants_literal {needle lit : Text} (hsolid : r.pattern.Solid) (hne : needle ≠ [])
    (hlit : .literal lit ∈ r.template.segments) (hneedle : needle <:+: lit) :
    r.Grants (.literal needle) :=
  fun _ hin => Nat.le_trans r.one_le_min (min_le_occurrences hsolid hne hlit hneedle hin)

/-- A shape that the template ends with is found for each match. -/
theorem grants_shape {shape : Pattern} {first : List Segment} {min : Nat}
    (hsolid : r.pattern.Solid) (hshape : shape.Solid) (hclosed : shape.endsWithIdent = false)
    (hsplit : r.template.segments = first ++ shape.segments) (hfirst : first ≠ [])
    (hfirstsolid : .literal [] ∉ first) (hedge : Segment.endsWithIdent first = false)
    (hmin : min ≤ r.min) : r.Grants (.shape shape min) := by
  intro content hin
  obtain ⟨n, hn, hpacks⟩ := packs_rewritten shape.front hsolid hin fun captures u hu => by
    have hbinds := binds_template hu
    rw [hsplit] at hbinds
    unfold Template.fill
    rw [hsplit]
    exact Pattern.shows_fill hshape hclosed hu.tokens hbinds hfirst hfirstsolid hedge
  exact Nat.le_trans hmin (Nat.le_trans hn (Pattern.le_count hshape hpacks))

/-! ## §5. Reading back. -/

/-- A rule that breaks up no line ending and takes no newline away. -/
structure KeepsLines (r : Rule) : Prop where
  pattern : Segment.Level r.pattern.segments
  template : Segment.Level r.template.segments
  newlines : Segment.literalCount (· == '\n') r.pattern.segments
    ≤ Segment.literalCount (· == '\n') r.template.segments

/-- **What such a rule has rewritten is read back as it was written.** -/
theorem KeepsLines.ofRaw_toRaw (h : r.KeepsLines) (hsettles : r.Settles) {raw : Text}
    (hin : r.inBounds (r.pattern.count (ArtifactText.ofRaw raw).content) = true) :
    ArtifactText.ofRaw ((ArtifactText.ofRaw raw).withContent
        (r.rewritten (ArtifactText.ofRaw raw).content)).toRaw
      = (ArtifactText.ofRaw raw).withContent (r.rewritten (ArtifactText.ofRaw raw).content) := by
  generalize hseen : (ArtifactText.ofRaw raw).content = seen at hin
  have hmatch : ∀ found ∈ r.pattern.matches seen, r.pattern.IsMatch found.captures found.text :=
    fun found hfound => Pattern.isMatch_of_mem_matches hsettles.solid hfound
  -- before and after, the same gaps stand around level texts
  have hold : Text.weave (gaps seen 0 (r.pattern.matches seen))
      ((r.pattern.matches seen).map Match.text) = seen :=
    (r.pattern.matches_tiles seen).weave_gaps [] rfl
  have hlevel : ∀ found ∈ r.pattern.matches seen, LineEnding.Level found.text := by
    intro found hfound
    rw [(hmatch found hfound).eq_fill]
    exact h.pattern.fill r.pattern.segments_ne_nil hsettles.solid (hmatch found hfound).binds
  have hlevel' : ∀ found ∈ r.pattern.matches seen, LineEnding.Level (r.filled found) :=
    fun found hfound => h.template.fill hsettles.template_ne_nil hsettles.template_solid
      (binds_template (hmatch found hfound))
  have hnewlines : ∀ found ∈ r.pattern.matches seen,
      found.text.count '\n' ≤ (r.filled found).count '\n' := by
    intro found hfound
    have hnewline : isIdentChar '\n' = false := by decide
    have hpattern := Segment.count_fill hnewline (hmatch found hfound).binds
    have htemplate := Segment.count_fill hnewline (binds_template (hmatch found hfound))
    rw [(hmatch found hfound).eq_fill]
    calc
      _ = Segment.literalCount (· == '\n') r.pattern.segments := hpattern
      _ ≤ Segment.literalCount (· == '\n') r.template.segments := h.newlines
      _ = _ := htemplate.symm
  refine ArtifactText.ofRaw_toRaw_withContent ?_ ?_
  · have hpairs := LineEnding.pairCount_weave (gaps seen 0 (r.pattern.matches seen)) hlevel' hlevel
    rw [hold] at hpairs
    rw [hseen, rewritten_of_inBounds hin]
    exact hpairs
  · have hcount := LineEnding.count_weave_le (gaps seen 0 (r.pattern.matches seen)) hnewlines
    rw [hold] at hcount
    rw [hseen, rewritten_of_inBounds hin]
    exact hcount

end Rule

/-! ## §6. Written and read back. -/

namespace Store

variable {s : Store} {name : String} {m m' : Machine} {dir : Location} {file : String}
  {bytes : ByteArray} {mode : Mode} {r : Rule} {es : List Expectation}

/-- What was written is found where the artifact was. -/
theorem Finds.of_exec_write {text : ArtifactText} (h : s.Finds name m dir file bytes mode)
    (hwrite : (s.write name text).exec m = (.ok (), m')) :
    s.Finds name m' dir file (Text.encode text.toRaw) mode := by
  have hensures : Attempt.Ensures Call.Sturdy (fun _ => True) (s.write name text)
      (fun _ m' => m.Replaced (dir ++ [file]) (Text.encode text.toRaw) mode m')
      (fun _ _ => True) m :=
    h.write_ensures (fun _ _ _ => trivial) (fun _ _ hreplaced => ⟨trivial, hreplaced⟩)
      fun _ _ _ _ _ => trivial
  exact h.replaced (hensures.exec_ok hwrite)

/-- The text that a complete plan of one rule has. -/
theorem content_of_plan {text : ArtifactText} {plan : Plan} {new : ArtifactText}
    (hplan : Plan.ofText name text [r] = .ok plan) (hcontent : plan.content = some new) :
    r.inBounds (r.pattern.count text.content) = true ∧
      new = text.withContent (r.rewritten text.content) := by
  rw [Plan.ofText_eq] at hplan
  obtain rfl := Except.ok.inj hplan
  dsimp only at hcontent
  split at hcontent
  next hall =>
    obtain rfl := Option.some.inj hcontent
    rw [Rule.all_isOk_outcomesOn_singleton] at hall
    exact ⟨hall, rfl⟩
  next => cases hcontent

/-- **A rewrite by such a rule is final.**  If a plan is complete and its text is
written, then that text is read back, meets every expectation that the rule
grants, and has no match any more, as a plan by the same rule reports. -/
theorem rewrite_final (hsettles : r.Settles) (hkeeps : r.KeepsLines)
    (hgrants : ∀ e ∈ es, r.Grants e) {plan : Plan} {text : ArtifactText}
    (hplan : ((s.plan name [r]).exec m).1 = .ok plan) (hcontent : plan.content = some text)
    (hwrite : (s.write name text).exec m = (.ok (), m')) :
    (s.read name).exec m' = (.ok text, m') ∧
    (∃ report, (s.verify name es).exec m' = (.ok report, m') ∧
      report.findings.map Finding.expectation = es ∧ report.passed = true) ∧
    ∃ again, (s.plan name [r]).exec m' = (.ok again, m') ∧
      again.outcomes.map (fun o => (o.rule, o.occurrences)) = [(r.id, 0)] := by
  -- the plan was made of the text that was read
  obtain ⟨text₀, m₁, hread, hof⟩ := Attempt.exec_bind_eq_ok.1 (Prod.ext hplan rfl)
  obtain ⟨dir, file, mode, raw, hfinds, rfl⟩ :=
    finds_of_exec_read (congrArg Prod.fst (Attempt.exec_mapError_eq_ok.1 hread))
  have hplan' : Plan.ofText name (.ofRaw raw) [r] = .ok plan := congrArg Prod.fst hof
  obtain ⟨hin, rfl⟩ := content_of_plan hplan' hcontent
  -- what was written is read back
  have hafter := hfinds.of_exec_write hwrite
  have hdecode := Text.decode?_encode ((ArtifactText.ofRaw raw).withContent
    (r.rewritten (ArtifactText.ofRaw raw).content)).toRaw
  have hback := hkeeps.ofRaw_toRaw hsettles hin
  refine ⟨?_, ⟨_, hafter.exec_verify hdecode es, ?_, ?_⟩, _,
    hafter.exec_plan hdecode (Plan.ofText_eq _ _ _), ?_⟩
  · rw [hafter.exec_read hdecode, hback]
  · show (es.map (Finding.ofText _)).map Finding.expectation = es
    rw [List.map_map]
    exact List.map_id es
  · show (es.map (Finding.ofText _)).all Finding.passed = true
    rw [hback, List.all_map, List.all_eq_true]
    intro e he
    exact decide_eq_true (hgrants e he _ hin)
  · show [(r.id, r.pattern.count _)] = [(r.id, 0)]
    rw [hback]
    exact congrArg (fun n => [(r.id, n)]) (hsettles.count_rewritten hin)

end Store

end ArtifactPatch
