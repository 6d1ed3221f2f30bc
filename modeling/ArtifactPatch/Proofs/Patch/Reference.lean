/-
  ArtifactPatch.Proofs.Patch.Reference
  ────────────────────────────────────
  **PLANS AGAINST A NAIVE REFERENCE.**

  The reference knows neither edits nor offsets: a rule whose matches are
  within bounds keeps the gaps between them and fills its template once for
  each (`Rule.rewritten`), and rules are a left fold (`Rule.textAfter`).
  Rendering and splicing never fail on what the scanner finds, so running
  rules gives what the reference gives (`runAll_eq`), and a plan of a readable
  artifact is a success (`plan_eq_reference`).
-/
import ArtifactPatch.Proofs.Edit.Splice
import ArtifactPatch.Proofs.Patch.Requests
import ArtifactPatch.Proofs.Pattern.Filling
import ArtifactPatch.Proofs.Text.Encoding

namespace ArtifactPatch

namespace Rule

/-! ## §1. One rule. -/

/-- A number of matches is within the bounds of a rule. -/
def inBounds (r : Rule) (n : Nat) : Bool :=
  decide (Nat.max r.min 1 ≤ n) && r.max.all fun max => decide (n ≤ max)

theorem isOk_statusFor (r : Rule) (n : Nat) : (r.statusFor n).isOk = r.inBounds n := by
  -- a compiled rule asks for one match or more, so the bound is never raised
  have hmin : Nat.max r.min 1 = r.min := Nat.max_eq_left r.one_le_min
  unfold statusFor inBounds
  rw [hmin]
  by_cases hlow : n < r.min
  · have hnot : decide (r.min ≤ n) = false := decide_eq_false (Nat.not_le.2 hlow)
    rw [if_pos hlow, hnot]
    rfl
  · have hyes : decide (r.min ≤ n) = true := decide_eq_true (Nat.not_lt.1 hlow)
    rw [if_neg hlow, hyes, Bool.true_and]
    cases r.max with
    | none => rfl
    | some max =>
        by_cases hhigh : max < n
        · have hnot : decide (n ≤ max) = false := decide_eq_false (Nat.not_le.2 hhigh)
          show (if max < n then RuleStatus.aboveMaximum max else .withinBounds).isOk
            = decide (n ≤ max)
          rw [if_pos hhigh, hnot]
          rfl
        · have hyes : decide (n ≤ max) = true := decide_eq_true (Nat.not_lt.1 hhigh)
          show (if max < n then RuleStatus.aboveMaximum max else .withinBounds).isOk
            = decide (n ≤ max)
          rw [if_neg hhigh, hyes]
          rfl

/-- What a rule puts in the place of a match. -/
def filled (r : Rule) (found : Match) : Text :=
  r.template.fill found.captures

/-- A match and what it is replaced by. -/
def replacementOf (r : Rule) (found : Match) : Replacement :=
  ⟨found.start, found.stop, found.text, r.filled found⟩

/-- What becomes of a text: the gaps between the matches, and the filled
template for each, if their number is within bounds. -/
def rewritten (r : Rule) (content : Text) : Text :=
  let found := r.pattern.matches content
  if r.inBounds found.length then Text.weave (gaps content 0 found) (found.map r.filled)
  else content

/-- What is reported of a text. -/
def outcomeOn (r : Rule) (content : Text) : RuleOutcome :=
  let found := r.pattern.matches content
  ⟨r.id, found.length, r.statusFor found.length, found.map r.replacementOf⟩

theorem rewritten_of_inBounds {r : Rule} {content : Text}
    (h : r.inBounds (r.pattern.count content) = true) :
    r.rewritten content = Text.weave (gaps content 0 (r.pattern.matches content))
      ((r.pattern.matches content).map r.filled) :=
  if_pos h

/-- A compiled rule has the same placeholders on both sides. -/
theorem mem_pattern_of_mem_template {r : Rule} {name : String}
    (h : .placeholder name ∈ r.template.segments) : .placeholder name ∈ r.pattern.segments :=
  (Segment.placeholder_mem_iff r.same_placeholders).2 h

/-- A match binds every placeholder of the template. -/
theorem render_eq_filled {r : Rule} {content : Text} {found : Match}
    (h : found ∈ r.pattern.matches content) :
    r.template.render found.captures = .ok (r.filled found) :=
  Template.render_eq_fill fun name hname =>
    Pattern.isSome_lookup_of_mem_matches h name (mem_pattern_of_mem_template hname)

/-- Every match of a rule can be replaced. -/
theorem replace_eq_ok {r : Rule} {content : Text} {found : Match}
    (h : found ∈ r.pattern.matches content) : r.replace found = .ok (r.replacementOf found) := by
  unfold replace
  rw [render_eq_filled h]
  rfl

theorem replaceAll_eq_ok (r : Rule) (content : Text) :
    r.replaceAll content = .ok ((r.pattern.matches content).map r.replacementOf) := by
  have hall : ∀ found ∈ r.pattern.matches content, r.replace found = .ok (r.replacementOf found) :=
    fun found h => replace_eq_ok h
  unfold replaceAll
  generalize r.pattern.matches content = ms at hall
  induction ms with
  | nil => rfl
  | cons found ms ih =>
      have hrest := ih fun other hother => hall other (List.mem_cons_of_mem _ hother)
      rw [List.mapM_cons, hall found List.mem_cons_self, hrest]
      rfl

/-- Splicing the replacements of a rule weaves the filled templates into the gaps. -/
theorem applyAll_replacements (r : Rule) (content : Text) :
    Edit.applyAll content (((r.pattern.matches content).map r.replacementOf).map
        Replacement.toEdit)
      = .ok (Text.weave (gaps content 0 (r.pattern.matches content))
          ((r.pattern.matches content).map r.filled)) := by
  rw [List.map_map]
  exact Edit.applyAll_ofMatch r.filled (r.pattern.matches_tiles content)
    (r.pattern.matches_starts content)

/-! ## §2. Rules in order. -/

/-- The text after some rules. -/
def textAfter (rules : List Rule) (content : Text) : Text :=
  rules.foldl (fun seen r => r.rewritten seen) content

/-- What rules report, each of the text that the rules before it left. -/
def outcomesOn : List Rule → Text → List RuleOutcome
  | [], _ => []
  | r :: rules, content => r.outcomeOn content :: outcomesOn rules (r.rewritten content)

theorem length_outcomesOn (rules : List Rule) (content : Text) :
    (outcomesOn rules content).length = rules.length := by
  induction rules generalizing content with
  | nil => rfl
  | cons r rules ih =>
      show (outcomesOn rules _).length + 1 = rules.length + 1
      rw [ih]

/-- Each rule reports of the text after the rules before it. -/
theorem getElem?_outcomesOn {rules : List Rule} {content : Text} {i : Nat} {r : Rule}
    (h : rules[i]? = some r) :
    (outcomesOn rules content)[i]? = some (r.outcomeOn (textAfter (rules.take i) content)) := by
  induction rules generalizing content i with
  | nil => cases h
  | cons first rules ih =>
      cases i with
      | zero =>
          obtain rfl := Option.some.inj h
          rfl
      | succ i =>
          rw [List.getElem?_cons_succ] at h
          show (outcomesOn rules (first.rewritten content))[i]? = _
          rw [ih h]
          rfl

theorem textAfter_take_succ {rules : List Rule} {content : Text} {i : Nat} {r : Rule}
    (h : rules[i]? = some r) :
    textAfter (rules.take (i + 1)) content = r.rewritten (textAfter (rules.take i) content) := by
  unfold textAfter
  rw [List.take_add_one, h, List.foldl_append]
  rfl

/-- **Running rules gives what the reference gives.** -/
theorem runAll_eq (rules : List Rule) (content : Text) :
    runAll rules content = .ok (outcomesOn rules content, textAfter rules content) := by
  induction rules generalizing content with
  | nil => rfl
  | cons r rules ih =>
      unfold runAll
      rw [replaceAll_eq_ok]
      dsimp only [Except.mapError, bind, Except.bind]
      rw [List.length_map, isOk_statusFor]
      by_cases hin : r.inBounds (r.pattern.matches content).length = true
      · rw [if_pos hin, applyAll_replacements, ← rewritten_of_inBounds hin]
        dsimp only
        rw [ih]
        rfl
      · have hnext : r.rewritten content = content := if_neg hin
        rw [if_neg hin]
        dsimp only [pure, Except.pure]
        rw [ih]
        show Except.ok (r.outcomeOn content :: outcomesOn rules content, textAfter rules content)
          = .ok (r.outcomeOn content :: outcomesOn rules (r.rewritten content),
            textAfter rules (r.rewritten content))
        rw [hnext]

/-- Every rule is within bounds on the text that it sees. -/
theorem all_isOk_outcomesOn {rules : List Rule} {content : Text} :
    (outcomesOn rules content).all RuleOutcome.isOk = true ↔
      ∀ (i : Nat) (r : Rule), rules[i]? = some r →
        r.inBounds (r.pattern.count (textAfter (rules.take i) content)) = true := by
  rw [List.all_eq_true]
  constructor
  · intro h i r hr
    have hmem : r.outcomeOn (textAfter (rules.take i) content) ∈ outcomesOn rules content :=
      List.mem_of_getElem? (getElem?_outcomesOn hr)
    have hok := h _ hmem
    rw [← isOk_statusFor]
    exact hok
  · intro h o ho
    obtain ⟨i, hi⟩ := List.mem_iff_getElem?.1 ho
    have hlt : i < rules.length := by
      rw [← length_outcomesOn rules content]
      exact (List.getElem?_eq_some_iff.1 hi).1
    have hr : rules[i]? = some rules[i] := List.getElem?_eq_getElem hlt
    rw [getElem?_outcomesOn hr] at hi
    obtain rfl := Option.some.inj hi
    have hin := h i _ hr
    rw [← isOk_statusFor] at hin
    exact hin

/-- Splicing what was reported, rule by rule, gives the text after the rules. -/
theorem foldlM_outcomesOn {rules : List Rule} {content : Text}
    (h : (outcomesOn rules content).all RuleOutcome.isOk = true) :
    (outcomesOn rules content).foldlM
        (fun seen o => Edit.applyAll seen (o.replacements.map Replacement.toEdit)) content
      = .ok (textAfter rules content) := by
  induction rules generalizing content with
  | nil => rfl
  | cons r rules ih =>
      have hall : (r.outcomeOn content).isOk = true ∧
          (outcomesOn rules (r.rewritten content)).all RuleOutcome.isOk = true :=
        Bool.and_eq_true_iff.1 h
      have hin : r.inBounds (r.pattern.matches content).length = true := by
        rw [← isOk_statusFor]
        exact hall.1
      have hsplice : Edit.applyAll content ((r.outcomeOn content).replacements.map
          Replacement.toEdit) = .ok (r.rewritten content) := by
        rw [rewritten_of_inBounds hin]
        exact applyAll_replacements r content
      show (Edit.applyAll content _ >>= _) = _
      rw [hsplice]
      exact ih hall.2

end Rule

/-! ## §3. Plans. -/

theorem Plan.ofText_eq (artifact : String) (text : ArtifactText) (rules : List Rule) :
    Plan.ofText artifact text rules = .ok
      ⟨artifact, Rule.outcomesOn rules text.content,
        if (Rule.outcomesOn rules text.content).all RuleOutcome.isOk then
          some (text.withContent (Rule.textAfter rules text.content)) else none, none⟩ := by
  unfold Plan.ofText
  rw [Rule.runAll_eq]
  rfl

namespace Store

variable {s : Store} {name : String} {m : Machine}

/-- What can be read is found. -/
theorem finds_of_exec_readRaw {bytes : ByteArray}
    (h : ((s.readRaw name).exec m).1 = .ok bytes) :
    ∃ dir file mode, s.Finds name m dir file bytes mode := by
  obtain ⟨l, m₁, hresolve, hread⟩ := Attempt.exec_bind_eq_ok.1 (Prod.ext h rfl)
  obtain ⟨-, dir, file, bytes', mode, -, hfinds⟩ := exec_resolve_eq_ok_iff.1 hresolve
  have hensures : Attempt.Ensures Call.Sturdy (fun _ => True) (s.readRaw name)
      (fun read _ => read = bytes') (fun _ _ => False) m :=
    hfinds.readRaw_ensures trivial rfl fun hfrail => (Call.not_sturdy hfrail).elim
  obtain rfl := hensures.exec_ok (Prod.ext h rfl)
  exact ⟨dir, file, mode, hfinds⟩

/-- **A plan of a readable artifact is a success, and equals the reference.**
Each rule sees the text that the reference leaves to it, which is made up of
the gaps and the matched texts; it reports every match at its place in that
text and passes on what the reference makes of it.  There is a new text
exactly if every number of matches was within bounds, and splicing what was
reported gives it. -/
theorem plan_eq_reference {raw : Text}
    (hread : ((s.readRaw name).exec m).1 = .ok (Text.encode raw)) (rules : List Rule) :
    ∃ plan, (s.plan name rules).exec m = (.ok plan, m) ∧
      plan.artifact = name ∧ plan.backup = none ∧ plan.outcomes.length = rules.length ∧
      (∀ (i : Nat) (r : Rule), rules[i]? = some r →
        ∃ seen, seen = Rule.textAfter (rules.take i) (ArtifactText.ofRaw raw).content ∧
          plan.outcomes[i]? = some (r.outcomeOn seen) ∧
          Text.weave (gaps seen 0 (r.pattern.matches seen))
            ((r.pattern.matches seen).map Match.text) = seen ∧
          (∀ found ∈ r.pattern.matches seen,
            Text.slice? found.start found.stop seen = some found.text ∧
              r.template.render found.captures = .ok (r.filled found)) ∧
          Rule.textAfter (rules.take (i + 1)) (ArtifactText.ofRaw raw).content
            = r.rewritten seen) ∧
      (plan.content.isSome = true ↔ ∀ (i : Nat) (r : Rule), rules[i]? = some r →
        r.inBounds (r.pattern.count
          (Rule.textAfter (rules.take i) (ArtifactText.ofRaw raw).content)) = true) ∧
      ∀ text, plan.content = some text →
        text = (ArtifactText.ofRaw raw).withContent
          (Rule.textAfter rules (ArtifactText.ofRaw raw).content) ∧
        plan.outcomes.foldlM
            (fun seen o => Edit.applyAll seen (o.replacements.map Replacement.toEdit))
            (ArtifactText.ofRaw raw).content = .ok text.content := by
  -- the plan is made from the text that was read, and nothing is written
  obtain ⟨dir, file, mode, hfinds⟩ := finds_of_exec_readRaw hread
  have hensures : Attempt.Ensures Call.Sturdy (fun _ => True) (s.plan name rules)
      (fun plan m' => m' = m ∧ Plan.ofText name (.ofRaw raw) rules = .ok plan)
      (fun _ _ => False) m := by
    refine Attempt.ensures_bind (Attempt.ensures_mapError (hfinds.read_ensures trivial ?_ ?_))
    · intro raw' hdecode
      rw [Text.decode?_encode] at hdecode
      obtain rfl := Option.some.inj hdecode
      refine Attempt.ensures_ofExcept (fun plan hplan => ⟨rfl, hplan⟩) fun e hplan => ?_
      rw [Plan.ofText_eq] at hplan
      cases hplan
    · -- neither does a call fail nor are the bytes anything but text
      intro hfail
      rcases hfail with hfrail | hdecode
      · exact (Call.not_sturdy hfrail).elim
      · rw [Text.decode?_encode] at hdecode
        cases hdecode
  obtain ⟨plan, m', hexec, rfl, hplan⟩ := hensures.exec_succeeds
  rw [Plan.ofText_eq] at hplan
  obtain rfl := Except.ok.inj hplan
  refine ⟨_, hexec, rfl, rfl, Rule.length_outcomesOn rules _, ?_, ?_, ?_⟩
  · intro i r hr
    refine ⟨_, rfl, Rule.getElem?_outcomesOn hr, ?_, ?_, ?_⟩
    · exact (r.pattern.matches_tiles _).weave_gaps [] rfl
    · intro found hfound
      exact ⟨(r.pattern.matches_tiles _).slice?_eq_text [] rfl found hfound,
        Rule.render_eq_filled hfound⟩
    · exact Rule.textAfter_take_succ hr
  · rw [← Rule.all_isOk_outcomesOn]
    split
    next hall => exact iff_of_true rfl hall
    next hall => exact iff_of_false Bool.false_ne_true hall
  · intro text htext
    dsimp only at htext
    split at htext
    next hall =>
      obtain rfl := Option.some.inj htext
      exact ⟨rfl, Rule.foldlM_outcomesOn hall⟩
    next => cases htext

/-- The plan of a guard around the one call of the small package. -/
theorem plan_eq_reference_sample : ∃ plan,
    (samplePackage.plan "cli" [sampleRule]).exec (sampleDisk []) = (.ok plan, sampleDisk []) ∧
      plan.content = some ⟨"guard(a);".toList, .lf⟩ := by
  have hread : ((samplePackage.readRaw "cli").exec (sampleDisk [])).1
      = .ok (Text.encode "call(a);".toList) := by decide +kernel
  have hafter : (ArtifactText.ofRaw "call(a);".toList).withContent
      (Rule.textAfter [sampleRule] (ArtifactText.ofRaw "call(a);".toList).content)
        = ⟨"guard(a);".toList, .lf⟩ := by decide +kernel
  have hbounds : sampleRule.inBounds (sampleRule.pattern.count
      (Rule.textAfter [] (ArtifactText.ofRaw "call(a);".toList).content)) = true := by
    decide +kernel
  obtain ⟨plan, hplan, -, -, -, -, hsome, hcontent⟩ := plan_eq_reference hread [sampleRule]
  refine ⟨plan, hplan, ?_⟩
  have hpresent : plan.content.isSome = true := by
    refine hsome.2 fun i r hr => ?_
    cases i with
    | zero =>
        obtain rfl := Option.some.inj hr
        exact hbounds
    | succ i => cases hr
  obtain ⟨text, htext⟩ := Option.isSome_iff_exists.1 hpresent
  rw [htext, (hcontent text htext).1, hafter]

end Store

end ArtifactPatch
