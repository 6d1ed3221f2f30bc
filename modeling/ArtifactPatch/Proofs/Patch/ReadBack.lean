/-
  ArtifactPatch.Proofs.Patch.ReadBack
  ───────────────────────────────────
  **READING BACK WHAT WAS PATCHED.**

  A plan is made for a text in the convention that was detected when it was
  read, and its content is written in that convention.  Whoever reads the
  artifact afterwards, as verification does, splits its bytes into content and
  convention anew.  The two texts have the same bytes; they are the same text
  exactly if the new content fits the old convention (`read_back_iff`).  A
  template that brings line ends of its own can change the convention
  (`read_back_differs`).
-/
import ArtifactPatch.Proofs.LineEnding
import ArtifactPatch.Proofs.Patch.Agreement

namespace ArtifactPatch

/-- A plan keeps the convention of the text that it is made for. -/
theorem Plan.lineEnding_eq {artifact : String} {before text : ArtifactText} {rules : List Rule}
    {plan : Plan} (hplan : Plan.ofText artifact before rules = .ok plan)
    (hcontent : plan.content = some text) : text.lineEnding = before.lineEnding := by
  rw [Plan.ofText_eq] at hplan
  obtain rfl := Except.ok.inj hplan
  dsimp only at hcontent
  split at hcontent
  next =>
    obtain rfl := Option.some.inj hcontent
    rfl
  next => cases hcontent

namespace Store

variable {s : Store} {name : String} {m m' : Machine} {frail : Call → Prop} {rules : List Rule}
  {plan : Plan}

/-- **What was planned is read back exactly if it fits the convention of the
artifact.**  After a success, of frail calls too, the artifact can be read; its
bytes are those of the planned text.  What is read is the planned text if that
has no pair for LF, a newline for CRLF, or a pair and a newline alone for mixed
line ends, and only then.  Verification sees the planned content unless a text
that was not written as CRLF now counts as CRLF. -/
theorem read_back_iff
    (hsturdy : ∀ live, ((s.resolve name).exec m).1 = .ok live →
      ¬frail (.stat (.ofLocation (slotOf live))))
    (happly : Procedure.Ends frail (ExceptT.run (s.applyRules name rules)) m (.ok plan) m') :
    ∃ before text after, ((s.read name).exec m).1 = .ok before ∧ plan.content = some text ∧
      text.lineEnding = before.lineEnding ∧ (s.read name).exec m' = (.ok after, m') ∧
      (∀ es, (s.verify name es).exec m'
        = (.ok (Expectation.checkAll name after.content es), m')) ∧
      after.toRaw = text.toRaw ∧
      (after = text ↔ text.lineEnding.Fits text.content) ∧
      (after.content = text.content ↔
        text.lineEnding = .crlf ∨ LineEnding.detect text.content ≠ .crlf) := by
  obtain ⟨dir, file, bytes, mode, hfinds⟩ := finds_of_ends_ok happly
  obtain ⟨m₁, raw, text, happlied⟩ := hfinds.applied_of_ends (hfinds.not_frail_slot hsturdy) happly
  obtain ⟨planned, hplan, -, hcontent⟩ := happlied.planned
  have hbefore : ((s.read name).exec m).1 = .ok (.ofRaw raw) := by
    rw [hfinds.exec_read happlied.decoded]
  -- the written bytes are the text that is read next
  have hafter := happlied.finds hfinds
  have hdecode := Text.decode?_encode text.toRaw
  refine ⟨.ofRaw raw, text, .ofRaw text.toRaw, hbefore, happlied.content,
    Plan.lineEnding_eq hplan hcontent, hafter.exec_read hdecode, ?_, ?_, ?_, ?_⟩
  · exact fun es => hafter.exec_verify hdecode es
  · exact ArtifactText.toRaw_ofRaw text.toRaw
  · exact ArtifactText.ofRaw_toRaw_eq_iff text
  · exact ArtifactText.content_ofRaw_toRaw_eq_iff text

/-- The call of the small package is read back as it was planned. -/
theorem read_back_sample : ∃ plan m',
    Procedure.Ends (fun c => ¬c.Asks) (ExceptT.run (samplePackage.applyRules "cli" [sampleRule]))
      (sampleDisk []) (.ok plan) m' ∧
    plan.content = some ⟨"guard(a);".toList, .lf⟩ ∧
    (samplePackage.read "cli").exec m' = (.ok ⟨"guard(a);".toList, .lf⟩, m') := by
  have hcontent : ((samplePackage.applyRules "cli" [sampleRule]).exec (sampleDisk [])).1.map
      (fun plan => plan.content) = .ok (some ⟨"guard(a);".toList, .lf⟩) := by decide +kernel
  have hdetect : LineEnding.detect (LineEnding.apply .lf "guard(a);".toList) = .lf := by
    decide +kernel
  have hends := Procedure.ends_run (fun c => ¬c.Asks)
    (ExceptT.run (samplePackage.applyRules "cli" [sampleRule])) (sampleDisk [])
  cases hrun : (samplePackage.applyRules "cli" [sampleRule]).exec (sampleDisk []) with
  | mk result m' =>
      rw [hrun] at hcontent
      unfold Attempt.exec at hrun
      rw [hrun] at hends
      cases result with
      | error e => cases hcontent
      | ok plan =>
          have hplan : plan.content = some ⟨"guard(a);".toList, .lf⟩ := Except.ok.inj hcontent
          obtain ⟨before, text, after, -, htext, -, hread, -, -, hsame, -⟩ :=
            read_back_iff (fun _ _ hfrail => hfrail trivial) hends
          obtain rfl := Option.some.inj (htext.symm.trans hplan)
          obtain rfl := hsame.2 ((LineEnding.detect_apply_eq_iff _ _).1 hdetect)
          exact ⟨plan, m', hends, hplan, hread⟩

/-- A rule that puts a guard around every call, and a line end behind it. -/
def sampleLinesRule : Rule where
  id := "lines"
  pattern := sampleRule.pattern
  template := ⟨[.literal "guard(".toList, .placeholder "A", .literal ")\r\n".toList]⟩
  min := 1
  max := none
  same_placeholders := by decide
  not_noOp := by decide
  one_le_min := Nat.one_pos

/-- A text without line ends is planned as LF, gets its only line end from a
template, and is read back as CRLF: other content than was planned, in which
verification does not find the new text. -/
theorem read_back_differs : ∃ plan m',
    (samplePackage.applyRules "cli" [sampleLinesRule]).exec (sampleDisk []) = (.ok plan, m') ∧
      plan.content = some ⟨"guard(a)\r\n;".toList, .lf⟩ ∧
      ((samplePackage.read "cli").exec m').1 = .ok ⟨"guard(a)\n;".toList, .crlf⟩ ∧
      ((samplePackage.verify "cli" [.literal "guard(a)\r\n".toList]).exec m').1.map Report.passed
        = .ok false := by
  have hcontent : ((samplePackage.applyRules "cli" [sampleLinesRule]).exec (sampleDisk [])).1.map
      (fun plan => plan.content) = .ok (some ⟨"guard(a)\r\n;".toList, .lf⟩) := by decide +kernel
  have hread : ((samplePackage.read "cli").exec ((samplePackage.applyRules "cli"
      [sampleLinesRule]).exec (sampleDisk [])).2).1 = .ok ⟨"guard(a)\n;".toList, .crlf⟩ := by
    decide +kernel
  have hverify : ((samplePackage.verify "cli" [.literal "guard(a)\r\n".toList]).exec
      ((samplePackage.applyRules "cli" [sampleLinesRule]).exec (sampleDisk [])).2).1.map
        Report.passed = .ok false := by decide +kernel
  cases hrun : (samplePackage.applyRules "cli" [sampleLinesRule]).exec (sampleDisk []) with
  | mk result m' =>
      rw [hrun] at hcontent hread hverify
      cases result with
      | error e => cases hcontent
      | ok plan => exact ⟨plan, m', rfl, Except.ok.inj hcontent, hread, hverify⟩

end Store

end ArtifactPatch
