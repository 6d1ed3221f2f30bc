/-
  ArtifactPatch.Proofs.Patch.Repeated
  ───────────────────────────────────
  **APPLYING THE SAME RULES AGAIN.**

  Nothing marks an artifact as patched.  The second time, a backup is seen in
  the slot and left alone, and the rules run on the patched text as it is read
  back.  They are refused, with nothing changed, exactly if one of them is out
  of bounds there (`apply_again_iff`).  A template that contains its own pattern
  is within bounds again, and such an artifact is patched twice
  (`patched_twice`).
-/
import ArtifactPatch.Proofs.Patch.Agreement
import ArtifactPatch.Proofs.Patch.BackupFirst

namespace ArtifactPatch

namespace Store

variable {s : Store} {name : String} {m m' : Machine} {dir : Location} {file : String}
  {bytes : ByteArray} {mode : Mode} {rules : List Rule}

/-! ## §1. With a backup in the slot. -/

/-- A slot in which something is seen is left alone. -/
theorem Finds.exec_backup_of_stat (h : s.Finds name m dir file bytes mode) {st : Stat}
    (hst : m.stat (.ofLocation (dir ++ [slotName file])) = .ok st) :
    (s.backup name).exec m = (.ok (.alreadyPresent (dir ++ [slotName file])), m) := by
  have hensures : Attempt.Ensures Call.Sturdy (fun _ => True) (s.backup name)
      (fun o m₁ => o = .alreadyPresent (dir ++ [slotName file]) ∧ m₁ = m) (fun _ _ => False) m := by
    unfold backup
    refine Attempt.ensures_bind (h.resolve_ensures trivial ?_
      fun hfrail => (Call.not_sturdy hfrail).elim)
    rw [slotOf_concat]
    refine Attempt.ensures_bind (Attempt.ensures_lift (Disk.exists?_ensures trivial ?_ ?_))
    · intro _ _
      exact ⟨rfl, rfl⟩
    · intro hno
      exact absurd hst (hno.resolve_left id st)
  obtain ⟨o, m₁, hexec, rfl, rfl⟩ := hensures.exec_succeeds
  exact hexec

/-- Rules that fall short are refused, and nothing is changed. -/
theorem Finds.exec_applyRules_of_shortfall (h : s.Finds name m dir file bytes mode) {st : Stat}
    (hst : m.stat (.ofLocation (dir ++ [slotName file])) = .ok st) {raw : Text} {plan : Plan}
    (hdecode : Text.decode? bytes = some raw)
    (hplan : Plan.ofText name (.ofRaw raw) rules = .ok plan) (hnone : plan.content = none) :
    (s.applyRules name rules).exec m = (.error (.mismatch name plan.failures), m) := by
  unfold applyRules
  rw [Attempt.exec_bind, Attempt.exec_mapError, h.exec_backup_of_stat hst]
  dsimp only [Except.mapError]
  rw [Attempt.exec_bind, h.exec_plan hdecode hplan]
  dsimp only
  rw [hnone]
  rfl

/-! ## §2. The second time. -/

/-- A plan falls short exactly if one of its rules is out of bounds. -/
theorem content_eq_none_iff {text : ArtifactText} {plan : Plan}
    (h : Plan.ofText name text rules = .ok plan) : plan.content = none ↔
      ∃ (i : Nat) (r : Rule), rules[i]? = some r ∧
        r.inBounds (r.pattern.count (Rule.textAfter (rules.take i) text.content)) = false := by
  rw [Plan.ofText_eq] at h
  obtain rfl := Except.ok.inj h
  constructor
  · intro hnone
    have hsome : ¬(Rule.outcomesOn rules text.content).all RuleOutcome.isOk = true := by
      intro htrue
      dsimp only at hnone
      rw [if_pos htrue] at hnone
      cases hnone
    rw [Rule.all_isOk_outcomesOn] at hsome
    push Not at hsome
    obtain ⟨i, r, hr, hout⟩ := hsome
    exact ⟨i, r, hr, Bool.eq_false_iff.2 hout⟩
  · intro hout
    obtain ⟨i, r, hr, hfalse⟩ := hout
    refine if_neg fun htrue => ?_
    rw [Rule.all_isOk_outcomesOn.1 htrue i r hr] at hfalse
    cases hfalse

/-- **When rules can be applied only once.**  After a success, applying the same
rules again is refused and changes nothing exactly if one of them is out of
bounds on the patched text, as it is read back and as the rules before it leave
it. -/
theorem apply_again_iff {plan : Plan} (happly : (s.applyRules name rules).exec m = (.ok plan, m')) :
    (∃ failures, (s.applyRules name rules).exec m' = (.error (.mismatch name failures), m')) ↔
      ∃ text, plan.content = some text ∧ ∃ (i : Nat) (r : Rule), rules[i]? = some r ∧
        r.inBounds (r.pattern.count (Rule.textAfter (rules.take i)
          (ArtifactText.ofRaw text.toRaw).content)) = false := by
  obtain ⟨dir, file, bytes, mode, m₁, raw, text, hfinds, happlied⟩ := applied_of_exec happly
  have hafter := happlied.finds hfinds
  have hdecode := Text.decode?_encode text.toRaw
  have hplan := Plan.ofText_eq name (.ofRaw text.toRaw) rules
  -- something is seen in the slot now, whatever was there before
  obtain ⟨st, hst⟩ : ∃ st, m'.stat (.ofLocation (dir ++ [slotName file])) = .ok st := by
    rcases happlied.slot_stat hfinds with ⟨-, -, mode', hst⟩ | ⟨-, mode', hst⟩
    · exact ⟨_, hst⟩
    · exact ⟨_, hst⟩
  constructor
  · intro hrefused
    obtain ⟨failures, hrefused⟩ := hrefused
    rcases (hafter.shortfall_ensures hdecode hplan).exec_error hrefused with
      ⟨l, reason, hdisk⟩ | ⟨-, hnone⟩
    · cases hdisk
    · exact ⟨text, happlied.content, (content_eq_none_iff hplan).1 hnone⟩
  · intro hout
    obtain ⟨text', htext', hout⟩ := hout
    rw [happlied.content] at htext'
    obtain rfl := Option.some.inj htext'
    exact ⟨_, hafter.exec_applyRules_of_shortfall hst hdecode hplan
      ((content_eq_none_iff hplan).2 hout)⟩

/-- A guard is put around the call of the small package once. -/
theorem apply_again_sample : ∃ plan m' failures,
    (samplePackage.applyRules "cli" [sampleRule]).exec (sampleDisk []) = (.ok plan, m') ∧
      (samplePackage.applyRules "cli" [sampleRule]).exec m'
        = (.error (.mismatch "cli" failures), m') := by
  have hcontent : ((samplePackage.applyRules "cli" [sampleRule]).exec (sampleDisk [])).1.map
      (fun plan => plan.content) = .ok (some ⟨"guard(a);".toList, .lf⟩) := by decide +kernel
  have hnone : sampleRule.inBounds (sampleRule.pattern.count (Rule.textAfter [] (ArtifactText.ofRaw
      (ArtifactText.toRaw ⟨"guard(a);".toList, .lf⟩)).content)) = false := by decide +kernel
  cases hrun : (samplePackage.applyRules "cli" [sampleRule]).exec (sampleDisk []) with
  | mk result m' =>
      rw [hrun] at hcontent
      cases result with
      | error e => cases hcontent
      | ok plan =>
          obtain ⟨failures, hrefused⟩ := (apply_again_iff hrun).2
            ⟨_, Except.ok.inj hcontent, 0, sampleRule, rfl, hnone⟩
          exact ⟨plan, m', failures, rfl, hrefused⟩

/-- A rule that puts a guard around every call and keeps the call. -/
def keepingRule : Rule where
  id := "wrap"
  pattern := sampleRule.pattern
  template := ⟨[.literal "guard(call(".toList, .placeholder "A", .literal "))".toList]⟩
  min := 1
  max := none
  same_placeholders := by decide
  not_noOp := by decide
  one_le_min := Nat.one_pos

/-- The call of the small package is guarded twice. -/
theorem patched_twice : ∃ plan m₁ plan' m₂,
    (samplePackage.applyRules "cli" [keepingRule]).exec (sampleDisk []) = (.ok plan, m₁) ∧
    (samplePackage.applyRules "cli" [keepingRule]).exec m₁ = (.ok plan', m₂) ∧
    m₁.tree.get? ["pkg", "cli.js"] = some (.file (Text.encode "guard(call(a));".toList) 0o644) ∧
    m₂.tree.get? ["pkg", "cli.js"]
      = some (.file (Text.encode "guard(guard(call(a)));".toList) 0o644) := by
  have hok : ((samplePackage.applyRules "cli" [keepingRule]).exec (sampleDisk [])).1.isOk
      = true := by decide +kernel
  have hfirst : ((samplePackage.applyRules "cli" [keepingRule]).exec (sampleDisk [])).2.tree.get?
      ["pkg", "cli.js"] = some (.file (Text.encode "guard(call(a));".toList) 0o644) := by
    decide +kernel
  have hok' : ((samplePackage.applyRules "cli" [keepingRule]).exec
      ((samplePackage.applyRules "cli" [keepingRule]).exec (sampleDisk [])).2).1.isOk = true := by
    decide +kernel
  have hsecond : ((samplePackage.applyRules "cli" [keepingRule]).exec
      ((samplePackage.applyRules "cli" [keepingRule]).exec (sampleDisk [])).2).2.tree.get?
        ["pkg", "cli.js"] = some (.file (Text.encode "guard(guard(call(a)));".toList) 0o644) := by
    decide +kernel
  cases hrun : (samplePackage.applyRules "cli" [keepingRule]).exec (sampleDisk []) with
  | mk result m₁ =>
      rw [hrun] at hok hfirst hok' hsecond
      cases result with
      | error e => cases hok
      | ok plan =>
          cases hagain : (samplePackage.applyRules "cli" [keepingRule]).exec m₁ with
          | mk result' m₂ =>
              rw [hagain] at hok' hsecond
              cases result' with
              | error e => cases hok'
              | ok plan' => exact ⟨plan, m₁, plan', m₂, rfl, hagain, hfirst, hsecond⟩

end Store

end ArtifactPatch
