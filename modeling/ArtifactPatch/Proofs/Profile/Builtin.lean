/-
  ArtifactPatch.Proofs.Profile.Builtin
  ────────────────────────────────────
  **THE BUILT-IN PROFILE PATCHES ONCE AND FOR ALL.**

  The rule for the executor has identifiers in it that may be any.  It begins
  with `let ` on both sides, and nothing behind it has a blank, so a match and
  a new text could only be laid over each other from the start; but there one
  goes on behind `.timeout?`, and the other behind `.timeout===`.  The rule for
  the declarations is a single text on both sides.  So a complete rewrite of
  either artifact is final (`builtin_patch_final`).
-/
import ArtifactPatch.Profile.Builtin
import ArtifactPatch.Proofs.Patch.Literal
import ArtifactPatch.Proofs.Pattern.Overlay

namespace ArtifactPatch.Profile

/-! ## §1. The rule for the executor. -/

/-- What the executor has behind `let `. -/
def timeoutSegments : List Segment :=
  [.placeholder "T", .literal "=".toList, .placeholder "H", .literal ".timeout?".toList,
    .placeholder "H", .literal ".timeout*1000:".toList, .placeholder "D",
    .literal ",\x7bsignal:".toList, .placeholder "S", .literal ",cleanup:".toList,
    .placeholder "C", .literal "\x7d=".toList, .placeholder "K",
    .literal "(AbortSignal.timeout(".toList, .placeholder "T", .literal "),".toList,
    .placeholder "P", .literal ")".toList]

/-- What a patched executor has behind `let `, up to where it makes the signal. -/
def sentinelSegments : List Segment :=
  [.placeholder "T", .literal "=".toList, .placeholder "H",
    .literal ".timeout===null?null:".toList, .placeholder "H", .literal ".timeout?".toList,
    .placeholder "H", .literal ".timeout*1000:".toList, .placeholder "D",
    .literal ",\x7bsignal:".toList, .placeholder "S", .literal ",cleanup:".toList,
    .placeholder "C", .literal "\x7d=".toList]

/-- How a patched executor makes the signal. -/
def signalShape : Pattern :=
  ⟨[.placeholder "T", .literal "===null?".toList, .placeholder "K", .literal "(".toList,
    .placeholder "P", .literal "):".toList, .placeholder "K",
    .literal "(AbortSignal.timeout(".toList, .placeholder "T", .literal "),".toList,
    .placeholder "P", .literal ")".toList], by decide +kernel, by decide +kernel⟩

/-- The rule for the executor. -/
def timeoutRule : Rule where
  id := "hook-timeout-null-sentinel"
  pattern := ⟨.literal "let ".toList :: timeoutSegments, by decide +kernel, by decide +kernel⟩
  template := ⟨.literal "let ".toList :: sentinelSegments ++ signalShape.segments⟩
  min := 4
  max := none
  same_placeholders := by decide +kernel
  not_noOp := by decide +kernel
  one_le_min := by decide +kernel

theorem rulesFor_executable : builtin.rulesFor "executable" = .ok [timeoutRule] := by
  decide +kernel

theorem expectationsFor_executable : builtin.expectationsFor "executable"
    = .ok [.marker ".timeout===null?null:".toList 4, .shape signalShape 4] := by
  decide +kernel

theorem behind_timeoutSegments : Segment.Behind ' ' timeoutSegments :=
  ⟨by decide, by decide, by decide, by decide⟩

theorem behind_template : Segment.Behind ' ' (sentinelSegments ++ signalShape.segments) :=
  ⟨by decide, by decide, by decide, by decide⟩

/-- Whatever the identifiers, a match is no part of a patched place. -/
theorem settles_timeoutRule : timeoutRule.Settles where
  solid := by
    show Segment.literal [] ∉ Segment.literal "let ".toList :: timeoutSegments
    decide
  closed := by decide
  template_ne_nil := by decide
  template_solid := by decide
  template_closed := by decide
  apart := by
    intro captures captures' u u' hu hu'
    have hkeyword : "let".toList.all isIdentChar = true := by decide
    have hbinds : captures.Binds timeoutSegments :=
      fun name hname => hu.binds name (List.mem_cons_of_mem _ hname)
    have hbinds' : captures'.Binds (sentinelSegments ++ signalShape.segments) :=
      fun name hname => Rule.binds_template hu' name (List.mem_cons_of_mem _ hname)
    have hdiffer : Segment.differ timeoutSegments (sentinelSegments ++ signalShape.segments)
        = true := by decide
    rw [hu.eq_fill]
    exact Segment.apart_fill (List.all_eq_true.1 hkeyword) (by decide) behind_timeoutSegments behind_template hdiffer
      hbinds hbinds'

theorem keepsLines_timeoutRule : timeoutRule.KeepsLines :=
  ⟨⟨by decide, by decide⟩, ⟨by decide, by decide⟩, by decide⟩

theorem grants_timeoutRule : ∀ e ∈ ([.marker ".timeout===null?null:".toList 4,
    .shape signalShape 4] : List Expectation), timeoutRule.Grants e := by
  have hsolid : timeoutRule.pattern.Solid := settles_timeoutRule.solid
  intro e he
  rcases List.mem_cons.1 he with rfl | he
  · exact Rule.grants_marker hsolid (by decide) (by decide) List.infix_rfl (Nat.le_refl 4)
  · obtain rfl := List.mem_singleton.1 he
    have hshape : signalShape.Solid := by
      unfold Pattern.Solid
      decide
    exact Rule.grants_shape hsolid hshape (by decide) rfl (List.cons_ne_nil _ sentinelSegments)
      (by decide) (by decide) (Nat.le_refl 4)

/-! ## §2. The rule for the declarations. -/

/-- What is seen of the two texts of the rule for the declarations. -/
theorem fixedRewrite_matcherType :
    Rule.FixedRewrite matcherTypePattern.toList matcherTypeTemplate.toList ∧
      '$' ∉ matcherTypePattern.toList ∧ '$' ∉ matcherTypeTemplate.toList ∧
      "timeout?: number | null;".toList <:+: matcherTypeTemplate.toList := by
  -- the texts are decoded here, once for all checks
  unfold matcherTypePattern matcherTypeTemplate
  rw [String.toList_append, String.toList_append, String.toList_append, String.toList_append]
  simp only [String.reduceToList]
  refine ⟨⟨?_, ?_, ?_, ?_, ?_, ?_, ?_, ?_, ?_, ?_⟩, ?_, ?_, ?_⟩ <;> decide +kernel

theorem matcherTypePattern_ne : matcherTypePattern.toList ≠ matcherTypeTemplate.toList := by
  obtain ⟨hfixed, -, -⟩ := fixedRewrite_matcherType
  intro heq
  have hself : matcherTypePattern.toList ++ [] = matcherTypeTemplate.toList ++ [] := by rw [heq]
  exact hfixed.apart.append_ne (List.nil_append _).symm hfixed.found_ne_nil [] [] hself

/-- The rule for the declarations. -/
def matcherTypeRule : Rule :=
  ((Rule.ofTexts "hook-matcher-timeout-type" matcherTypePattern.toList matcherTypeTemplate.toList
    matcherTypePattern_ne).withMin 1).withMax (some 1)

theorem rulesFor_declarations : builtin.rulesFor "type-declarations" = .ok [matcherTypeRule] := by
  obtain ⟨hfixed, hplain, hplain', -⟩ := fixedRewrite_matcherType
  have hcompile := @Rule.compile_eq_ofTexts "hook-matcher-timeout-type" _ _ hfixed.found_ne_nil
    hfixed.new_ne_nil hplain hplain' matcherTypePattern_ne
  unfold rulesFor builtin
  rw [List.filter_cons_of_neg, List.filter_cons_of_pos, List.filter_nil, List.mapM_cons,
    RuleEntry.compile]
  · rw [hcompile]
    rfl
  · decide +kernel
  · decide +kernel

theorem expectationsFor_declarations : builtin.expectationsFor "type-declarations"
    = .ok [.literal "timeout?: number | null;".toList] := by
  decide +kernel

theorem settles_matcherTypeRule : matcherTypeRule.Settles :=
  fixedRewrite_matcherType.1.settles rfl rfl

theorem keepsLines_matcherTypeRule : matcherTypeRule.KeepsLines :=
  fixedRewrite_matcherType.1.keepsLines rfl rfl

theorem grants_matcherTypeRule :
    ∀ e ∈ ([.literal "timeout?: number | null;".toList] : List Expectation),
      matcherTypeRule.Grants e := by
  intro e he
  obtain rfl := List.mem_singleton.1 he
  exact Rule.grants_literal settles_matcherTypeRule.solid (by decide) List.mem_cons_self
    fixedRewrite_matcherType.2.2.2

/-! ## §3. Both artifacts. -/

/-- **What the built-in profile has patched, it finds patched, and patches no
more.**  The rules and the expectations for an artifact compile.  If a plan by
the rules is complete, for whatever text, and is written, then the planned text
is read back, every expectation passes, and the same rules match nowhere. -/
theorem builtin_patch_final {a : Artifact} (ha : a ∈ builtin.artifacts) : ∃ rules es,
    builtin.rulesFor a.name = .ok rules ∧ builtin.expectationsFor a.name = .ok es ∧
    rules ≠ [] ∧ es ≠ [] ∧
    ∀ (s : Store) (m m' : Machine) (plan : Plan) (text : ArtifactText),
      ((s.plan a.name rules).exec m).1 = .ok plan → plan.content = some text →
      (s.write a.name text).exec m = (.ok (), m') →
      (s.read a.name).exec m' = (.ok text, m') ∧
      (∃ report, (s.verify a.name es).exec m' = (.ok report, m') ∧
        report.findings.map Finding.expectation = es ∧ report.passed = true) ∧
      ∃ again, (s.plan a.name rules).exec m' = (.ok again, m') ∧
        again.outcomes.map (fun o => (o.rule, o.occurrences)) = rules.map fun r => (r.id, 0) := by
  rcases List.mem_cons.1 ha with rfl | ha
  · refine ⟨_, _, rulesFor_executable, expectationsFor_executable, List.cons_ne_nil _ _,
      List.cons_ne_nil _ _, ?_⟩
    intro s m m' plan text hplan hcontent hwrite
    exact Store.rewrite_final settles_timeoutRule keepsLines_timeoutRule grants_timeoutRule
      hplan hcontent hwrite
  · obtain rfl := List.mem_singleton.1 ha
    refine ⟨_, _, rulesFor_declarations, expectationsFor_declarations, List.cons_ne_nil _ _,
      List.cons_ne_nil _ _, ?_⟩
    intro s m m' plan text hplan hcontent hwrite
    exact Store.rewrite_final settles_matcherTypeRule keepsLines_matcherTypeRule
      grants_matcherTypeRule hplan hcontent hwrite

/-- A place where an executor makes the signal of a timeout. -/
def sampleSite : Text :=
  "let a=h.timeout?h.timeout*1000:d,\x7bsignal:s,cleanup:c\x7d=k(AbortSignal.timeout(a),p);".toList

/-- An executor with four such places, on lines of both kinds. -/
def sampleExecutor : Text :=
  sampleSite ++ '\n' :: sampleSite ++ '\r' :: '\n' :: sampleSite ++ sampleSite

/-- The package that the built-in profile is for. -/
def builtinPackage : Store :=
  ⟨⟨["pkg"]⟩, builtin.artifacts⟩

/-- The package with this executor. -/
def builtinDisk : Machine :=
  ⟨⟨[(["pkg"], .directory 0o755),
    (["pkg", "cli.js"], .file (Text.encode sampleExecutor) 0o644)]⟩, []⟩

/-- Its four places are patched, and then there is none. -/
theorem builtin_patch_final_sample : ∃ rules plan text m' again,
    builtin.rulesFor "executable" = .ok rules ∧
    ((builtinPackage.plan "executable" rules).exec builtinDisk).1 = .ok plan ∧
    plan.content = some text ∧
    (builtinPackage.write "executable" text).exec builtinDisk = (.ok (), m') ∧
    (builtinPackage.plan "executable" rules).exec m' = (.ok again, m') ∧
    again.outcomes.map RuleOutcome.occurrences = [0] := by
  obtain ⟨rules, es, hrules, -, -, -, hfinal⟩ :=
    @builtin_patch_final ⟨"executable", "cli.js"⟩ List.mem_cons_self
  obtain rfl := Except.ok.inj (hrules.symm.trans rulesFor_executable)
  -- the executor is found, and has what the rule asks for
  have hresolve : ((builtinPackage.resolve "executable").exec builtinDisk).1
      = .ok ["pkg", "cli.js"] := by decide +kernel
  have hin : timeoutRule.inBounds (timeoutRule.pattern.count
      (ArtifactText.ofRaw sampleExecutor).content) = true := by decide +kernel
  have hwrites : ((builtinPackage.write "executable" ((ArtifactText.ofRaw sampleExecutor).withContent
      (Rule.textAfter [timeoutRule] (ArtifactText.ofRaw sampleExecutor).content))).exec
        builtinDisk).1.isOk = true := by decide +kernel
  obtain ⟨-, dir, file, bytes, mode, hplace, hfinds⟩ :=
    Store.exec_resolve_eq_ok_iff.1 (Prod.ext hresolve rfl)
  have hnode : some (Node.file (Text.encode sampleExecutor) 0o644) = some (.file bytes mode) := by
    rw [← hfinds.hasFile.node, ← hplace]
    rfl
  obtain ⟨rfl, -⟩ := Node.file.inj (Option.some.inj hnode)
  have hplan := hfinds.exec_plan (Text.decode?_encode sampleExecutor)
    (Plan.ofText_eq "executable" (.ofRaw sampleExecutor) [timeoutRule])
  rw [Rule.all_isOk_outcomesOn_singleton, if_pos hin] at hplan
  generalize (ArtifactText.ofRaw sampleExecutor).withContent
    (Rule.textAfter [timeoutRule] (ArtifactText.ofRaw sampleExecutor).content) = text
    at hwrites hplan
  cases hrun : (builtinPackage.write "executable" text).exec builtinDisk with
  | mk result m' =>
      rw [hrun] at hwrites
      cases result with
      | error e => cases hwrites
      | ok =>
          obtain ⟨-, -, again, hagain, houtcomes⟩ :=
            hfinal builtinPackage builtinDisk m' _ text (congrArg Prod.fst hplan) rfl hrun
          refine ⟨_, _, text, m', again, hrules, congrArg Prod.fst hplan, rfl, hrun, hagain, ?_⟩
          have hcounts := congrArg (List.map Prod.snd) houtcomes
          rwa [List.map_map, List.map_map] at hcounts

end ArtifactPatch.Profile
