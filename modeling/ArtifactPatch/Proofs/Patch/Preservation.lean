/-
  ArtifactPatch.Proofs.Patch.Preservation
  ───────────────────────────────────────
  **NOTHING CHANGES ON DISK BUT THE MATCHES.**

  A rule works on what the matcher sees, and what stands on disk is that text
  written in the line endings of the artifact.  Writing goes through a splice,
  so on disk, too, a rule keeps the gaps and changes the matched texts
  (`Rule.apply_rewritten`), and rules that are applied with success lead from
  the old bytes to the new ones in such steps (`only_matches_change`).
-/
import ArtifactPatch.Proofs.LineEnding
import ArtifactPatch.Proofs.Patch.Applied
import ArtifactPatch.Proofs.Patch.Reference

namespace ArtifactPatch

namespace Rule

/-! ## §1. One rule. -/

/-- Each match is reported as it was found, and as the template renders it. -/
theorem forall₂_replacementOf (r : Rule) (content : Text) :
    List.Forall₂ (fun found p => p.found = found.text ∧
        r.template.render found.captures = .ok p.replacement)
      (r.pattern.matches content) (r.outcomeOn content).replacements := by
  show List.Forall₂ _ _ ((r.pattern.matches content).map r.replacementOf)
  rw [List.forall₂_map_right_iff, List.forall₂_same]
  intro found hfound
  exact ⟨rfl, render_eq_filled hfound⟩

/-- A text with the matches of a rule in it, as it stands on disk. -/
theorem apply_seen (r : Rule) (e : LineEnding) (seen : Text) :
    e.apply seen = Text.weave ((gaps seen 0 (r.pattern.matches seen)).map e.apply)
      ((r.outcomeOn seen).replacements.map fun p => e.apply p.found) := by
  have hweave : Text.weave (gaps seen 0 (r.pattern.matches seen))
      ((r.pattern.matches seen).map Match.text) = seen :=
    (r.pattern.matches_tiles seen).weave_gaps [] rfl
  have hpieces : ((r.outcomeOn seen).replacements.map fun p => e.apply p.found)
      = ((r.pattern.matches seen).map Match.text).map e.apply := by
    show ((r.pattern.matches seen).map r.replacementOf).map _ = _
    rw [List.map_map, List.map_map]
    rfl
  rw [hpieces, ← LineEnding.apply_weave, hweave]

/-- **What a rule leaves has the same gaps on disk.** -/
theorem apply_rewritten {r : Rule} {seen : Text} (e : LineEnding)
    (h : r.inBounds (r.pattern.count seen) = true) :
    e.apply (r.rewritten seen) = Text.weave ((gaps seen 0 (r.pattern.matches seen)).map e.apply)
      ((r.outcomeOn seen).replacements.map fun p => e.apply p.replacement) := by
  have hpieces : ((r.outcomeOn seen).replacements.map fun p => e.apply p.replacement)
      = ((r.pattern.matches seen).map r.filled).map e.apply := by
    show ((r.pattern.matches seen).map r.replacementOf).map _ = _
    rw [List.map_map, List.map_map]
    rfl
  rw [hpieces, rewritten_of_inBounds h, LineEnding.apply_weave]

end Rule

namespace Store

variable {s : Store} {name : String} {m m' : Machine} {rules : List Rule} {plan : Plan}

/-! ## §2. Rules in order. -/

/-- **Applying rules changes nothing on disk but the matches.**  The bytes that
were there and the bytes that were written are the ends of a chain with a link
for each rule.  A link keeps the gaps and puts what the rule rendered in the
place of what it matched, all in the line endings of the old bytes.  What is
read is what is written, and an artifact whose newlines all follow a carriage
return stays so. -/
theorem only_matches_change (happly : (s.applyRules name rules).exec m = (.ok plan, m')) :
    (∀ t, (LineEnding.detect t).apply ((LineEnding.detect t).normalize t) = t) ∧
    ∃ (live : Location) (raw : Text) (mode : Mode) (chain : Nat → Text),
      ((s.resolve name).exec m).1 = .ok live ∧
      m.tree.get? live = some (.file (Text.encode raw) mode) ∧
      m'.tree.get? live = some (.file (Text.encode (chain rules.length)) mode) ∧
      chain 0 = raw ∧
      (∀ (i : Nat) (r : Rule), rules[i]? = some r →
          ∃ (seen : Text) (gs : List Text) (replacements : List Replacement),
        chain i = (LineEnding.detect raw).apply seen ∧
        plan.outcomes[i]?.map RuleOutcome.replacements = some replacements ∧
        List.Forall₂ (fun found p => p.found = found.text ∧
            r.template.render found.captures = .ok p.replacement)
          (r.pattern.matches seen) replacements ∧
        gs.length = replacements.length + 1 ∧
        chain i = Text.weave (gs.map (LineEnding.detect raw).apply)
          (replacements.map fun p => (LineEnding.detect raw).apply p.found) ∧
        chain (i + 1) = Text.weave (gs.map (LineEnding.detect raw).apply)
          (replacements.map fun p => (LineEnding.detect raw).apply p.replacement)) ∧
      ('\n' ∈ raw → LineEnding.CrlfThroughout raw →
        LineEnding.CrlfThroughout (chain rules.length)) := by
  refine ⟨LineEnding.apply_normalize, ?_⟩
  obtain ⟨dir, file, bytes, mode, m₁, raw, text, hfinds, happlied⟩ := applied_of_exec happly
  have hbytes := Text.encode_of_decode? happlied.decoded
  have hresolve : (s.resolve name).exec m = (.ok (dir ++ [file]), m) :=
    exec_resolve_eq_ok_iff.2 ⟨rfl, dir, file, bytes, mode, rfl, hfinds⟩
  -- the plan is what the reference gives
  obtain ⟨plan₀, hplan, houtcomes, hcontent⟩ := happlied.planned
  rw [Plan.ofText_eq] at hplan
  obtain rfl := Except.ok.inj hplan
  dsimp only at houtcomes hcontent
  split at hcontent
  next hall =>
    obtain rfl := Option.some.inj hcontent
    have hbounds := Rule.all_isOk_outcomesOn.1 hall
    -- the chain is what the reference gives after so many rules, as it is written
    refine ⟨dir ++ [file], raw, mode, fun i => (LineEnding.detect raw).apply
      (Rule.textAfter (rules.take i) (ArtifactText.ofRaw raw).content), ?_, ?_, ?_, ?_, ?_, ?_⟩
    · rw [hresolve]
    · -- the bytes that were there
      rw [hbytes]
      exact hfinds.hasFile.node
    · -- the bytes that were written
      dsimp only
      rw [List.take_length]
      exact happlied.written.get?_self
    · exact LineEnding.apply_normalize raw
    · -- the link of a rule
      intro i r hr
      refine ⟨_, gaps _ 0 (r.pattern.matches _), _, rfl, ?_, r.forall₂_replacementOf _, ?_,
        r.apply_seen _ _, ?_⟩
      · rw [← houtcomes, Rule.getElem?_outcomesOn hr]
        rfl
      · rw [length_gaps]
        show _ = ((r.pattern.matches _).map r.replacementOf).length + 1
        rw [List.length_map]
      · dsimp only
        rw [Rule.textAfter_take_succ hr]
        exact Rule.apply_rewritten _ (hbounds i r hr)
    · intro hnewline hthroughout
      dsimp only
      rw [(LineEnding.detect_eq_crlf_iff raw).2 ⟨hnewline, hthroughout⟩]
      exact LineEnding.crlfThroughout_apply _
  next => cases hcontent

/-- The small package with CRLF lines, one of which ends in a carriage return of
its own. -/
def sampleCrlfDisk : Machine :=
  ⟨⟨[(["pkg"], .directory 0o755),
    (["pkg", "cli.js"], .file (Text.encode "a\r\r\ncall(b);\r\n".toList) 0o644)]⟩, []⟩

/-- Its lines are CRLF lines afterwards. -/
theorem only_matches_change_sample : ∃ plan m' after mode,
    (samplePackage.applyRules "cli" [sampleRule]).exec sampleCrlfDisk = (.ok plan, m') ∧
      m'.tree.get? ["pkg", "cli.js"] = some (.file (Text.encode after) mode) ∧
      LineEnding.CrlfThroughout after := by
  have hok : ((samplePackage.applyRules "cli" [sampleRule]).exec sampleCrlfDisk).1.isOk
      = true := by decide +kernel
  have hresolve : ((samplePackage.resolve "cli").exec sampleCrlfDisk).1
      = .ok ["pkg", "cli.js"] := by decide +kernel
  have hnode : sampleCrlfDisk.tree.get? ["pkg", "cli.js"]
      = some (.file (Text.encode "a\r\r\ncall(b);\r\n".toList) 0o644) := rfl
  have hdetect : LineEnding.detect "a\r\r\ncall(b);\r\n".toList = .crlf := by decide +kernel
  obtain ⟨hnewline, hthroughout⟩ := (LineEnding.detect_eq_crlf_iff _).1 hdetect
  cases hrun : (samplePackage.applyRules "cli" [sampleRule]).exec sampleCrlfDisk with
  | mk r m' =>
      rw [hrun] at hok
      cases r with
      | error e => cases hok
      | ok plan =>
          obtain ⟨-, live, raw, mode, chain, hlive, hbefore, hafter, -, -, hcrlf⟩ :=
            only_matches_change hrun
          rw [hresolve] at hlive
          obtain rfl := Except.ok.inj hlive
          rw [hnode] at hbefore
          obtain ⟨hbytes, -⟩ := Node.file.inj (Option.some.inj hbefore)
          have hraw := congrArg Text.decode? hbytes
          rw [Text.decode?_encode, Text.decode?_encode] at hraw
          obtain rfl := Option.some.inj hraw
          exact ⟨plan, m', _, mode, rfl, hafter, hcrlf hnewline hthroughout⟩

end Store

end ArtifactPatch
