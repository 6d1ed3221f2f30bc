/-
  ArtifactPatch.Proofs.Patch.Conversion
  ─────────────────────────────────────
  **PATCHING COMMUTES WITH THE CONVERSION OF LINE ENDINGS.**

  A text with plain newlines and the same text with pairs are one text to the
  matcher (`ofRaw_crlf`), so rules do the same to both, offsets included; what
  is written differs in the convention only, and a text is written as CRLF by
  converting it (`apply_crlf_eq`).  Whether applying succeeds does not depend
  on the bytes of the artifact beyond its plan (`Finds.applies_iff`).  Main
  result: `patch_crlf`.
-/
import ArtifactPatch.Proofs.LineEnding
import ArtifactPatch.Proofs.Patch.Agreement

namespace ArtifactPatch

/-! ## §1. Converted texts. -/

/-- A text with a pair for each newline. -/
def Text.crlf (t : Text) : Text :=
  t.flatMap fun c => if c = '\n' then ['\r', '\n'] else [c]

/-- Writing as CRLF is conversion. -/
theorem LineEnding.apply_crlf_eq (t : Text) : apply .crlf t = t.crlf := by
  induction t with
  | nil => exact apply_nil .crlf
  | cons c t ih =>
      show _ = (if c = '\n' then ['\r', '\n'] else [c]) ++ Text.crlf t
      by_cases hc : c = '\n'
      · subst hc
        rw [apply_crlf_newline, if_pos rfl, ih]
        rfl
      · rw [apply_crlf_cons hc, if_neg hc, ih]
        rfl

/-- A text without pairs is matched as it stands. -/
theorem ArtifactText.ofRaw_of_not_infix {t : Text} (h : ¬['\r', '\n'] <:+: t) :
    ofRaw t = ⟨t, .lf⟩ := by
  unfold ofRaw
  rw [(LineEnding.detect_eq_lf_iff t).2 h]
  rfl

/-- **A converted text is matched as it was before.** -/
theorem ArtifactText.ofRaw_crlf {t : Text} (h : '\n' ∈ t) : ofRaw t.crlf = ⟨t, .crlf⟩ := by
  unfold ofRaw
  rw [← LineEnding.apply_crlf_eq, (LineEnding.detect_apply_eq_iff .crlf t).2 h]
  show (⟨LineEnding.normalize .crlf (LineEnding.apply .crlf t), _⟩ : ArtifactText) = _
  rw [LineEnding.normalize_apply]

/-- **The plans for a text and for the converted text** differ only in the
convention in which the new text is to be written. -/
theorem Plan.ofText_crlf {x : Text} (hmem : '\n' ∈ x) (hpair : ¬['\r', '\n'] <:+: x)
    (artifact artifact' : String) (rules : List Rule) :
    ∃ (plan plan' : Plan) (new : Option Text),
      ofText artifact (.ofRaw x) rules = .ok plan ∧
      ofText artifact' (.ofRaw x.crlf) rules = .ok plan' ∧ plan'.outcomes = plan.outcomes ∧
      plan.content = new.map (⟨·, .lf⟩) ∧ plan'.content = new.map (⟨·, .crlf⟩) := by
  rw [ArtifactText.ofRaw_of_not_infix hpair, ArtifactText.ofRaw_crlf hmem, ofText_eq, ofText_eq]
  refine ⟨_, _, if (Rule.outcomesOn rules x).all RuleOutcome.isOk then
    some (Rule.textAfter rules x) else none, rfl, rfl, rfl, ?_, ?_⟩
  · dsimp only
    split <;> rfl
  · dsimp only
    split <;> rfl

/-! ## §2. Where a patch can be applied. -/

namespace Store

variable {s s' : Store} {name name' : String} {m m₁ m' m₁' : Machine} {dir : Location}
  {file : String} {bytes : ByteArray} {mode : Mode} {rules : List Rule} {raw x : Text}

/-- The artifact can be written, and its slot is taken or can be written. -/
def Patchable (m : Machine) (dir : Location) (file : String) : Prop :=
  m.Writable dir file ∧
    ((∃ st, m.stat (.ofLocation (dir ++ [slotName file])) = .ok st) ∨
      m.Writable dir (slotName file))

/-- Other bytes in the artifact make no difference. -/
theorem Finds.patchable_of_replaced {bytes' : ByteArray} {mode' : Mode}
    (h : s.Finds name m dir file bytes mode)
    (hreplaced : m.Replaced (dir ++ [file]) bytes' mode' m') (hpatchable : Patchable m dir file) :
    Patchable m' dir file := by
  have hwritable := hreplaced.writable_iff (fun _ => h.ne_temp) fun mode hdirectory => by
    rw [h.hasFile.node] at hdirectory
    cases hdirectory
  obtain ⟨hlive, hslot⟩ := hpatchable
  refine ⟨(hwritable file).2 hlive, ?_⟩
  rcases hslot with ⟨⟨kind, bits⟩, hst⟩ | hslot
  · -- the slot may be a link, but what it leads to keeps its kind
    have hkeep := hreplaced.persists_of_file h.hasFile.node
    obtain ⟨bits', hst'⟩ :=
      Machine.stat_persists (Route.spells_ofLocation (dir ++ [slotName file])).absolute hkeep hst
    exact .inl ⟨_, hst'⟩
  · exact .inr ((hwritable _).2 hslot)

/-- What was there before, put back. -/
theorem Finds.replaced_back {bytes' : ByteArray} {mode' : Mode}
    (h : s.Finds name m dir file bytes mode)
    (hreplaced : m.Replaced (dir ++ [file]) bytes' mode' m') :
    m'.Replaced (dir ++ [file]) bytes mode m := by
  intro k
  by_cases hk : k = dir ++ [file]
  · rw [if_pos hk, hk, h.hasFile.node]
  · rw [if_neg hk, hreplaced.get?_of_ne hk]

theorem Finds.patchable_iff {bytes' : ByteArray} {mode' : Mode}
    (h : s.Finds name m dir file bytes mode)
    (hreplaced : m.Replaced (dir ++ [file]) bytes' mode' m') :
    Patchable m dir file ↔ Patchable m' dir file :=
  ⟨h.patchable_of_replaced hreplaced,
    (h.replaced hreplaced).patchable_of_replaced (h.replaced_back hreplaced)⟩

/-- Rules are applied with success. -/
def Applies (s : Store) (name : String) (rules : List Rule) (m : Machine) : Prop :=
  ∃ applied m₁, (s.applyRules name rules).exec m = (.ok applied, m₁)

/-- A success has written the artifact, and seen or written its slot. -/
theorem Finds.patchable_of_applies (h : s.Finds name m dir file bytes mode)
    (happlies : s.Applies name rules m) : Patchable m dir file := by
  obtain ⟨applied, m', hexec⟩ := happlies
  obtain ⟨dir', file', bytes', mode', m₁, raw, text, hfinds, happlied⟩ := applied_of_exec hexec
  obtain ⟨rfl, rfl, rfl, rfl⟩ := h.unique hfinds
  have hwritable := happlied.writable
  cases happlied.backed with
  | present hst => exact ⟨hwritable, .inl ⟨_, hst⟩⟩
  | created hfree htakes hreplaced =>
      rw [hreplaced.writable_iff (fun n _ => slotName_ne_tempName file n) htakes.free_or_file]
        at hwritable
      exact ⟨hwritable, .inr ⟨hwritable.room, htakes⟩⟩

/-- Where the tree does not stand in the way, a complete plan is applied. -/
theorem Finds.applies_of_patchable {plan : Plan} (h : s.Finds name m dir file bytes mode)
    (hdecode : Text.decode? bytes = some raw)
    (hplan : Plan.ofText name (.ofRaw raw) rules = .ok plan) (hcomplete : plan.isComplete = true)
    (hpatchable : Patchable m dir file) : s.Applies name rules m := by
  have hbackup : Attempt.Ensures Call.Sturdy (fun _ => True) (s.backup name)
      (fun _ m₁ => s.Finds name m₁ dir file bytes mode ∧ m₁.Writable dir file)
      (fun _ _ => False) m := by
    refine h.backup_ensures (fun _ _ _ => trivial) (fun _ _ => ⟨h, hpatchable.1⟩) ?_ ?_
    · intro hfree hwritable m₁ hreplaced
      rw [slotOf_concat] at hfree hreplaced
      have hbacked : BackedUp m dir file bytes mode m₁ :=
        .created (hfree.resolve_left id) hwritable.target hreplaced
      have hlive := hreplaced.writable_iff (fun n _ => slotName_ne_tempName file n)
        hwritable.target.free_or_file file
      exact ⟨trivial, hbacked.finds h, hlive.2 hpatchable.1⟩
    · intro e n m' hfail _
      rcases hfail with hfrail | ⟨-, hnot, hunseen⟩
      · exact Call.not_sturdy hfrail
      · rw [slotOf_concat] at hunseen
        rcases hpatchable.2 with ⟨st, hst⟩ | hslot
        · exact hunseen st hst
        · exact hnot hslot
  have hensures : Attempt.Ensures Call.Sturdy (fun _ => True) (s.applyRules name rules)
      (fun _ _ => True) (fun _ _ => False) m := by
    refine Attempt.ensures_bind (Attempt.ensures_mapError (hbackup.mono ?_ fun _ _ he => he))
    intro o m₁ hbacked
    obtain ⟨hfinds, hwritable⟩ := hbacked
    refine hfinds.planAndWrite_ensures (fun _ _ _ => trivial)
      (fun _ _ _ _ _ _ _ _ _ => ⟨trivial, trivial⟩)
      ?_ ?_ ?_
    · -- the plan behind the backup is the plan for the same text
      intro raw' plan' hdecode' hplan' hnone
      rw [hdecode] at hdecode'
      obtain rfl := Option.some.inj hdecode'
      rw [hplan] at hplan'
      obtain rfl := Except.ok.inj hplan'
      rw [Plan.isComplete, hnone] at hcomplete
      cases hcomplete
    · intro raw' e _ hrefused
      rw [Plan.ofText_eq] at hrefused
      cases hrefused
    · intro e n m' hfail _
      rcases hfail with hfrail | ⟨-, hnot⟩ | hnone
      · exact Call.not_sturdy hfrail
      · exact hnot hwritable
      · rw [hdecode] at hnone
        cases hnone
  obtain ⟨applied, m₁, hexec, -⟩ := hensures.exec_succeeds
  exact ⟨applied, m₁, hexec⟩

/-- **When applying succeeds**: the plan is complete, and the tree does not stand
in the way. -/
theorem Finds.applies_iff {plan : Plan} (h : s.Finds name m dir file bytes mode)
    (hdecode : Text.decode? bytes = some raw)
    (hplan : Plan.ofText name (.ofRaw raw) rules = .ok plan) :
    s.Applies name rules m ↔ plan.isComplete = true ∧ Patchable m dir file := by
  constructor
  · intro happlies
    refine ⟨?_, h.patchable_of_applies happlies⟩
    obtain ⟨applied, m', hexec⟩ := happlies
    obtain ⟨_, _, _, _, _, _, _, hfinds, happlied⟩ := applied_of_exec hexec
    obtain ⟨rfl, rfl, rfl, rfl⟩ := h.unique hfinds
    obtain ⟨planned, hplanned, -, hcontent⟩ := happlied.planned
    obtain rfl := Option.some.inj (hdecode.symm.trans happlied.decoded)
    obtain rfl := Except.ok.inj (hplan.symm.trans hplanned)
    exact Option.isSome_iff_exists.2 ⟨_, hcontent⟩
  · intro hcan
    exact h.applies_of_patchable hdecode hplan hcan.1 hcan.2

/-! ## §3. Patching converted artifacts. -/

/-- **Patching commutes with conversion.**  Let one artifact hold a text with plain
newlines, and another one the converted text.  Both can be planned; the
outcomes are the same, offsets included, and so is whether the plan is complete.
Two successes of applying, of frail calls too, have those outcomes and leave a
text and the converted text.  And if the disks differ in the conversion only,
applying succeeds on both or on neither. -/
theorem patch_crlf (hmem : '\n' ∈ x) (hpair : ¬['\r', '\n'] <:+: x) (rules : List Rule)
    (hlf : ((s.readRaw name).exec m).1 = .ok (Text.encode x))
    (hcrlf : ((s'.readRaw name').exec m').1 = .ok (Text.encode x.crlf)) :
    ∃ plan plan' live live', (s.plan name rules).exec m = (.ok plan, m) ∧
      (s'.plan name' rules).exec m' = (.ok plan', m') ∧
      plan'.outcomes = plan.outcomes ∧ plan'.isComplete = plan.isComplete ∧
      ((s.resolve name).exec m).1 = .ok live ∧ ((s'.resolve name').exec m').1 = .ok live' ∧
      (∀ (frail : Call → Prop) applied applied' m₁ m₁',
        ¬frail (.stat (.ofLocation (slotOf live))) → ¬frail (.stat (.ofLocation (slotOf live'))) →
        Procedure.Ends frail (ExceptT.run (s.applyRules name rules)) m (.ok applied) m₁ →
        Procedure.Ends frail (ExceptT.run (s'.applyRules name' rules)) m' (.ok applied') m₁' →
        applied.outcomes = plan.outcomes ∧ applied'.outcomes = plan.outcomes ∧
        ∃ new mode mode', m₁.tree.get? live = some (.file (Text.encode new) mode) ∧
          m₁'.tree.get? live' = some (.file (Text.encode new.crlf) mode')) ∧
      (∀ mode, s' = s → name' = name → m.Replaced live (Text.encode x.crlf) mode m' →
        (s.Applies name rules m ↔ s'.Applies name' rules m')) := by
  obtain ⟨dir, file, mode, hfinds⟩ := finds_of_exec_readRaw hlf
  obtain ⟨dir', file', mode', hfinds'⟩ := finds_of_exec_readRaw hcrlf
  have hdecode := Text.decode?_encode x
  have hdecode' := Text.decode?_encode x.crlf
  obtain ⟨plan, plan', new, hplan, hplan', houtcomes, hnew, hnew'⟩ :=
    Plan.ofText_crlf hmem hpair name name' rules
  have hcomplete : plan'.isComplete = plan.isComplete := by
    unfold Plan.isComplete
    rw [hnew, hnew', Option.isSome_map, Option.isSome_map]
  have hexec := hfinds.exec_plan hdecode hplan
  have hexec' := hfinds'.exec_plan hdecode' hplan'
  refine ⟨plan, plan', dir ++ [file], dir' ++ [file'], hexec, hexec', houtcomes, hcomplete,
    hfinds.exec_resolve, hfinds'.exec_resolve, ?_, ?_⟩
  · intro frail applied applied' m₁ m₁' hlook hlook' hends hends'
    rw [slotOf_concat] at hlook hlook'
    obtain ⟨planned, text, hplanned, hsame, htext, -, hnode⟩ := hfinds.agrees_of_ok hlook hends
    obtain ⟨planned', text', hplanned', hsame', htext', -, hnode'⟩ :=
      hfinds'.agrees_of_ok hlook' hends'
    -- the plans that were carried out are those that were made before
    rw [hexec] at hplanned
    rw [hexec'] at hplanned'
    obtain rfl := Except.ok.inj (congrArg Prod.fst hplanned)
    obtain rfl := Except.ok.inj (congrArg Prod.fst hplanned')
    refine ⟨hsame.symm, hsame'.symm.trans houtcomes, ?_⟩
    rw [htext] at hnew
    rw [htext'] at hnew'
    obtain ⟨content, rfl, rfl⟩ := Option.map_eq_some_iff.1 hnew.symm
    obtain rfl := Option.some.inj hnew'
    refine ⟨content, mode, mode', hnode, ?_⟩
    rw [← LineEnding.apply_crlf_eq]
    exact hnode'
  · rintro bits rfl rfl hreplaced
    rw [hfinds.applies_iff hdecode hplan, hcomplete.symm]
    -- the converted artifact stands in the same place
    obtain ⟨rfl, rfl, -, -⟩ := (hfinds.replaced hreplaced).unique hfinds'
    rw [hfinds'.applies_iff hdecode' hplan', hfinds.patchable_iff hreplaced]

/-- The small package with some text in its artifact. -/
def sampleTextDisk (raw : Text) : Machine :=
  ⟨⟨[(["pkg"], .directory 0o755), (["pkg", "cli.js"], .file (Text.encode raw) 0o644)]⟩, []⟩

theorem replaced_sampleTextDisk (raw raw' : Text) :
    (sampleTextDisk raw).Replaced ["pkg", "cli.js"] (Text.encode raw') 0o644
      (sampleTextDisk raw') := by
  intro k
  by_cases hk : k = ["pkg", "cli.js"]
  · subst hk
    rfl
  · rw [if_neg hk]
    unfold Tree.get? sampleTextDisk
    simp only [List.lookup_cons, beq_false_of_ne hk]

/-- A rule whose matches and replacements have line ends in them. -/
def sampleSpacingRule : Rule where
  id := "spacing"
  pattern := ⟨[.literal "call(".toList, .placeholder "A", .literal ");\n".toList], by decide,
    by decide⟩
  template := ⟨[.literal "guard(".toList, .placeholder "A", .literal ");\n\n".toList]⟩
  min := 1
  max := none
  same_placeholders := by decide
  not_noOp := by decide
  one_le_min := Nat.one_pos

/-- A line and its conversion are patched alike. -/
theorem patch_crlf_sample : ∃ applied applied' m₁ m₁' new mode mode',
    (samplePackage.applyRules "cli" [sampleSpacingRule]).exec
      (sampleTextDisk "call(a);\n".toList) = (.ok applied, m₁) ∧
    (samplePackage.applyRules "cli" [sampleSpacingRule]).exec
      (sampleTextDisk "call(a);\r\n".toList) = (.ok applied', m₁') ∧
    applied'.outcomes = applied.outcomes ∧
    m₁.tree.get? ["pkg", "cli.js"] = some (.file (Text.encode new) mode) ∧
    m₁'.tree.get? ["pkg", "cli.js"] = some (.file (Text.encode new.crlf) mode') := by
  have hlf : ((samplePackage.readRaw "cli").exec (sampleTextDisk "call(a);\n".toList)).1
      = .ok (Text.encode "call(a);\n".toList) := by decide +kernel
  have hcrlf : ((samplePackage.readRaw "cli").exec (sampleTextDisk "call(a);\r\n".toList)).1
      = .ok (Text.encode (Text.crlf "call(a);\n".toList)) := by decide +kernel
  have hresolve : ((samplePackage.resolve "cli").exec (sampleTextDisk "call(a);\n".toList)).1
      = .ok ["pkg", "cli.js"] := by decide +kernel
  have hresolve' : ((samplePackage.resolve "cli").exec (sampleTextDisk "call(a);\r\n".toList)).1
      = .ok ["pkg", "cli.js"] := by decide +kernel
  have hok : ((samplePackage.applyRules "cli" [sampleSpacingRule]).exec
      (sampleTextDisk "call(a);\n".toList)).1.isOk = true := by decide +kernel
  -- there is no pair in a text without carriage returns
  have hpair : ¬['\r', '\n'] <:+: "call(a);\n".toList := fun h =>
    absurd (h.subset List.mem_cons_self) (by decide)
  obtain ⟨plan, plan', live, live', -, -, -, -, hlive, hlive', hwritten, happlies⟩ :=
    patch_crlf (by decide) hpair [sampleSpacingRule] hlf hcrlf
  rw [hresolve] at hlive
  rw [hresolve'] at hlive'
  obtain rfl := Except.ok.inj hlive
  obtain rfl := Except.ok.inj hlive'
  have happlied : samplePackage.Applies "cli" [sampleSpacingRule]
      (sampleTextDisk "call(a);\n".toList) := Attempt.exec_of_isOk hok
  -- so the conversion is patched as well
  obtain ⟨applied', m₁', hexec'⟩ := (happlies _ rfl rfl (replaced_sampleTextDisk _ _)).1 happlied
  obtain ⟨applied, m₁, hexec⟩ := happlied
  obtain ⟨hsame, hsame', new, mode, mode', hnode, hnode'⟩ :=
    hwritten (fun _ => False) _ _ _ _ id id (Attempt.ends_of_exec _ hexec)
      (Attempt.ends_of_exec _ hexec')
  exact ⟨applied, applied', m₁, m₁', new, mode, mode', hexec, hexec', hsame'.trans hsame.symm,
    hnode, hnode'⟩

end Store

end ArtifactPatch
