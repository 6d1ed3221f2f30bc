/-
  ArtifactPatch.Proofs.Patch.Agreement
  ────────────────────────────────────
  **APPLYING DOES WHAT WAS PLANNED, OR NOTHING.**

  Applying plans again, behind a backup that was taken in between.  The plan is
  the one that planning alone would have made: a success writes its content,
  and a shortfall is reported as the plan has it, with one failure for each
  rule whose number of matches is out of bounds.  Whatever goes wrong, the
  artifact is spared (`Spared`): at most a copy of it appears in the slot, where
  nothing was or where something was overlooked (`apply_agrees_with_plan`).  A
  slot is overlooked if the look at it fails, or if a link in it leads through
  more links than are followed; then its content is lost
  (`occupied_slot_lost`).
-/
import ArtifactPatch.Proofs.Patch.Applied

namespace ArtifactPatch

/-! ## §1. Shortfalls. -/

namespace Rule

/-- What is reported of the rules that are out of bounds on the text that they
see, in the order of the rules. -/
def shortfalls (rules : List Rule) (content : Text) : List RuleOutcome :=
  (rules.zipIdx.filter fun (r, i) =>
      !r.inBounds (r.pattern.count (textAfter (rules.take i) content))).map
    fun (r, i) => r.outcomeOn (textAfter (rules.take i) content)

theorem isOk_outcomeOn (r : Rule) (content : Text) :
    (r.outcomeOn content).isOk = r.inBounds (r.pattern.count content) :=
  isOk_statusFor r _

/-- The outcomes, each with the index of its rule. -/
theorem outcomesOn_eq_map (rules : List Rule) (content : Text) :
    outcomesOn rules content
      = rules.zipIdx.map fun (r, i) => r.outcomeOn (textAfter (rules.take i) content) := by
  refine List.ext_getElem? fun i => ?_
  rw [List.getElem?_map, List.getElem?_zipIdx]
  cases hr : rules[i]? with
  | some r =>
      rw [getElem?_outcomesOn hr]
      show _ = some (r.outcomeOn (textAfter (rules.take (0 + i)) content))
      rw [Nat.zero_add]
  | none =>
      have hlength : rules.length ≤ i := List.getElem?_eq_none_iff.1 hr
      rw [← length_outcomesOn rules content] at hlength
      exact List.getElem?_eq_none hlength

/-- The failures of a plan are the shortfalls. -/
theorem filter_outcomesOn (rules : List Rule) (content : Text) :
    (outcomesOn rules content).filter (!·.isOk) = shortfalls rules content := by
  unfold shortfalls
  rw [outcomesOn_eq_map, List.filter_map]
  congr 1
  refine List.filter_congr fun p _ => ?_
  show (!RuleOutcome.isOk _) = _
  rw [isOk_outcomeOn]

end Rule

namespace Store

variable {s : Store} {name : String} {m m₁ m' : Machine} {dir : Location} {file : String}
  {bytes : ByteArray} {mode : Mode} {frail : Call → Prop} {rules : List Rule}

/-! ## §2. Planning. -/

/-- The text of an artifact that can be read. -/
theorem finds_of_exec_read {text : ArtifactText} (h : ((s.read name).exec m).1 = .ok text) :
    ∃ dir file mode raw, s.Finds name m dir file (Text.encode raw) mode ∧ text = .ofRaw raw := by
  obtain ⟨bytes, m₁, hraw, hdecode⟩ := Attempt.exec_bind_eq_ok.1 (Prod.ext h rfl)
  obtain ⟨dir, file, mode, hfinds⟩ := finds_of_exec_readRaw (congrArg Prod.fst hraw)
  cases hraw' : Text.decode? bytes with
  | none =>
      rw [hraw'] at hdecode
      cases hdecode
  | some raw =>
      rw [hraw'] at hdecode
      obtain rfl := Except.ok.inj (congrArg Prod.fst hdecode)
      rw [← Text.encode_of_decode? hraw'] at hfinds
      exact ⟨dir, file, mode, raw, hfinds, rfl⟩

/-- Reading an artifact whose bytes are text. -/
theorem Finds.exec_read {raw : Text} (h : s.Finds name m dir file bytes mode)
    (hdecode : Text.decode? bytes = some raw) : (s.read name).exec m = (.ok (.ofRaw raw), m) := by
  have hensures : Attempt.Ensures Call.Sturdy (fun _ => True) (s.read name)
      (fun text m' => text = .ofRaw raw ∧ m' = m) (fun _ _ => False) m := by
    refine h.read_ensures trivial ?_ ?_
    · intro raw' hdecode'
      rw [hdecode] at hdecode'
      exact ⟨congrArg _ (Option.some.inj hdecode').symm, rfl⟩
    · intro hfail
      rcases hfail with hfrail | hnone
      · exact (Call.not_sturdy hfrail).elim
      · rw [hdecode] at hnone
        cases hnone
  obtain ⟨text, m', hexec, rfl, rfl⟩ := hensures.exec_succeeds
  exact hexec

/-- Checking an artifact whose bytes are text. -/
theorem Finds.exec_verify {raw : Text} (h : s.Finds name m dir file bytes mode)
    (hdecode : Text.decode? bytes = some raw) (es : List Expectation) :
    (s.verify name es).exec m
      = (.ok (Expectation.checkAll name (ArtifactText.ofRaw raw).content es), m) := by
  unfold verify
  rw [Attempt.exec_bind, h.exec_read hdecode]
  rfl

/-- The plan of an artifact whose bytes are text. -/
theorem Finds.exec_plan {raw : Text} {plan : Plan} (h : s.Finds name m dir file bytes mode)
    (hdecode : Text.decode? bytes = some raw)
    (hplan : Plan.ofText name (.ofRaw raw) rules = .ok plan) :
    (s.plan name rules).exec m = (.ok plan, m) := by
  unfold Store.plan
  rw [Attempt.exec_bind, Attempt.exec_mapError, h.exec_read hdecode]
  dsimp only [Except.mapError]
  rw [hplan]
  rfl

/-! ## §3. Failures. -/

/-- Nothing stands at a location, nor where a link there leads, through however
many links. -/
def NothingAt (m : Machine) (l : Location) : Prop :=
  ∀ links l', ¬m.tree.Leads links [] l false l'

/-- A look at a location does not tell what is there: the look fails, or what is
there can be reached only through more links than are followed. -/
inductive Overlooked (frail : Call → Prop) (m : Machine) (l : Location) : Prop
  | failed (h : frail (.stat (.ofLocation l)))
  | tooFar {links : Nat} {l' : Location} (h : m.tree.Leads links [] l false l')
      (hmax : ∀ l', ¬m.tree.Leads Tree.maxLinks [] l false l')

/-- What a failure leaves of an artifact: all there was, but that a copy of the
artifact may stand in its slot, where nothing was or where something was
overlooked. -/
structure Spared (frail : Call → Prop) (m : Machine) (live : Location) (m' : Machine) : Prop where
  same : m'.tree.get? live = m.tree.get? live
  kept : ∀ k n, k ≠ slotOf live → m.tree.get? k = some n → m'.tree.get? k = some n
  slot : m'.tree.get? (slotOf live) = m.tree.get? (slotOf live) ∨
    (NothingAt m (slotOf live) ∨ Overlooked frail m (slotOf live)) ∧
      ∃ bytes mode, m.tree.get? live = some (.file bytes mode) ∧
        m'.tree.get? (slotOf live) = some (.file bytes mode)

theorem nothingAt_or_overlooked {l : Location} (htext : (Route.ofLocation l).checkText = .ok ())
    (hstat : ∀ st, m.stat (.ofLocation l) ≠ .ok st) : NothingAt m l ∨ Overlooked frail m l := by
  by_cases hleads : ∃ links l', m.tree.Leads links [] l false l'
  · obtain ⟨links, l', hleads⟩ := hleads
    exact .inr (.tooFar hleads (not_leads_of_stat htext hstat))
  · exact .inl fun links l' h => hleads ⟨links, l', h⟩

theorem Finds.spared_of_aside (h : s.Finds name m dir file bytes mode) {n : Nat}
    (haside : m.Aside (dir ++ [tempName n]) m') : Spared frail m (dir ++ [file]) m' := by
  refine ⟨?_, fun k node _ hnode => haside.get?_eq_some hnode, .inl ?_⟩
  · rw [haside.get?_eq_some h.hasFile.node, h.hasFile.node]
  · rw [slotOf_concat]
    exact haside.same _ (slot_ne_temp dir file n)

/-- A copy of the artifact in its slot, and a temporary file. -/
theorem Finds.spared_of_copy (h : s.Finds name m dir file bytes mode)
    (hcopy : m.Replaced (dir ++ [slotName file]) bytes mode m₁)
    (hslot : NothingAt m (dir ++ [slotName file]) ∨ Overlooked frail m (dir ++ [slotName file]))
    {n : Nat} (haside : m₁.Aside (dir ++ [tempName n]) m') :
    Spared frail m (dir ++ [file]) m' := by
  have hlive := (hcopy.get?_of_ne (place_ne_slot dir file)).trans h.hasFile.node
  refine ⟨?_, ?_, .inr ?_⟩
  · rw [haside.get?_eq_some hlive, h.hasFile.node]
  · intro k node hk hnode
    rw [slotOf_concat] at hk
    exact haside.get?_eq_some ((hcopy.get?_of_ne hk).trans hnode)
  · rw [slotOf_concat]
    exact ⟨hslot, bytes, mode, h.hasFile.node, haside.get?_eq_some hcopy.get?_self⟩

/-- A backup of either kind and a temporary file spare the artifact. -/
theorem Finds.spared (h : s.Finds name m dir file bytes mode)
    (hbacked : BackedUp m dir file bytes mode m₁ ∨ Recopied frail m dir file bytes mode m₁)
    {n : Nat} (haside : m₁.Aside (dir ++ [tempName n]) m') : Spared frail m (dir ++ [file]) m' := by
  rcases hbacked with hbacked | hrecopied
  · cases hbacked with
    | present => exact h.spared_of_aside haside
    | created hfree htakes hcopy =>
        exact h.spared_of_copy hcopy (nothingAt_or_overlooked htakes.text hfree) haside
  · exact h.spared_of_copy hrecopied.copied (.inr (.failed hrecopied.frail)) haside

/-- Where no call is frail, applying rules to a text fails by the disk, or
because rules fall short. -/
theorem Finds.shortfall_ensures {raw : Text} {plan : Plan}
    (h : s.Finds name m dir file bytes mode) (hdecode : Text.decode? bytes = some raw)
    (hplan : Plan.ofText name (.ofRaw raw) rules = .ok plan) :
    Attempt.Ensures Call.Sturdy (fun _ => True) (s.applyRules name rules)
      (fun _ _ => plan.content ≠ none)
      (fun e _ => (∃ l reason, e = .store (.disk l reason)) ∨
        e = .mismatch name plan.failures ∧ plan.content = none) m := by
  -- the plan behind the backup is the plan for the same text
  have hsame {raw' : Text} {p : Plan} (hdecode' : Text.decode? bytes = some raw')
      (hp : Plan.ofText name (.ofRaw raw') rules = .ok p) : p = plan := by
    rw [hdecode] at hdecode'
    obtain rfl := Option.some.inj hdecode'
    rw [hplan] at hp
    exact (Except.ok.inj hp).symm
  refine (h.applied_ensures id ?_ ?_).mono ?_ fun _ _ he => he
  · intro e m₁ n m' hfail _ _
    rcases hfail with hfrail | ⟨l, reason, rfl⟩ | hnone
    · exact (Call.not_sturdy hfrail).elim
    · exact .inl ⟨l, reason, rfl⟩
    · rw [hdecode] at hnone
      cases hnone
  · intro raw' p m₁ hdecode' hp hnone _
    obtain rfl := hsame hdecode' hp
    exact .inr ⟨rfl, hnone⟩
  · intro _ m' happlied hnone
    obtain ⟨m₁, raw', text, happlied⟩ := happlied
    obtain ⟨plan₀, hplan₀, -, hcontent⟩ := happlied.planned
    obtain rfl := hsame happlied.decoded hplan₀
    rw [hnone] at hcontent
    cases hcontent

/-! ## §4. Agreement. -/

/-- A call of `frail` is none of the looks at the slot of an artifact. -/
theorem Finds.not_frail_slot (h : s.Finds name m dir file bytes mode)
    (hsturdy : ∀ live, ((s.resolve name).exec m).1 = .ok live →
      ¬frail (.stat (.ofLocation (slotOf live)))) :
    ¬frail (.stat (.ofLocation (dir ++ [slotName file]))) := by
  have hlook := hsturdy _ h.exec_resolve
  rwa [slotOf_concat] at hlook

/-- **A success is the plan, and a failure spares the artifact.**  The artifact is
found where it was, unless its path led through a link in the slot and the look
at the slot failed. -/
theorem Finds.agrees_ensures (h : s.Finds name m dir file bytes mode) :
    Attempt.Ensures frail (fun _ => True) (s.applyRules name rules)
      (fun plan m' => ∃ planned text place, (s.plan name rules).exec m = (.ok planned, m) ∧
        planned.outcomes = plan.outcomes ∧ planned.content = some text ∧
        plan.content = some text ∧ s.Finds name m' dir place (Text.encode text.toRaw) mode ∧
        (place = file ∨ place = slotName file ∧
          frail (.stat (.ofLocation (dir ++ [slotName file]))) ∧
          ∃ target, m.tree.get? (dir ++ [slotName file]) = some (.link target)))
      (fun _ m' => Spared frail m (dir ++ [file]) m') m := by
  rw [applyRules_eq]
  refine Attempt.ensures_bind (Attempt.ensures_mapError ((h.backedUp_or_recopied ?_).mono ?_
    fun _ _ he => he))
  · intro _ n m' _ haside
    exact h.spared_of_aside haside
  · intro o m₁ hbacked
    have hnear : FoundNear s name dir file bytes mode m₁ := by
      rcases hbacked with hbacked | hrecopied
      · exact (hbacked.finds h).foundNear
      · exact h.foundNear_of_copy hrecopied.copied
    refine hnear.planAndWrite_ensures (fun _ _ _ => trivial) ?_
      fun _ n m' hgivenUp => h.spared hbacked hgivenUp.aside
    intro place raw plan text m' _ hafter hdecode hplan hcontent hreplaced
    refine ⟨trivial, plan, text, place, h.exec_plan hdecode hplan, rfl, hcontent, hcontent,
      hafter.replaced hreplaced, ?_⟩
    rcases hbacked with hbacked | hrecopied
    · exact .inl ((hbacked.finds h).unique hafter).2.1.symm
    · exact (hrecopied.place_eq h hafter).imp_right fun ⟨hplace, hlink⟩ =>
        ⟨hplace, hrecopied.frail, hlink⟩

/-- **A success is the plan**, in the place of the artifact, where looks at the slot
do not fail. -/
theorem Finds.agrees_of_ok (h : s.Finds name m dir file bytes mode)
    (hsturdy : ¬frail (.stat (.ofLocation (dir ++ [slotName file])))) {plan : Plan}
    (hends : Procedure.Ends frail (ExceptT.run (s.applyRules name rules)) m (.ok plan) m') :
    ∃ planned text, (s.plan name rules).exec m = (.ok planned, m) ∧
      planned.outcomes = plan.outcomes ∧ planned.content = some text ∧ plan.content = some text ∧
      m'.tree.get? (dir ++ [file]) = some (.file (Text.encode text.toRaw) mode) := by
  obtain ⟨planned, text, place, hplan, houtcomes, hplanned, hcontent, hafter, hplace⟩ :=
    h.agrees_ensures.ends_ok hends
  obtain rfl := hplace.resolve_right fun hslot => hsturdy hslot.2.1
  exact ⟨planned, text, hplan, houtcomes, hplanned, hcontent, hafter.hasFile.node⟩

/-- **A mismatch is a shortfall**, and the other way round. -/
theorem mismatch_iff_shortfall {text : ArtifactText} {result : Except PatchError Plan}
    (hread : ((s.read name).exec m).1 = .ok text)
    (hexec : (s.applyRules name rules).exec m = (result, m'))
    (hdisk : ∀ l reason, result ≠ .error (.store (.disk l reason))) :
    ∃ planned, (s.plan name rules).exec m = (.ok planned, m) ∧
      ((∃ artifact failures, result = .error (.mismatch artifact failures)) ↔
        planned.isComplete = false) ∧
      ∀ artifact failures, result = .error (.mismatch artifact failures) →
        artifact = name ∧ failures = Rule.shortfalls rules text.content := by
  obtain ⟨dir, file, mode, raw, hfinds, rfl⟩ := finds_of_exec_read hread
  have hdecode := Text.decode?_encode raw
  have hplan := Plan.ofText_eq name (.ofRaw raw) rules
  have hensures := hfinds.shortfall_ensures hdecode hplan
  refine ⟨_, hfinds.exec_plan hdecode hplan, ?_⟩
  cases result with
  | ok plan =>
      have hcontent := hensures.exec_ok hexec
      refine ⟨iff_of_false ?_ ?_, ?_⟩
      · intro h
        obtain ⟨_, _, h⟩ := h
        cases h
      · intro hnone
        exact hcontent (Option.not_isSome_iff_eq_none.1 (Bool.eq_false_iff.1 hnone))
      · intro _ _ h
        cases h
  | error e =>
      rcases hensures.exec_error hexec with ⟨l, reason, rfl⟩ | ⟨rfl, hnone⟩
      · exact absurd rfl (hdisk l reason)
      · refine ⟨iff_of_true ⟨_, _, rfl⟩ ?_, ?_⟩
        · show Option.isSome _ = false
          rw [hnone]
          rfl
        · intro artifact failures h
          obtain ⟨rfl, rfl⟩ := PatchError.mismatch.inj (Except.error.inj h)
          exact ⟨rfl, Rule.filter_outcomesOn rules _⟩

/-- **Applying agrees with planning, and fails without harm.**  A success has the
outcomes and the content of the complete plan for the state before, and the
artifact holds that content where it is found afterwards: where it was or, if its
path led through a link in the slot and the look at the slot failed, in the slot.
A failure of any kind, of frail calls too, spares the artifact; the slot keeps
what is there, unless it is overlooked.  And where only the tree makes calls
fail, the rules of a text fall short exactly if its plan has no content; the
failures are then those of the rules out of bounds, in order. -/
theorem apply_agrees_with_plan (s : Store) (name : String) (m : Machine) (frail : Call → Prop)
    (rules : List Rule) :
    (∀ plan m', Procedure.Ends frail (ExceptT.run (s.applyRules name rules)) m (.ok plan) m' →
      ∃ planned text live live' mode, (s.plan name rules).exec m = (.ok planned, m) ∧
        planned.outcomes = plan.outcomes ∧ planned.content = some text ∧ plan.content = some text ∧
        ((s.resolve name).exec m).1 = .ok live ∧ ((s.resolve name).exec m').1 = .ok live' ∧
        m'.tree.get? live' = some (.file (Text.encode text.toRaw) mode) ∧
        (live' = live ∨ live' = slotOf live ∧ frail (.stat (.ofLocation (slotOf live))) ∧
          ∃ target, m.tree.get? (slotOf live) = some (.link target))) ∧
    (∀ e m', Procedure.Ends frail (ExceptT.run (s.applyRules name rules)) m (.error e) m' →
      m' = m ∨ ∃ live, ((s.resolve name).exec m).1 = .ok live ∧ Spared frail m live m') ∧
    (∀ text result m', ((s.read name).exec m).1 = .ok text →
      (s.applyRules name rules).exec m = (result, m') →
      (∀ l reason, result ≠ .error (.store (.disk l reason))) →
      ∃ planned, (s.plan name rules).exec m = (.ok planned, m) ∧
        ((∃ artifact failures, result = .error (.mismatch artifact failures)) ↔
          planned.isComplete = false) ∧
        ∀ artifact failures, result = .error (.mismatch artifact failures) →
          artifact = name ∧ failures = Rule.shortfalls rules text.content) := by
  refine ⟨?_, ?_, fun text result m' hread hexec hdisk =>
    mismatch_iff_shortfall hread hexec hdisk⟩
  · intro plan m' hends
    obtain ⟨dir, file, bytes, mode, hfinds⟩ := finds_of_ends_ok hends
    obtain ⟨planned, text, place, hplan, houtcomes, hplanned, hcontent, hafter, hplace⟩ :=
      hfinds.agrees_ensures.ends_ok hends
    refine ⟨planned, text, dir ++ [file], dir ++ [place], mode, hplan, houtcomes, hplanned,
      hcontent, hfinds.exec_resolve, hafter.exec_resolve, hafter.hasFile.node, ?_⟩
    rw [slotOf_concat]
    exact hplace.imp (fun hfile => by rw [hfile]) fun ⟨hslot, hfrail, hlink⟩ =>
      ⟨by rw [hslot], hfrail, hlink⟩
  · intro e m' hends
    by_cases hfound : ∃ dir file bytes mode, s.Finds name m dir file bytes mode
    · obtain ⟨dir, file, bytes, mode, hfinds⟩ := hfound
      exact .inr ⟨dir ++ [file], hfinds.exec_resolve, hfinds.agrees_ensures.ends_error hends⟩
    · -- without an artifact, nothing is done
      have hensures : Attempt.Ensures frail (fun _ => True) (s.applyRules name rules)
          (fun _ _ => False) (fun _ m' => m' = m) m :=
        applyRules_ensures_of_not_finds trivial fun dir file bytes mode hfinds =>
          hfound ⟨dir, file, bytes, mode, hfinds⟩
      exact .inl (hensures.ends_error hends)

/-- The call of the small package is patched as planned, though every call may fail. -/
theorem apply_agrees_with_plan_sample : ∃ plan planned mode m',
    Procedure.Ends (fun _ => True) (ExceptT.run (samplePackage.applyRules "cli" [sampleRule]))
      (sampleDisk []) (.ok plan) m' ∧
    (samplePackage.plan "cli" [sampleRule]).exec (sampleDisk []) = (.ok planned, sampleDisk []) ∧
    planned.content = plan.content ∧
    m'.tree.get? ["pkg", "cli.js"] = some (.file (Text.encode "guard(a);".toList) mode) := by
  have hresolve : ((samplePackage.resolve "cli").exec (sampleDisk [])).1
      = .ok ["pkg", "cli.js"] := by decide +kernel
  have hcontent : ((samplePackage.applyRules "cli" [sampleRule]).exec (sampleDisk [])).1.map
      (fun plan => plan.content) = .ok (some ⟨"guard(a);".toList, .lf⟩) := by decide +kernel
  have hfree : (sampleDisk []).tree.get? (slotOf ["pkg", "cli.js"]) = none := by decide +kernel
  have hends := Procedure.ends_run (fun _ => True)
    (ExceptT.run (samplePackage.applyRules "cli" [sampleRule])) (sampleDisk [])
  cases hrun : (samplePackage.applyRules "cli" [sampleRule]).exec (sampleDisk []) with
  | mk result m' =>
      rw [hrun] at hcontent
      unfold Attempt.exec at hrun
      rw [hrun] at hends
      cases result with
      | error e => cases hcontent
      | ok plan =>
          obtain ⟨planned, text, live, live', mode, hplan, -, hplanned, hplan', hlive, -, hnode,
            hplace⟩ := (apply_agrees_with_plan samplePackage "cli" (sampleDisk []) (fun _ => True)
              [sampleRule]).1 plan m' hends
          rw [hresolve] at hlive
          obtain rfl := Except.ok.inj hlive
          -- without a link in the slot the artifact stays where it was
          obtain rfl := hplace.resolve_right fun ⟨_, _, target, hlink⟩ => by
            rw [hfree] at hlink
            cases hlink
          obtain rfl := Option.some.inj (hplan'.symm.trans (Except.ok.inj hcontent))
          exact ⟨plan, planned, mode, m', hends, hplan, hplanned.trans hplan'.symm, hnode⟩

/-- The small package, patched, with its backup. -/
def samplePatched : Machine :=
  ⟨⟨[(["pkg"], .directory 0o755), (["pkg", "cli.js"], .file (Text.encode "guard(a);".toList) 0o644),
    (["pkg", "cli.js.bak"], .file (Text.encode "call(a);".toList) 0o644)]⟩, []⟩

/-- The same, but that the slot leads to the backup through a link to the package
itself, again and again. -/
def sampleMaze : Machine :=
  ⟨⟨[(["pkg"], .directory 0o755), (["pkg", "cli.js"], .file (Text.encode "guard(a);".toList) 0o644),
    (["pkg", "saved.js"], .file (Text.encode "call(a);".toList) 0o644), (["pkg", "d"], .link "."),
    (["pkg", "cli.js.bak"], .link (String.join (List.replicate 45 "d/") ++ "saved.js"))]⟩, []⟩

/-- Rules that do not match leave a copy of the patched artifact where its backup
was, or a link to it: in the maze, where every call is answered as the tree says,
and beside a backup whose look fails. -/
theorem occupied_slot_lost :
    (∃ links failures m',
      sampleMaze.tree.Leads links [] ["pkg", "cli.js.bak"] false ["pkg", "saved.js"] ∧
      (samplePackage.applyRules "cli" [sampleRule]).exec sampleMaze
        = (.error (.mismatch "cli" failures), m') ∧
      m'.tree.get? ["pkg", "cli.js.bak"] = some (.file (Text.encode "guard(a);".toList) 0o644)) ∧
    ∃ failures m', Procedure.Ends sampleBlindness
        (ExceptT.run (samplePackage.applyRules "cli" [sampleRule])) samplePatched
        (.error (.mismatch "cli" failures)) m' ∧
      m'.tree.get? ["pkg", "cli.js.bak"] = some (.file (Text.encode "guard(a);".toList) 0o644) := by
  refine ⟨?_, ?_⟩
  · have hwalk : sampleMaze.tree.walk true 46 [] ["pkg", "cli.js.bak"] false
        = .ok (.node ["pkg", "saved.js"]) := by decide +kernel
    obtain ⟨hshort, hlost⟩ : ((samplePackage.applyRules "cli" [sampleRule]).exec
          sampleMaze).1.map (fun _ => ())
            = .error (.mismatch "cli" [⟨"guard", 0, .belowMinimum 1, []⟩]) ∧
        ((samplePackage.applyRules "cli" [sampleRule]).exec sampleMaze).2.tree.get?
          ["pkg", "cli.js.bak"] = some (.file (Text.encode "guard(a);".toList) 0o644) := by
      decide +kernel
    cases hrun : (samplePackage.applyRules "cli" [sampleRule]).exec sampleMaze with
    | mk result m' =>
        rw [hrun] at hshort hlost
        obtain rfl := Except.error_of_map_eq_error hshort
        exact ⟨46, _, m', Tree.walk_eq_node_iff.1 hwalk, rfl, hlost⟩
  · have hresolve : ((samplePackage.resolve "cli").exec samplePatched).1
        = .ok ["pkg", "cli.js"] := by decide +kernel
    have hcreated : ((saveCopy ["pkg", "cli.js"]).exec samplePatched).1
        = .ok (.created ["pkg", "cli.js.bak"]) := by decide +kernel
    -- what is done once the look has failed
    obtain ⟨m₁, hm₁⟩ : ∃ m₁, ((saveCopy ["pkg", "cli.js"]).exec samplePatched).2 = m₁ := ⟨_, rfl⟩
    obtain ⟨hshort, hlost⟩ : ((samplePackage.planAndWrite "cli" [sampleRule]
          (.created ["pkg", "cli.js.bak"])).exec m₁).1.map (fun _ => ())
            = .error (.mismatch "cli" [⟨"guard", 0, .belowMinimum 1, []⟩]) ∧
        ((samplePackage.planAndWrite "cli" [sampleRule]
          (.created ["pkg", "cli.js.bak"])).exec m₁).2.tree.get? ["pkg", "cli.js.bak"]
            = some (.file (Text.encode "guard(a);".toList) 0o644) := by
      rw [← hm₁]
      decide +kernel
    have hends : Procedure.Ends sampleBlindness _ samplePatched _ _ :=
      applyRules_ends_of_frail hresolve rfl (Prod.ext hcreated hm₁)
        (Prod.ext (Except.error_of_map_eq_error hshort) rfl)
    exact ⟨_, _, hends, hlost⟩

end Store

end ArtifactPatch
