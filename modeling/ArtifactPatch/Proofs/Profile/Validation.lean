/-
  ArtifactPatch.Proofs.Profile.Validation
  ───────────────────────────────────────
  **VALIDATION IS EXACT, AND ENOUGH FOR A SESSION.**

  `Profile.Valid` says of a profile what validation has to find out, field by field
  and without the names that have been seen on the way; nothing is found wrong iff it
  holds (`issues_eq_nil_iff`).

  A valid profile hands its entries out (`HandsOut`): each compiles, an artifact gets
  those that name it, in their order, and as every entry names one of the artifacts,
  whose names differ, all artifacts together get each entry once:

      artifacts.flatMap (entries for it)   ~   entries

  Main results: `validation_exact`; and what compiling makes of the bounds that were
  checked, `satisfiable_iff`.
-/
import Mathlib.Data.List.Perm.Basic
import ArtifactPatch.Proofs.Command.AllOrNothing

namespace ArtifactPatch

/-! ## §1. Valid profiles. -/

/-- A string with a character that is no blank. -/
def Text.Visible (s : String) : Prop :=
  ∃ c ∈ s.toList, Text.isBlank c = false

/-- An artifact with a name and a path. -/
structure Artifact.Valid (a : Artifact) : Prop where
  name : Text.Visible a.name
  path : Text.Visible a.path

/-- A rule about one of these artifacts, with bounds in order and sources that compile. -/
structure RuleEntry.Valid (artifacts : List String) (e : RuleEntry) : Prop where
  named : Text.Visible e.id
  target : e.artifact ∈ artifacts
  bounds : ∀ max, e.max = some max → e.min ≤ max
  compiles : ∃ r, e.compile = .ok r

/-- A demand for something. -/
def Demand.Valid : Demand → Prop
  | .marker text _ => text ≠ ""
  | .literal text => text ≠ ""
  | .shape pattern _ => ∃ p, Pattern.compile pattern = .ok p

/-- An expectation about one of these artifacts. -/
structure ExpectationEntry.Valid (artifacts : List String) (e : ExpectationEntry) : Prop where
  target : e.artifact ∈ artifacts
  demand : e.demand.Valid

/-- The names of the artifacts of a profile. -/
def Profile.artifactNames (p : Profile) : List String :=
  p.artifacts.map Artifact.name

/-- A profile with nothing wrong in it. -/
structure Profile.Valid (p : Profile) : Prop where
  package : Text.Visible p.package
  artifacts_ne_nil : p.artifacts ≠ []
  rules_ne_nil : p.rules ≠ []
  artifacts : ∀ a ∈ p.artifacts, a.Valid
  names_nodup : p.artifactNames.Nodup
  rules : ∀ e ∈ p.rules, e.Valid p.artifactNames
  ids_nodup : (p.rules.map RuleEntry.id).Nodup
  expectations : ∀ e ∈ p.expectations, e.Valid p.artifactNames

/-! ## §2. Names. -/

theorem Text.isBlankString_eq_false_iff {s : String} :
    Text.isBlankString s = false ↔ Text.Visible s := by
  unfold Text.isBlankString Text.Visible
  simp

@[simp] theorem ProfileIssue.when_eq_nil_iff {condition : Bool} {issue : ProfileIssue} :
    ProfileIssue.when condition issue = [] ↔ condition = false := by
  unfold ProfileIssue.when
  cases condition <;> simp

/-- Names that differ among themselves and from those seen before. -/
def Fresh (seen names : List String) : Prop :=
  names.Nodup ∧ ∀ name ∈ names, name ∉ seen

theorem fresh_nil (seen : List String) : Fresh seen [] :=
  ⟨List.nodup_nil, by simp⟩

theorem fresh_cons_iff {seen names : List String} {name : String} :
    Fresh seen (name :: names) ↔ name ∉ seen ∧ Fresh (name :: seen) names := by
  unfold Fresh
  rw [List.nodup_cons, List.forall_mem_cons]
  constructor
  · intro h
    obtain ⟨⟨hname, hnodup⟩, hseen, hall⟩ := h
    refine ⟨hseen, hnodup, fun other hother hmem => ?_⟩
    rcases List.mem_cons.1 hmem with heq | hmem
    · exact hname (heq ▸ hother)
    · exact hall other hother hmem
  · intro h
    obtain ⟨hseen, hnodup, hall⟩ := h
    refine ⟨⟨fun hmem => hall name hmem List.mem_cons_self, hnodup⟩, hseen, ?_⟩
    intro other hother hmem
    exact hall other hother (List.mem_cons_of_mem name hmem)

namespace NamedThing

theorem nameIssues_eq_nil_iff {thing : NamedThing} {seen : List String} {name : String} :
    thing.nameIssues seen name = [] ↔ Text.Visible name ∧ name ∉ seen := by
  unfold nameIssues
  rw [← Text.isBlankString_eq_false_iff]
  cases Text.isBlankString name <;> simp

/-- A name that is no blank is known from then on. -/
theorem see_eq_cons {seen : List String} {name : String} (h : Text.Visible name) :
    see seen name = name :: seen := by
  unfold see
  rw [Text.isBlankString_eq_false_iff.2 h, if_neg Bool.false_ne_true]

end NamedThing

/-! ## §3. Nothing is found wrong with what is valid, and with nothing else. -/

/-- Each artifact is looked at with the names of those before it. -/
theorem Artifact.issues_eq_nil_iff {seen : List String} {artifacts : List Artifact} :
    Artifact.issues seen artifacts = [] ↔
      (∀ a ∈ artifacts, a.Valid) ∧ Fresh seen (artifacts.map Artifact.name) := by
  induction artifacts generalizing seen with
  | nil => exact iff_of_true rfl ⟨by simp, fresh_nil seen⟩
  | cons a artifacts ih =>
      rw [issues, List.append_eq_nil_iff, List.append_eq_nil_iff,
        NamedThing.nameIssues_eq_nil_iff, ProfileIssue.when_eq_nil_iff,
        Text.isBlankString_eq_false_iff, List.forall_mem_cons, List.map_cons, fresh_cons_iff]
      constructor
      · intro h
        obtain ⟨⟨⟨hname, hseen⟩, hpath⟩, hrest⟩ := h
        rw [NamedThing.see_eq_cons hname] at hrest
        obtain ⟨hall, hfresh⟩ := ih.1 hrest
        exact ⟨⟨⟨hname, hpath⟩, hall⟩, hseen, hfresh⟩
      · intro h
        obtain ⟨⟨ha, hall⟩, hseen, hfresh⟩ := h
        refine ⟨⟨⟨ha.name, hseen⟩, ha.path⟩, ?_⟩
        rw [NamedThing.see_eq_cons ha.name]
        exact ih.2 ⟨hall, hfresh⟩

theorem RuleEntry.compileIssues_eq_nil_iff {e : RuleEntry} :
    e.compileIssues = [] ↔ ∃ r, e.compile = .ok r := by
  unfold compileIssues
  cases e.compile with
  | error reason => simp
  | ok r => simp

/-- Each rule is looked at with the identifiers of those before it. -/
theorem RuleEntry.issues_eq_nil_iff {declared seen : List String} {rules : List RuleEntry} :
    RuleEntry.issues declared seen rules = [] ↔
      (∀ e ∈ rules, e.Valid declared) ∧ Fresh seen (rules.map RuleEntry.id) := by
  induction rules generalizing seen with
  | nil => exact iff_of_true rfl ⟨by simp, fresh_nil seen⟩
  | cons e rules ih =>
      have htarget : (!declared.contains e.artifact) = false ↔ e.artifact ∈ declared := by simp
      rw [issues, List.append_eq_nil_iff, List.append_eq_nil_iff, List.append_eq_nil_iff,
        List.append_eq_nil_iff, NamedThing.nameIssues_eq_nil_iff, ProfileIssue.when_eq_nil_iff,
        htarget, compileIssues_eq_nil_iff, List.forall_mem_cons, List.map_cons, fresh_cons_iff]
      constructor
      · intro h
        obtain ⟨⟨⟨⟨⟨hid, hseen⟩, htarget⟩, hmax⟩, hcompile⟩, hrest⟩ := h
        rw [NamedThing.see_eq_cons hid] at hrest
        obtain ⟨hall, hfresh⟩ := ih.1 hrest
        have hbounds : ∀ max, e.max = some max → e.min ≤ max := by
          intro max heq
          rw [heq] at hmax
          exact Nat.not_lt.1 (of_decide_eq_false (ProfileIssue.when_eq_nil_iff.1 hmax))
        exact ⟨⟨⟨hid, htarget, hbounds, hcompile⟩, hall⟩, hseen, hfresh⟩
      · intro h
        obtain ⟨⟨he, hall⟩, hseen, hfresh⟩ := h
        refine ⟨⟨⟨⟨⟨he.named, hseen⟩, he.target⟩, ?_⟩, he.compiles⟩, ?_⟩
        · cases heq : e.max with
          | none => rfl
          | some max =>
              have hle := he.bounds max heq
              exact ProfileIssue.when_eq_nil_iff.2 (decide_eq_false (Nat.not_lt.2 hle))
        · rw [NamedThing.see_eq_cons he.named]
          exact ih.2 ⟨hall, hfresh⟩

theorem Demand.issues_eq_nil_iff {owner : String} {d : Demand} :
    d.issues owner = [] ↔ d.Valid := by
  unfold issues Valid
  cases d with
  | marker text min => simp
  | literal text => simp
  | shape pattern min =>
      dsimp only
      cases Pattern.compile pattern with
      | error reason => simp
      | ok p => simp

theorem ExpectationEntry.issues_eq_nil_iff {declared : List String} {e : ExpectationEntry} :
    e.issues declared = [] ↔ e.Valid declared := by
  have htarget : (!declared.contains e.artifact) = false ↔ e.artifact ∈ declared := by simp
  rw [issues, List.append_eq_nil_iff, ProfileIssue.when_eq_nil_iff, htarget,
    Demand.issues_eq_nil_iff]
  constructor
  · intro h
    exact ⟨h.1, h.2⟩
  · intro h
    exact ⟨h.target, h.demand⟩

namespace Profile

variable {p : Profile}

/-- Where no artifact is blank, every name is declared. -/
theorem declared_eq (h : ∀ a ∈ p.artifacts, a.Valid) : p.declared = p.artifactNames := by
  refine List.filter_eq_self.2 fun name hname => ?_
  obtain ⟨a, ha, rfl⟩ := List.mem_map.1 hname
  rw [Text.isBlankString_eq_false_iff.2 (h a ha).name]
  rfl

/-- **Nothing is found wrong with a profile iff it is valid.** -/
theorem issues_eq_nil_iff : p.issues = [] ↔ p.Valid := by
  unfold issues
  simp only [List.append_eq_nil_iff, ProfileIssue.when_eq_nil_iff,
    Text.isBlankString_eq_false_iff, List.isEmpty_eq_false_iff, Artifact.issues_eq_nil_iff,
    RuleEntry.issues_eq_nil_iff, List.flatMap_eq_nil_iff, ExpectationEntry.issues_eq_nil_iff]
  constructor
  · intro h
    obtain ⟨⟨⟨⟨⟨hpackage, hartifacts⟩, hrules⟩, hvalid, hnames⟩, hentries, hids⟩, hexpect⟩ := h
    rw [declared_eq hvalid] at hentries hexpect
    exact ⟨hpackage, hartifacts, hrules, hvalid, hnames.1, hentries, hids.1, hexpect⟩
  · intro h
    rw [declared_eq h.artifacts]
    refine ⟨⟨⟨⟨⟨h.package, h.artifacts_ne_nil⟩, h.rules_ne_nil⟩, h.artifacts, ?_⟩, h.rules, ?_⟩,
      h.expectations⟩
    · exact ⟨h.names_nodup, by simp⟩
    · exact ⟨h.ids_nodup, by simp⟩

end Profile

/-! ## §4. Entries handed out to artifacts. -/

/-- Entries that compile, each handed to the artifact that it names: what an artifact
gets is in the order of the entries, and together these artifacts get each entry once. -/
structure HandsOut {ε β : Type} (target : ε → String) (compile : ε → Except RuleError β)
    (handed : String → Except RuleError (List β)) (artifacts : List String) (entries : List ε)
    (compiled : List (ε × β)) : Prop where
  entries_eq : compiled.map Prod.fst = entries
  compile_eq : ∀ c ∈ compiled, compile c.1 = .ok c.2
  handed_eq : ∀ name,
    handed name = .ok ((compiled.filter fun c => target c.1 == name).map Prod.snd)
  once : (artifacts.flatMap fun name => compiled.filter fun c => target c.1 == name).Perm compiled

section

variable {ε β : Type} {compile : ε → Except RuleError β} {artifacts : List String}
  {entries : List ε}

/-- The entries with what they compile to. -/
theorem exists_compiled (h : ∀ e ∈ entries, ∃ b, compile e = .ok b) :
    ∃ compiled : List (ε × β),
      compiled.map Prod.fst = entries ∧ ∀ c ∈ compiled, compile c.1 = .ok c.2 := by
  induction entries with
  | nil => exact ⟨[], rfl, by simp⟩
  | cons e entries ih =>
      obtain ⟨⟨b, hb⟩, hrest⟩ := List.forall_mem_cons.1 h
      obtain ⟨compiled, hentries, hcompiled⟩ := ih hrest
      refine ⟨(e, b) :: compiled, ?_, List.forall_mem_cons.2 ⟨hb, hcompiled⟩⟩
      rw [List.map_cons, hentries]

/-- Some of the entries compile to what belongs to them. -/
theorem mapM_filter_eq {compiled : List (ε × β)} (h : ∀ c ∈ compiled, compile c.1 = .ok c.2)
    (q : ε → Bool) :
    ((compiled.map Prod.fst).filter q).mapM compile
      = .ok ((compiled.filter fun c => q c.1).map Prod.snd) := by
  rw [List.filter_map, Except.mapM_eq_ok_iff, List.forall₂_map_left_iff,
    List.forall₂_map_right_iff]
  refine List.forall₂_same.2 fun c hc => ?_
  exact h c (List.mem_filter.1 hc).1

/-- Grouped by names that differ, the items with one of these names stay, each as
often as it was. -/
theorem flatMap_filter_perm {α : Type} (key : α → String) {names : List String}
    (hnodup : names.Nodup) (items : List α) :
    (names.flatMap fun name => items.filter fun a => key a == name).Perm
      (items.filter fun a => names.contains (key a)) := by
  induction names with
  | nil => simp
  | cons name names ih =>
      obtain ⟨hname, hrest⟩ := List.nodup_cons.1 hnodup
      -- those of the first name, and those of another one
      have hfirst : items.filter (fun a => key a == name)
          = (items.filter fun a => (name :: names).contains (key a)).filter
              fun a => key a == name := by
        rw [List.filter_filter]
        refine List.filter_congr fun a _ => ?_
        by_cases h : key a = name <;> simp [h]
      have hothers : items.filter (fun a => names.contains (key a))
          = (items.filter fun a => (name :: names).contains (key a)).filter
              fun a => !(key a == name) := by
        rw [List.filter_filter]
        refine List.filter_congr fun a _ => ?_
        by_cases h : key a = name <;> simp [h, hname]
      rw [List.flatMap_cons]
      refine ((ih hrest).append_left _).trans ?_
      rw [hfirst, hothers]
      exact List.filter_append_perm _ _

/-- **Entries that compile and name one of the artifacts are handed out.** -/
theorem exists_handsOut (target : ε → String) (hcompile : ∀ e ∈ entries, ∃ b, compile e = .ok b)
    (hnodup : artifacts.Nodup) (htarget : ∀ e ∈ entries, target e ∈ artifacts) :
    ∃ compiled, HandsOut target compile
      (fun name => (entries.filter (target · == name)).mapM compile) artifacts entries
      compiled := by
  obtain ⟨compiled, rfl, hcompiled⟩ := exists_compiled hcompile
  refine ⟨compiled, rfl, hcompiled, fun name => mapM_filter_eq hcompiled (target · == name), ?_⟩
  -- no entry is left over
  have hall : compiled.filter (fun c => artifacts.contains (target c.1)) = compiled := by
    refine List.filter_eq_self.2 fun c hc => ?_
    rw [List.contains_iff_mem]
    exact htarget c.1 (List.mem_map_of_mem hc)
  have hperm := flatMap_filter_perm (fun c : ε × β => target c.1) hnodup compiled
  rw [hall] at hperm
  exact hperm

end

/-! ## §5. Sessions. -/

namespace Session

variable {s : Session} {compiled : List (RuleEntry × Rule)}

/-- Artifacts without rules have none in the sets. -/
theorem flatMap_setsOf (artifacts : List Artifact) :
    (s.setsOf artifacts).flatMap Prod.snd = artifacts.flatMap fun a => s.rulesOf a.name := by
  induction artifacts with
  | nil => rfl
  | cons a artifacts ih =>
      rw [List.flatMap_cons, ← ih]
      by_cases hnil : s.rulesOf a.name = []
      · have hskip : s.setsOf (a :: artifacts) = s.setsOf artifacts := by
          unfold setsOf
          rw [List.map_cons, List.filter_cons_of_neg (by simp [hnil])]
        rw [hskip, hnil, List.nil_append]
      · rw [setsOf_cons hnil, List.flatMap_cons]

/-- **The sets of a session are all of the rules.** -/
theorem exists_ruleSets (h : HandsOut RuleEntry.artifact RuleEntry.compile s.profile.rulesFor
    s.profile.artifactNames s.profile.rules compiled) :
    ∃ sets, s.ruleSets = .ok sets ∧
      (∀ set ∈ sets, s.profile.rulesFor set.1 = .ok set.2 ∧ set.2 ≠ []) ∧
      (sets.flatMap Prod.snd).Perm (compiled.map Prod.snd) := by
  have hrules (name : String) : s.profile.rulesFor name = .ok (s.rulesOf name) := by
    rw [rulesOf_eq (h.handed_eq name)]
    exact h.handed_eq name
  refine ⟨_, ruleSets_eq_ok_iff.2 ⟨fun a _ => hrules a.name, rfl⟩, fun set hset => ?_, ?_⟩
  · obtain ⟨a, -, rfl, hne⟩ := mem_setsOf_iff.1 hset
    exact ⟨hrules a.name, hne⟩
  · have hhanded : s.profile.artifacts.flatMap (fun a => s.rulesOf a.name)
        = (s.profile.artifactNames.flatMap fun name =>
            compiled.filter fun c => c.1.artifact == name).map Prod.snd := by
      unfold Profile.artifactNames
      rw [List.map_flatMap, List.flatMap_map]
      exact List.flatMap_congr fun a _ => rulesOf_eq (h.handed_eq a.name)
    rw [flatMap_setsOf, hhanded]
    exact h.once.map Prod.snd

end Session

/-! ## §6. Main result. -/

namespace Profile

/-- **Validation is exact, and enough for a session.**  A profile has no issue iff it
is valid.  If it has none, the rules and expectations for every name compile; all
artifacts together get each rule and each expectation once, in their order for each
of them; and the rule sets of every session with it are all of its rules. -/
theorem validation_exact (p : Profile) :
    (p.issues = [] ↔ p.Valid) ∧
    (p.issues = [] →
      (∃ compiled, HandsOut RuleEntry.artifact RuleEntry.compile p.rulesFor p.artifactNames
          p.rules compiled ∧
        ∀ s : Session, s.profile = p → ∃ sets, s.ruleSets = .ok sets ∧
          (∀ set ∈ sets, p.rulesFor set.1 = .ok set.2 ∧ set.2 ≠ []) ∧
          (sets.flatMap Prod.snd).Perm (compiled.map Prod.snd)) ∧
      ∃ compiled, HandsOut ExpectationEntry.artifact (·.demand.compile) p.expectationsFor
        p.artifactNames p.expectations compiled) := by
  refine ⟨issues_eq_nil_iff, fun hissues => ?_⟩
  have h := issues_eq_nil_iff.1 hissues
  refine ⟨?_, ?_⟩
  · obtain ⟨compiled, hcompiled⟩ := exists_handsOut RuleEntry.artifact
      (fun e he => (h.rules e he).compiles) h.names_nodup fun e he => (h.rules e he).target
    refine ⟨compiled, hcompiled, fun s hs => ?_⟩
    subst hs
    exact Session.exists_ruleSets hcompiled
  · refine exists_handsOut ExpectationEntry.artifact (fun e he => ?_) h.names_nodup
      fun e he => (h.expectations e he).target
    -- only the pattern of a shape has to compile
    have hdemand := (h.expectations e he).demand
    cases hkind : e.demand with
    | marker text min => exact ⟨_, rfl⟩
    | literal text => exact ⟨_, rfl⟩
    | shape pattern min =>
        rw [hkind] at hdemand
        obtain ⟨shape, hshape⟩ := hdemand
        exact ⟨.shape shape min, by rw [Demand.compile, hshape]; rfl⟩

/-- A profile with a rule for each of its two artifacts. -/
theorem validation_exact_sample :
    (Session.sampleSession "lib.js").profile.Valid ∧
    ∃ sets, (Session.sampleSession "lib.js").ruleSets = .ok sets ∧
      (sets.flatMap Prod.snd).length = 2 := by
  have hissues : (Session.sampleSession "lib.js").profile.issues = [] := by decide +kernel
  obtain ⟨hvalid, hhanded⟩ := validation_exact (Session.sampleSession "lib.js").profile
  obtain ⟨⟨compiled, hcompiled, hsessions⟩, -⟩ := hhanded hissues
  obtain ⟨sets, hsets, -, hperm⟩ := hsessions (Session.sampleSession "lib.js") rfl
  refine ⟨hvalid.1 hissues, sets, hsets, ?_⟩
  have hlength : compiled.length = 2 := by
    rw [← List.length_map (f := Prod.fst), hcompiled.entries_eq]
    rfl
  rw [hperm.length_eq, List.length_map, hlength]

end Profile

/-! ## §7. Bounds. -/

/-- A number is within bounds iff it keeps to both of them. -/
theorem Rule.statusFor_eq_withinBounds_iff {r : Rule} {n : Nat} :
    r.statusFor n = .withinBounds ↔ r.min ≤ n ∧ ∀ max, r.max = some max → n ≤ max := by
  unfold statusFor
  by_cases hlow : n < r.min
  · rw [if_pos hlow]
    exact iff_of_false (fun h => nomatch h) fun h => absurd h.1 (Nat.not_le.2 hlow)
  · rw [if_neg hlow]
    have hmin := Nat.not_lt.1 hlow
    cases r.max with
    | none => simp [hmin]
    | some max => simp [hmin]

/-- Some number is within bounds iff the bounds are in order. -/
theorem Rule.exists_withinBounds_iff {r : Rule} :
    (∃ n, r.statusFor n = .withinBounds) ↔ ∀ max, r.max = some max → r.min ≤ max := by
  simp only [statusFor_eq_withinBounds_iff]
  constructor
  · intro h max hmax
    obtain ⟨n, hmin, hn⟩ := h
    exact Nat.le_trans hmin (hn max hmax)
  · intro h
    exact ⟨r.min, Nat.le_refl _, h⟩

namespace RuleEntry

variable {e : RuleEntry} {r : Rule}

/-- The lower bound of an entry is raised to one, and the upper bound stays. -/
theorem bounds_of_compile (h : e.compile = .ok r) :
    r.min = Nat.max e.min 1 ∧ r.max = e.max := by
  obtain ⟨r', -, hr⟩ := Except.bind_eq_ok_iff.1 h
  obtain rfl := Except.ok.inj hr
  exact ⟨rfl, rfl⟩

/-- The raised bound passes the upper one only where that is zero. -/
theorem Valid.bounds_compile_iff {artifacts : List String} (he : e.Valid artifacts)
    (h : e.compile = .ok r) :
    (∀ max, r.max = some max → r.min ≤ max) ↔ e.max ≠ some 0 := by
  obtain ⟨hmin, hmax⟩ := bounds_of_compile h
  rw [hmin, hmax]
  constructor
  · intro hbounds hzero
    have hle := hbounds 0 hzero
    have hone : 1 ≤ Nat.max e.min 1 := Nat.le_max_right e.min 1
    omega
  · intro hne max heq
    have hlow := he.bounds max heq
    have hpos : max ≠ 0 := fun hzero => hne (by rw [heq, hzero])
    exact Nat.max_le.2 ⟨hlow, Nat.one_le_iff_ne_zero.2 hpos⟩

end RuleEntry

namespace Profile

/-- **A rule of an accepted profile can be satisfied unless its upper bound is zero.**
Validation compares the bounds as they are written, and compiling raises the lower one
to one. -/
theorem satisfiable_iff (p : Profile) (hp : p.issues = []) (e : RuleEntry) (he : e ∈ p.rules) :
    ∃ r, e.compile = .ok r ∧ r.min = Nat.max e.min 1 ∧ r.max = e.max ∧
      ((∀ max, r.max = some max → r.min ≤ max) ↔ e.max ≠ some 0) ∧
      ((∃ n, r.statusFor n = .withinBounds) ↔ e.max ≠ some 0) := by
  have hvalid := (issues_eq_nil_iff.1 hp).rules e he
  obtain ⟨r, hr⟩ := hvalid.compiles
  obtain ⟨hmin, hmax⟩ := RuleEntry.bounds_of_compile hr
  refine ⟨r, hr, hmin, hmax, hvalid.bounds_compile_iff hr, ?_⟩
  rw [Rule.exists_withinBounds_iff]
  exact hvalid.bounds_compile_iff hr

/-- A rule without an upper bound. -/
theorem satisfiable_iff_sample : ∃ r n,
    RuleEntry.compile ⟨"bar", "main", none, "foo", "bar", 1, none⟩ = .ok r ∧
      r.statusFor n = .withinBounds := by
  have hissues : (Session.sampleSession "lib.js").profile.issues = [] := by decide +kernel
  obtain ⟨r, hr, -, -, -, hiff⟩ := satisfiable_iff (Session.sampleSession "lib.js").profile
    hissues ⟨"bar", "main", none, "foo", "bar", 1, none⟩ List.mem_cons_self
  obtain ⟨n, hn⟩ := hiff.2 (by decide)
  exact ⟨r, n, hr, hn⟩

/-- A profile whose only rule asks for no match at least, and for none at most. -/
def sampleNever : Profile :=
  { empty with
    package := "pkg"
    artifacts := [⟨"main", "cli.js"⟩]
    rules := [⟨"never", "main", none, "f($X)", "g($X)", 0, some 0⟩] }

/-- Nothing is found wrong with it, but its rule fails on any number of matches. -/
theorem accepted_but_unsatisfiable :
    sampleNever.issues = [] ∧ ∃ e ∈ sampleNever.rules, ∃ r, e.compile = .ok r ∧
      r.min = 1 ∧ r.max = some 0 ∧ ∀ n, r.statusFor n ≠ .withinBounds := by
  have hissues : sampleNever.issues = [] := by decide +kernel
  have hmem : (⟨"never", "main", none, "f($X)", "g($X)", 0, some 0⟩ : RuleEntry)
      ∈ sampleNever.rules := List.mem_cons_self
  obtain ⟨r, hr⟩ := ((issues_eq_nil_iff.1 hissues).rules _ hmem).compiles
  obtain ⟨hmin, hmax⟩ := RuleEntry.bounds_of_compile hr
  refine ⟨hissues, _, hmem, r, hr, hmin, hmax, fun n hn => ?_⟩
  have hle := Rule.exists_withinBounds_iff.1 ⟨n, hn⟩ 0 hmax
  have hone := r.one_le_min
  omega

end Profile

end ArtifactPatch
