/-
  ArtifactPatch.Proofs.Patch.NoOp
  ───────────────────────────────
  **A RULE IS REFUSED EXACTLY IF IT COULD CHANGE NOTHING.**

  The check compares the segments of both sources.  Spelled out, segments are a word
  over characters and slots (`spell`), and normal segments are told from their word
  (`gather_spell`).  Two words that differ read differently when every slot stands for
  one of two letters, chosen by its name (`exists_map_read_ne`): where the words part,
  a slot can be given a letter other than the one that the other word has there.

      p.segments = t.segments   ↔   equal texts under all bindings   ↔   equal sources

  So for every rule that is accepted there is a text that it changes, which is its
  pattern filled in.  Main result: `noOp_exact`.
-/
import Mathlib.Data.List.Basic
import ArtifactPatch.Proofs.Patch.Reference
import ArtifactPatch.Proofs.Pattern.Occurrence

namespace ArtifactPatch

open Text (byteLen)

/-! ## §1. Words. -/

/-- What stands at one place of a source: a character or a placeholder. -/
inductive Letter where
  | char (c : Char)
  | slot (name : String)
  deriving Repr, DecidableEq

/-- What a letter reads as if every placeholder is one character. -/
def Letter.read (letterOf : String → Char) : Letter → Char
  | .char c => c
  | .slot name => letterOf name

/-- Two letters that differ read differently, for one of two letters in each slot. -/
theorem Letter.exists_read_ne {x y : Letter} (h : x ≠ y) :
    ∃ letterOf : String → Char, (∀ name, letterOf name ∈ ['a', 'b']) ∧
      x.read letterOf ≠ y.read letterOf := by
  -- a letter that is not this character
  have hother (c : Char) : ∃ d ∈ ['a', 'b'], c ≠ d := by
    by_cases hc : c = 'a'
    · exact ⟨'b', by simp, by rw [hc]; decide⟩
    · exact ⟨'a', by simp, hc⟩
  cases x with
  | char c =>
      cases y with
      | char d => exact ⟨fun _ => 'a', by simp, fun heq => h (congrArg char heq)⟩
      | slot name =>
          obtain ⟨d, hd, hne⟩ := hother c
          exact ⟨fun _ => d, fun _ => hd, hne⟩
  | slot name =>
      cases y with
      | char c =>
          obtain ⟨d, hd, hne⟩ := hother c
          exact ⟨fun _ => d, fun _ => hd, hne.symm⟩
      | slot other =>
          have hname : other ≠ name := fun heq => h (congrArg slot heq.symm)
          refine ⟨fun n => if n = name then 'a' else 'b', fun n => ?_, ?_⟩
          · by_cases hn : n = name <;> simp [hn]
          · show (if name = name then 'a' else 'b') ≠ (if other = name then 'a' else 'b')
            rw [if_pos rfl, if_neg hname]
            decide

/-- **Two words that differ read differently**, for one of two letters in each slot. -/
theorem exists_map_read_ne {w w' : List Letter} (h : w ≠ w') :
    ∃ letterOf : String → Char, (∀ name, letterOf name ∈ ['a', 'b']) ∧
      w.map (Letter.read letterOf) ≠ w'.map (Letter.read letterOf) := by
  induction w generalizing w' with
  | nil =>
      refine ⟨fun _ => 'a', by simp, fun heq => h ?_⟩
      exact (List.map_eq_nil_iff.1 heq.symm).symm
  | cons x w ih =>
      cases w' with
      | nil => exact ⟨fun _ => 'a', by simp, by simp⟩
      | cons y w' =>
          by_cases hxy : x = y
          · -- the words part further on
            have htail : w ≠ w' := fun heq => h (by rw [hxy, heq])
            obtain ⟨letterOf, hletters, hne⟩ := ih htail
            exact ⟨letterOf, hletters, fun heq => hne (List.cons.inj heq).2⟩
          · obtain ⟨letterOf, hletters, hne⟩ := Letter.exists_read_ne hxy
            exact ⟨letterOf, hletters, fun heq => hne (List.cons.inj heq).1⟩

namespace Segment

/-- Segments spelled out. -/
def spell : List Segment → List Letter
  | [] => []
  | .literal text :: segments => text.map .char ++ spell segments
  | .placeholder name :: segments => .slot name :: spell segments

/-- The segments of a word, its characters gathered into literals. -/
def gather : List Letter → List Segment
  | [] => []
  | .char c :: w => consChar c (gather w)
  | .slot name :: w => .placeholder name :: gather w

theorem gather_literal (text : Text) (w : List Letter) :
    gather (text.map .char ++ w) = text.foldr consChar (gather w) := by
  induction text with
  | nil => rfl
  | cons c text ih =>
      show consChar c (gather (text.map .char ++ w)) = consChar c (text.foldr consChar (gather w))
      rw [ih]

/-- **Normal segments are told from their word.** -/
theorem gather_spell {segments : List Segment} (h : Normal segments) :
    gather (spell segments) = segments := by
  induction segments with
  | nil => rfl
  | cons s segments ih =>
      obtain ⟨hs, hhead, hrest⟩ := normal_cons_iff.1 h
      cases s with
      | literal text =>
          show gather (text.map .char ++ spell segments) = _
          rw [gather_literal, ih hrest]
          refine foldr_consChar hs fun lit others heq => ?_
          exact hhead (.literal lit) (by rw [heq]; rfl)
      | placeholder name =>
          show Segment.placeholder name :: gather (spell segments) = _
          rw [ih hrest]

/-- Segments filled in with tokens of one letter read as their word does. -/
theorem flatMap_fill_eq_map_read {segments : List Segment} {captures : Captures}
    {letterOf : String → Char}
    (h : ∀ name, .placeholder name ∈ segments → captures.lookup name = some [letterOf name]) :
    segments.flatMap (fill captures) = (spell segments).map (Letter.read letterOf) := by
  induction segments with
  | nil => rfl
  | cons s segments ih =>
      rw [List.flatMap_cons, ih fun name hname => h name (List.mem_cons_of_mem s hname)]
      cases s with
      | literal text =>
          show text ++ _ = (text.map Letter.char ++ spell segments).map (Letter.read letterOf)
          have htext : (text.map Letter.char).map (Letter.read letterOf) = text := by
            rw [List.map_map]
            exact List.map_id text
          rw [List.map_append, htext]
      | placeholder name =>
          rw [fill_placeholder (h name List.mem_cons_self)]
          rfl

/-! ## §2. Bindings. -/

/-- The placeholders of some segments, each bound to a token of one letter. -/
def bindings (letterOf : String → Char) (segments : List Segment) : Captures :=
  (placeholders segments).map fun name => (name, [letterOf name])

theorem lookup_bindings (letterOf : String → Char) {segments : List Segment} {name : String}
    (h : .placeholder name ∈ segments) :
    (bindings letterOf segments).lookup name = some [letterOf name] :=
  List.lookup_graph (fun name => [letterOf name]) (mem_placeholders.2 h)

variable {letterOf : String → Char}

theorem isToken_letter (hletters : ∀ name, letterOf name ∈ ['a', 'b']) (name : String) :
    IsToken [letterOf name] := by
  have hstart : isIdentStart (letterOf name) = true := by
    have hmem := hletters name
    simp only [List.mem_cons, List.not_mem_nil, or_false] at hmem
    rcases hmem with ha | hb
    · rw [ha]
      decide
    · rw [hb]
      decide
  exact ⟨hstart, by simp⟩

/-- Nothing but tokens is bound. -/
theorem allTokens_bindings (hletters : ∀ name, letterOf name ∈ ['a', 'b'])
    (segments : List Segment) : (bindings letterOf segments).AllTokens := by
  intro name tok h
  obtain ⟨entries, others, hsplit, -⟩ := List.lookup_eq_some_iff.1 h
  have hmem : (name, tok) ∈ bindings letterOf segments := by simp [hsplit]
  obtain ⟨other, -, heq⟩ := List.mem_map.1 hmem
  obtain ⟨-, rfl⟩ := Prod.mk.inj heq
  exact isToken_letter hletters other

theorem binds_bindings (hletters : ∀ name, letterOf name ∈ ['a', 'b']) (segments : List Segment) :
    (bindings letterOf segments).Binds segments :=
  fun name h => ⟨_, lookup_bindings letterOf h, isToken_letter hletters name⟩

/-- **Normal segments that differ are told apart by a binding**, if it binds what both
have. -/
theorem exists_fill_ne {segments segments' : List Segment} (hnormal : Normal segments)
    (hnormal' : Normal segments') (hsame : placeholders segments = placeholders segments')
    (hne : segments ≠ segments') :
    ∃ captures : Captures, captures.AllTokens ∧ captures.Binds segments ∧
      segments.flatMap (fill captures) ≠ segments'.flatMap (fill captures) := by
  have hwords : spell segments ≠ spell segments' := by
    intro heq
    refine hne ?_
    rw [← gather_spell hnormal, heq, gather_spell hnormal']
  obtain ⟨letterOf, hletters, hread⟩ := exists_map_read_ne hwords
  refine ⟨bindings letterOf segments, allTokens_bindings hletters segments,
    binds_bindings hletters segments, ?_⟩
  have hbound' : ∀ name, .placeholder name ∈ segments' →
      (bindings letterOf segments).lookup name = some [letterOf name] :=
    fun name hname => lookup_bindings letterOf ((placeholder_mem_iff hsame).2 hname)
  rw [flatMap_fill_eq_map_read fun name hname => lookup_bindings letterOf hname,
    flatMap_fill_eq_map_read hbound']
  exact hread

end Segment

/-! ## §3. Sources. -/

/-- A compiled template has the segments that its source reads as. -/
theorem Template.parse_of_compile {source : String} {t : Template} (h : compile source = .ok t) :
    Segment.parse source = .ok t.segments := by
  obtain ⟨segments, hparse, rfl⟩ := Except.exists_of_map_eq_ok h
  exact hparse

/-- A source is written back from what it is read as. -/
theorem Template.source_of_compile {source : String} {t : Template} (h : compile source = .ok t) :
    t.source = source :=
  Segment.source_eq_of_parse (parse_of_compile h)

theorem Pattern.source_of_compile {source : String} {p : Pattern} (h : compile source = .ok p) :
    p.source = source :=
  Segment.source_eq_of_parse (Segment.parse_eq_ok_iff.2 (parse?_of_compile h))

theorem Template.normal_of_compile {source : String} {t : Template} (h : compile source = .ok t) :
    Segment.Normal t.segments :=
  (Segment.normal_and_render_of_parse? (Segment.parse_eq_ok_iff.1 (parse_of_compile h))).1

namespace Rule

variable {id patternSource templateSource : String} {p : Pattern} {t : Template}

/-- The check compares segments. -/
theorem compile_eq_noOp_iff (hp : Pattern.compile patternSource = .ok p)
    (ht : Template.compile templateSource = .ok t) (hsame : p.placeholders = t.placeholders) :
    compile id patternSource templateSource = .error (.noOp id) ↔ p.segments = t.segments := by
  unfold compile
  rw [hp, ht]
  dsimp only [bind, Except.bind]
  rw [dif_pos hsame]
  split
  next hs => exact iff_of_true rfl hs
  next hs => exact iff_of_false (fun h => nomatch h) hs

/-- What a rule is compiled from. -/
theorem compile_eq_ok {r : Rule} (h : compile id patternSource templateSource = .ok r) :
    Pattern.compile patternSource = .ok r.pattern ∧
      Template.compile templateSource = .ok r.template := by
  obtain ⟨p, hp, h⟩ := Except.bind_eq_ok_iff.1 h
  obtain ⟨t, ht, h⟩ := Except.bind_eq_ok_iff.1 h
  dsimp only at h
  split at h
  next =>
    split at h
    next => cases h
    next =>
      obtain rfl := Except.ok.inj h
      exact ⟨hp, ht⟩
  next => cases h

/-- **The same segments are the same texts.** -/
theorem segments_eq_iff_fill (hp : Segment.Normal p.segments) (ht : Segment.Normal t.segments)
    (hsame : p.placeholders = t.placeholders) :
    p.segments = t.segments ↔
      ∀ captures : Captures, captures.Binds p.segments → p.fill captures = t.fill captures := by
  constructor
  · intro heq captures _
    unfold Pattern.fill Template.fill
    rw [heq]
  · intro h
    refine Decidable.byContradiction fun hne => ?_
    obtain ⟨captures, -, hbinds, hfill⟩ := Segment.exists_fill_ne hp ht hsame hne
    exact hfill (h captures hbinds)

/-- The same segments are the same sources. -/
theorem segments_eq_iff_source (hp : Pattern.compile patternSource = .ok p)
    (ht : Template.compile templateSource = .ok t) :
    p.segments = t.segments ↔ patternSource = templateSource := by
  constructor
  · intro heq
    rw [← Pattern.source_of_compile hp, ← Template.source_of_compile ht]
    unfold Pattern.source Template.source
    rw [heq]
  · intro heq
    subst heq
    have hparse := Segment.parse_eq_ok_iff.2 (Pattern.parse?_of_compile hp)
    rw [Template.parse_of_compile ht] at hparse
    exact (Except.ok.inj hparse).symm

/-- A binding leaves no placeholder of either unbound, so both are rendered. -/
theorem render_alike_iff {captures : Captures} (hsame : p.placeholders = t.placeholders)
    (hbinds : captures.Binds p.segments) :
    (∃ text, (Template.mk p.segments).render captures = .ok text ∧
      t.render captures = .ok text) ↔ p.fill captures = t.fill captures := by
  have hbound (name : String) (hname : .placeholder name ∈ p.segments) :
      (captures.lookup name).isSome := by
    obtain ⟨tok, htok, -⟩ := hbinds name hname
    rw [htok]
    rfl
  have hpattern : (Template.mk p.segments).render captures = .ok (p.fill captures) :=
    Template.render_eq_fill hbound
  have htemplate : t.render captures = .ok (t.fill captures) :=
    Template.render_eq_fill fun name hname =>
      hbound name ((Segment.placeholder_mem_iff hsame).2 hname)
  rw [hpattern, htemplate]
  constructor
  · intro h
    obtain ⟨text, hleft, hright⟩ := h
    rw [Except.ok.inj hleft, Except.ok.inj hright]
  · intro heq
    exact ⟨_, rfl, congrArg Except.ok heq.symm⟩

/-! ## §4. A text that a rule changes. -/

/-- A filled pattern is matched as a whole. -/
theorem exists_matches_fill {captures : Captures} (hsolid : p.Solid)
    (htokens : captures.AllTokens) (hbinds : captures.Binds p.segments) :
    ∃ captures', p.matches (p.fill captures)
        = [⟨0, byteLen (p.fill captures), p.fill captures, captures'⟩] ∧
      ∀ name, .placeholder name ∈ p.segments →
        captures'.lookup name = captures.lookup name := by
  have hmatch : p.IsMatch captures (p.fill captures) := ⟨htokens, hbinds, rfl⟩
  have hseam : Seam (p.fill captures) [] := fun _ => rfl
  have hclear : (p.beginsWithIdent && (none : Option Char).any isIdentChar) = false :=
    Bool.and_false _
  obtain ⟨captures', hfront, hextends⟩ :=
    Pattern.matchFront?_complete hsolid hmatch hclear hseam
  refine ⟨captures', ?_, fun name hname => ?_⟩
  · have hscan := Pattern.scan_hit (hmatch.ne_nil hsolid) hfront 0
    rw [List.append_nil, Nat.zero_add] at hscan
    exact hscan
  · -- a match binds every placeholder, and as it was filled in
    obtain ⟨tok, hbound, -⟩ := (Pattern.isMatch_of_matchFront?_append hfront).binds name hname
    rw [hbound, hextends name tok hbound]

/-- Such a text becomes the filled template. -/
theorem applyAll_fill (r : Rule) {captures : Captures} (hsolid : r.pattern.Solid)
    (htokens : captures.AllTokens) (hbinds : captures.Binds r.pattern.segments) :
    Edit.applyAll (r.pattern.fill captures)
        (((r.pattern.matches (r.pattern.fill captures)).map r.replacementOf).map
          Replacement.toEdit)
      = .ok (r.template.fill captures) := by
  obtain ⟨captures', hmatches, hsame⟩ := exists_matches_fill hsolid htokens hbinds
  have hfilled : r.template.fill captures' = r.template.fill captures :=
    Segment.flatMap_fill_congr fun name hname => hsame name (mem_pattern_of_mem_template hname)
  -- neither gap has a character
  have hfront : Text.slice? 0 0 (r.pattern.fill captures) = some [] :=
    Text.slice?_append [] [] (r.pattern.fill captures)
  have hback : Text.slice? (byteLen (r.pattern.fill captures))
      (byteLen (r.pattern.fill captures)) (r.pattern.fill captures) = some [] := by
    have h := Text.slice?_append (r.pattern.fill captures) [] []
    rw [List.append_nil, List.append_nil] at h
    exact h
  rw [applyAll_replacements, hmatches]
  simp only [gaps, hfront, hback, List.map_cons, List.map_nil]
  show Except.ok ([] ++ r.template.fill captures' ++ ([] ++ [])) = _
  rw [hfilled, List.append_nil, List.append_nil, List.nil_append]

/-! ## §5. Main result. -/

/-- **The check for rules without effect is exact.**  For sources that compile and have
the same placeholders, a rule is refused for having no effect iff pattern and template
render to the same text under every binding of the placeholders to tokens, and iff the
sources are equal.  So every rule that is accepted changes some text. -/
theorem noOp_exact (id patternSource templateSource : String) :
    (∀ p t, Pattern.compile patternSource = .ok p → Template.compile templateSource = .ok t →
      p.placeholders = t.placeholders →
      (compile id patternSource templateSource = .error (.noOp id) ↔
        ∀ captures : Captures, captures.Binds p.segments → ∃ text,
          (Template.mk p.segments).render captures = .ok text ∧ t.render captures = .ok text) ∧
      (compile id patternSource templateSource = .error (.noOp id) ↔
        patternSource = templateSource)) ∧
    ∀ r, compile id patternSource templateSource = .ok r →
      ∃ content replacements text, r.replaceAll content = .ok replacements ∧
        Edit.applyAll content (replacements.map Replacement.toEdit) = .ok text ∧
        text ≠ content := by
  refine ⟨fun p t hp ht hsame => ⟨?_, ?_⟩, fun r hr => ?_⟩
  · rw [compile_eq_noOp_iff hp ht hsame, segments_eq_iff_fill (Pattern.normal_of_compile hp)
      (Template.normal_of_compile ht) hsame]
    exact forall₂_congr fun captures hbinds => (render_alike_iff hsame hbinds).symm
  · rw [compile_eq_noOp_iff hp ht hsame]
    exact segments_eq_iff_source hp ht
  · obtain ⟨hp, ht⟩ := compile_eq_ok hr
    obtain ⟨captures, htokens, hbinds, hne⟩ := Segment.exists_fill_ne
      (Pattern.normal_of_compile hp) (Template.normal_of_compile ht) r.same_placeholders r.not_noOp
    exact ⟨r.pattern.fill captures, _, r.template.fill captures, r.replaceAll_eq_ok _,
      applyAll_fill r (Pattern.solid_of_compile hp) htokens hbinds, Ne.symm hne⟩

/-- An access that stays as it is, and a pair that is exchanged. -/
theorem noOp_exact_sample :
    compile "same" "at($I)" "at($I)" = .error (.noOp "same") ∧
    ∃ r content replacements text, compile "exchange" "$A,$B" "$B,$A" = .ok r ∧
      r.replaceAll content = .ok replacements ∧
      Edit.applyAll content (replacements.map Replacement.toEdit) = .ok text ∧
      text ≠ content := by
  have hparse : Segment.parse "at($I)" = .ok Pattern.sampleAccess.segments := by
    rw [Segment.parse_eq_ok_iff, Segment.parse?_eq_ok_iff]
    decide +kernel
  have hpattern : Pattern.compile "at($I)" = .ok Pattern.sampleAccess := by
    unfold Pattern.compile
    rw [hparse]
    rfl
  have htemplate : Template.compile "at($I)" = .ok ⟨Pattern.sampleAccess.segments⟩ := by
    unfold Template.compile
    rw [hparse]
    rfl
  have hexchange : (compile "exchange" "$A,$B" "$B,$A").toOption.isSome = true := by decide +kernel
  refine ⟨?_, ?_⟩
  · exact ((noOp_exact "same" "at($I)" "at($I)").1 _ _ hpattern htemplate rfl).2.2 rfl
  · cases hr : compile "exchange" "$A,$B" "$B,$A" with
    | error e =>
        rw [hr] at hexchange
        cases hexchange
    | ok r =>
        obtain ⟨content, replacements, text, hreplace, happly, hne⟩ :=
          (noOp_exact "exchange" "$A,$B" "$B,$A").2 r hr
        exact ⟨r, content, replacements, text, rfl, hreplace, happly, hne⟩

end Rule

end ArtifactPatch
