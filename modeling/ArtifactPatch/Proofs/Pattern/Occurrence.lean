/-
  ArtifactPatch.Proofs.Pattern.Occurrence
  ───────────────────────────────────────
  **THE SCAN FINDS EXACTLY THE OCCURRENCES.**

  An occurrence of a pattern is said without the matcher: a slice of the text
  is the pattern filled in with tokens, and neither end stands between two
  identifier bytes (`Pattern.Occurs`).  It is what the matcher finds at its
  start (`occurs_iff`), so there is one at most.  The scan lists occurrences
  (`mem_scan`), and passes none but those that begin within a listed one
  (`scan_complete`).  Main result: `matches_eq_occurrences`.
-/
import ArtifactPatch.Proofs.Pattern.Cursor
import ArtifactPatch.Proofs.Pattern.Notation

namespace ArtifactPatch

open Text (byteLen lastFrom)

/-! ## §1. Segments of compiled patterns. -/

namespace Pattern

/-- A compiled pattern has the segments that its source reads as. -/
theorem parse?_of_compile {source : String} {p : Pattern} (h : compile source = .ok p) :
    Segment.parse? 0 source.toList = .ok p.segments := by
  unfold compile Segment.parse at h
  cases hparse : Segment.parse? 0 source.toList with
  | error position =>
      rw [hparse] at h
      cases h
  | ok segments =>
      rw [hparse] at h
      have hof : ofSegments segments = .ok p := h
      unfold ofSegments at hof
      split at hof
      next => cases hof
      next =>
        split at hof
        next => cases hof
        next =>
          obtain rfl := Except.ok.inj hof
          rfl

theorem normal_of_compile {source : String} {p : Pattern} (h : compile source = .ok p) :
    Segment.Normal p.segments :=
  (Segment.normal_and_render_of_parse? (parse?_of_compile h)).1

/-- Every literal of a compiled pattern has a character. -/
theorem solid_of_compile {source : String} {p : Pattern} (h : compile source = .ok p) :
    p.Solid :=
  (normal_of_compile h).solid

variable {p : Pattern} {content : Text} {start stop : Nat} {captures captures' : Captures}

/-! ## §2. Occurrences. -/

/-- A pattern stands at `[start, stop)` of a text, its placeholders and nothing
else bound to tokens; no identifier goes on across its ends. -/
structure Occurs (p : Pattern) (content : Text) (start stop : Nat) (captures : Captures) :
    Prop where
  binds : captures.Binds p.segments
  only : ∀ name, (captures.lookup name).isSome → .placeholder name ∈ p.segments
  filled : Text.slice? start stop content = some (p.fill captures)
  start_clear : ¬content.SplitsIdent start
  stop_clear : ¬content.SplitsIdent stop

/-- Filling depends on what is bound. -/
theorem fill_congr (h : ∀ name, captures.lookup name = captures'.lookup name) :
    p.fill captures = p.fill captures' :=
  Segment.flatMap_fill_congr fun name _ => h name

/-- An occurrence is filled in with tokens. -/
theorem Occurs.isMatch (h : p.Occurs content start stop captures) :
    p.IsMatch captures (p.fill captures) := by
  refine ⟨fun name tok hbound => ?_, h.binds, rfl⟩
  obtain ⟨tok', hbound', htok⟩ := h.binds name (h.only name (by rw [hbound]; rfl))
  rw [hbound] at hbound'
  obtain rfl := Option.some.inj hbound'
  exact htok

/-- **What occurs is matched at its start.** -/
theorem Occurs.exists_match (hsolid : p.Solid) (h : p.Occurs content start stop captures) :
    ∃ a b captures', content = a ++ p.fill captures ++ b ∧ byteLen a = start ∧
      start + byteLen (p.fill captures) = stop ∧
      p.matchFront? (lastFrom none a) (p.fill captures ++ b)
        = some (captures', (p.fill captures).length) ∧
      ∀ name, captures.lookup name = captures'.lookup name := by
  obtain ⟨a, b, rfl, rfl, rfl⟩ := Text.slice?_eq_some_iff.1 h.filled
  have hmatch := h.isMatch
  have hne := hmatch.ne_nil hsolid
  have hlast : lastFrom none a = a.getLast? := Option.or_none
  have hfirst : (p.beginsWithIdent && (lastFrom none a).any isIdentChar) = false := by
    rw [← beginsWithIdentChar_of_isMatch hmatch hsolid, hlast]
    refine Bool.eq_false_iff.2 fun hboth => h.start_clear ?_
    rw [List.append_assoc, Text.splitsIdent_append_iff, beginsWithIdentChar_append hne]
    exact (Bool.and_eq_true_iff.1 hboth).symm
  have hseam : Seam (p.fill captures) b := by
    intro hends
    refine Bool.eq_false_iff.2 fun hbegins => h.stop_clear ?_
    rw [← Text.byteLen_append, Text.splitsIdent_append_iff, endsWithIdentChar_append a hne]
    exact ⟨hends, hbegins⟩
  obtain ⟨captures', hfound, hextends⟩ := matchFront?_complete hsolid hmatch hfirst hseam
  refine ⟨a, b, captures', rfl, rfl, rfl, hfound, fun name => ?_⟩
  obtain ⟨-, hread, -⟩ := matchFront?_append_iff.1 hfound
  cases hbound : captures'.lookup name with
  | some tok => exact hextends name tok hbound
  | none =>
      -- what the pattern binds, the match binds
      refine Option.not_isSome_iff_eq_none.1 fun hsome => ?_
      have := isSome_lookup_of_readSegments hread name (.inr (h.only name hsome))
      rw [hbound] at this
      cases this

/-- **What is matched occurs.** -/
theorem occurs_of_match {a u b : Text} (hsolid : p.Solid)
    (h : p.matchFront? (lastFrom none a) (u ++ b) = some (captures, u.length)) :
    p.Occurs (a ++ u ++ b) (byteLen a) (byteLen a + byteLen u) captures := by
  have hmatch := isMatch_of_matchFront?_append h
  have hne := hmatch.ne_nil hsolid
  have hseam := seam_of_matchFront? hsolid h
  have hlast : lastFrom none a = a.getLast? := Option.or_none
  obtain ⟨hfirst, hread, -⟩ := matchFront?_append_iff.1 h
  refine ⟨hmatch.binds, fun name hname => ?_, ?_, ?_, ?_⟩
  · exact (isSome_or_mem_of_readSegments hread hname).resolve_left fun hsome => by cases hsome
  · rw [Text.slice?_append, hmatch.eq_fill]
  · rw [List.append_assoc, Text.splitsIdent_append_iff, beginsWithIdentChar_append hne,
      beginsWithIdentChar_of_isMatch hmatch hsolid]
    rintro ⟨hends, hbegins⟩
    rw [hbegins, Bool.true_and, hlast] at hfirst
    exact Bool.eq_false_iff.1 hfirst hends
  · rw [← Text.byteLen_append, Text.splitsIdent_append_iff, endsWithIdentChar_append a hne]
    rintro ⟨hends, hbegins⟩
    rw [hseam hends] at hbegins
    cases hbegins

/-- **At each start there is one occurrence at most.** -/
theorem Occurs.unique {stop' : Nat} (hsolid : p.Solid) (h : p.Occurs content start stop captures)
    (h' : p.Occurs content start stop' captures') :
    stop = stop' ∧ ∀ name, captures.lookup name = captures'.lookup name := by
  obtain ⟨a, b, found, hcontent, ha, hstop, hfound, hsame⟩ := h.exists_match hsolid
  obtain ⟨a', b', found', hcontent', ha', hstop', hfound', hsame'⟩ := h'.exists_match hsolid
  have hcut := Text.cutAt_append a (p.fill captures ++ b)
  rw [← List.append_assoc, ← hcontent, ha, ← ha', hcontent', List.append_assoc,
    Text.cutAt_append] at hcut
  obtain ⟨rfl, hrest⟩ := Prod.mk.inj (Option.some.inj hcut)
  -- so the same match was found
  rw [hrest, hfound] at hfound'
  obtain ⟨rfl, -⟩ := Prod.mk.inj (Option.some.inj hfound')
  have hall : ∀ name, captures.lookup name = captures'.lookup name :=
    fun name => (hsame name).trans (hsame' name).symm
  refine ⟨?_, hall⟩
  rw [← hstop, ← hstop', fill_congr hall]

/-! ## §3. The scan. -/

/-- **What the scan lists is matched where it is said to be.** -/
theorem mem_scan (hsolid : p.Solid) (pre t : Text) :
    ∀ m ∈ p.scan (lastFrom none pre) (byteLen pre) 0 t, ∃ a b, pre ++ t = a ++ m.text ++ b ∧
      byteLen a = m.start ∧ m.start + byteLen m.text = m.stop ∧ m.text ≠ [] ∧
      p.matchFront? (lastFrom none a) (m.text ++ b) = some (m.captures, m.text.length) := by
  generalize hbefore : lastFrom none pre = before
  induction before, t using scan_induction hsolid generalizing pre with
  | nil before =>
      intro m hm
      rw [scan] at hm
      cases hm
  | miss before c t hmatch ih =>
      have hpre : byteLen (pre ++ [c]) = byteLen pre + c.utf8Size := Text.byteLen_append pre [c]
      rw [scan_miss hmatch, ← hpre]
      have h := ih (pre ++ [c]) (Text.lastFrom_append none pre [c])
      rw [List.append_assoc] at h
      exact h
  | hit before u rest captures hne hmatch ih =>
      rw [scan_hit hne hmatch, ← Text.byteLen_append]
      have h := ih (pre ++ u) (by rw [Text.lastFrom_append, hbefore])
      rw [List.append_assoc] at h
      refine List.forall_mem_cons.2 ⟨?_, h⟩
      subst hbefore
      exact ⟨pre, rest, (List.append_assoc ..).symm, rfl, (Text.byteLen_append pre u).symm, hne, hmatch⟩

/-- A place in a text is within its first part, or behind it. -/
theorem begins_within_or_behind {gap t u rest : Text} (h : gap ++ t = u ++ rest) :
    (∃ w, w ≠ [] ∧ u = gap ++ w ∧ t = w ++ rest) ∨ ∃ w, gap = u ++ w ∧ rest = w ++ t := by
  rcases List.append_eq_append_iff.1 h with ⟨w, hu, ht⟩ | ⟨w, hgap, hrest⟩
  · by_cases hw : w = []
    · subst hw
      exact .inr ⟨[], by rw [hu, List.append_nil, List.append_nil], ht.symm⟩
    · exact .inl ⟨w, hw, hu, ht⟩
  · exact .inr ⟨w, hgap, hrest⟩

/-- **What is matched is listed**, or begins within a match that is listed. -/
theorem scan_complete {n : Nat} (hsolid : p.Solid) (pre gap t : Text)
    (hmatch : p.matchFront? (lastFrom none (pre ++ gap)) t = some (captures, n)) :
    ∃ m ∈ p.scan (lastFrom none pre) (byteLen pre) 0 (gap ++ t),
      m.start = byteLen (pre ++ gap) ∧ m.captures = captures ∨
        m.start < byteLen (pre ++ gap) ∧ byteLen (pre ++ gap) < m.stop := by
  generalize hbefore : lastFrom none pre = before
  generalize hwhole : gap ++ t = whole
  induction before, whole using scan_induction hsolid generalizing pre gap with
  | nil before =>
      obtain ⟨rfl, rfl⟩ := List.append_eq_nil_iff.1 hwhole
      obtain ⟨u, rest, hsplit, -, hfound⟩ := isMatch_of_matchFront? hmatch
      exact absurd (List.append_eq_nil_iff.1 hsplit.symm).1 (hfound.ne_nil hsolid)
  | miss before c whole hmiss ih =>
      have hpre : byteLen (pre ++ [c]) = byteLen pre + c.utf8Size := Text.byteLen_append pre [c]
      cases gap with
      | nil =>
          rw [List.append_nil, hbefore, show t = c :: whole from hwhole, hmiss] at hmatch
          cases hmatch
      | cons d gap =>
          obtain ⟨rfl, htail⟩ := List.cons.inj hwhole
          rw [scan_miss hmiss, ← hpre]
          have h := ih (pre ++ [d]) gap (by rw [List.append_assoc]; exact hmatch)
            (Text.lastFrom_append none pre [d]) htail
          rw [List.append_assoc] at h
          exact h
  | hit before u rest found hne hhit ih =>
      rw [scan_hit hne hhit, ← Text.byteLen_append]
      rcases begins_within_or_behind hwhole with ⟨w, hw, rfl, rfl⟩ | ⟨w, rfl, rfl⟩
      · -- the match begins where the listed one does, or within it
        refine ⟨_, List.mem_cons_self, ?_⟩
        by_cases hgap : gap = []
        · subst hgap
          rw [List.append_nil, hbefore] at hmatch
          rw [List.nil_append, hmatch] at hhit
          exact .inl ⟨by rw [List.append_nil], (Prod.mk.inj (Option.some.inj hhit)).1.symm⟩
        · refine .inr ?_
          have hpos : byteLen gap ≠ 0 := fun hzero => hgap (Text.eq_nil_of_byteLen_eq_zero hzero)
          have hpos' : byteLen w ≠ 0 := fun hzero => hw (Text.eq_nil_of_byteLen_eq_zero hzero)
          rw [← List.append_assoc, Text.byteLen_append (pre ++ gap), Text.byteLen_append pre]
          dsimp only
          omega
      · have h := ih (pre ++ u) w (by rw [List.append_assoc]; exact hmatch)
          (by rw [Text.lastFrom_append, hbefore]) rfl
        rw [List.append_assoc] at h
        obtain ⟨m, hm, hwhere⟩ := h
        exact ⟨m, List.mem_cons_of_mem _ hm, hwhere⟩

/-! ## §4. Occurrences and matches. -/

/-- What is listed occurs. -/
theorem occurs_of_mem_matches (hsolid : p.Solid) {m : Match} (hm : m ∈ p.matches content) :
    p.Occurs content m.start m.stop m.captures ∧
      Text.slice? m.start m.stop content = some m.text ∧ m.start < m.stop := by
  obtain ⟨a, b, hcontent, hstart, hstop, hne, hmatch⟩ := mem_scan hsolid [] content m hm
  have hlen : byteLen m.text ≠ 0 := fun hzero => hne (Text.eq_nil_of_byteLen_eq_zero hzero)
  rw [← hstop, ← hstart, show content = a ++ m.text ++ b from hcontent]
  exact ⟨occurs_of_match hsolid hmatch, Text.slice?_append a m.text b, by omega⟩

/-- What occurs is listed, or begins within a match that is listed. -/
theorem Occurs.listed (hsolid : p.Solid) (h : p.Occurs content start stop captures) :
    ∃ m ∈ p.matches content,
      m.start = start ∧ m.stop = stop ∧
          (∀ name, m.captures.lookup name = captures.lookup name) ∨
        m.start < start ∧ start < m.stop := by
  obtain ⟨a, b, found, hcontent, rfl, -, hmatch, -⟩ := h.exists_match hsolid
  obtain ⟨m, hm, hwhere⟩ := scan_complete hsolid [] a _ hmatch
  rw [← List.append_assoc, ← hcontent] at hm
  refine ⟨m, hm, hwhere.imp_left fun hhere => ?_⟩
  obtain ⟨hstart, -⟩ := hhere
  rw [List.nil_append] at hstart
  have hlisted := (occurs_of_mem_matches hsolid hm).1
  rw [hstart] at hlisted
  exact ⟨hstart, hlisted.unique hsolid h⟩

/-- **The matches of a pattern are its occurrences, leftmost first.**  For every
source that compiles and every text: at each start there is one occurrence at
most.  What is listed occurs, between cuts of the text, and has the text there;
the starts increase, and no match begins before the one in front of it ends.  What
occurs and is not listed begins within a match that is listed and begins before
it.  And the walk over byte positions lists the same matches: it ends within a
round for every byte and one more, and makes no slice off a boundary. -/
theorem matches_eq_occurrences {source : String} (hp : compile source = .ok p) (content : Text) :
    (∀ start stop stop' captures captures', p.Occurs content start stop captures →
      p.Occurs content start stop' captures' →
        stop = stop' ∧ ∀ name, captures.lookup name = captures'.lookup name) ∧
    (∀ m ∈ p.matches content, p.Occurs content m.start m.stop m.captures ∧
      Text.slice? m.start m.stop content = some m.text ∧ m.start < m.stop) ∧
    ((p.matches content).Pairwise fun m m' => m.start < m'.start ∧ m.stop ≤ m'.start) ∧
    (∀ start stop captures, p.Occurs content start stop captures →
      ∃ m ∈ p.matches content,
        m.start = start ∧ m.stop = stop ∧
            (∀ name, m.captures.lookup name = captures.lookup name) ∨
          m.start < start ∧ start < m.stop) ∧
    ∀ rounds, byteLen content < rounds →
      p.findFrom content rounds 0 = some (p.matches content) := by
  have hsolid := solid_of_compile hp
  refine ⟨?_, ?_, ?_, ?_, ?_⟩
  · intro start stop stop' captures captures' h h'
    exact h.unique hsolid h'
  · intro m hm
    exact occurs_of_mem_matches hsolid hm
  · exact (p.matches_starts content).and (p.matches_tiles content).pairwise_stop_le.2
  · intro start stop captures h
    exact h.listed hsolid
  · intro rounds hrounds
    exact findFrom_eq hsolid rounds [] content hrounds

/-- A pattern of one access. -/
def sampleAccess : Pattern :=
  ⟨[.literal "at(".toList, .placeholder "I", .literal ")".toList], by decide, by decide⟩

/-- Behind a character of two bytes, two accesses that touch. -/
theorem matches_eq_occurrences_sample :
    compile "at($I)" = .ok sampleAccess ∧
    (∀ stop captures, sampleAccess.Occurs "é at(i)at(j)".toList 3 stop captures →
      stop = 8 ∧ captures.lookup "I" = some "i".toList) ∧
    (sampleAccess.findFrom "é at(i)at(j)".toList 14 0).map (fun ms => ms.map Match.stop)
      = some [8, 13] := by
  have hcompile : compile "at($I)" = .ok sampleAccess := by
    have hsome : (compile "at($I)").toOption = some sampleAccess := by decide +kernel
    cases hresult : compile "at($I)" with
    | error e =>
        rw [hresult] at hsome
        cases hsome
    | ok p =>
        rw [hresult] at hsome
        rw [show p = sampleAccess from Option.some.inj hsome]
  have hmatches : sampleAccess.matches "é at(i)at(j)".toList
      = [⟨3, 8, "at(i)".toList, [("I", "i".toList)]⟩,
        ⟨8, 13, "at(j)".toList, [("I", "j".toList)]⟩] := by decide +kernel
  obtain ⟨hunique, hoccurs, -, -, hwalk⟩ :=
    matches_eq_occurrences hcompile "é at(i)at(j)".toList
  rw [hmatches] at hoccurs hwalk
  refine ⟨hcompile, fun stop captures h => ?_, ?_⟩
  · obtain ⟨hstop, hsame⟩ := hunique _ _ _ _ _ h (hoccurs _ List.mem_cons_self).1
    exact ⟨hstop, hsame "I"⟩
  · rw [hwalk 14 (by decide)]
    rfl

end Pattern

end ArtifactPatch
