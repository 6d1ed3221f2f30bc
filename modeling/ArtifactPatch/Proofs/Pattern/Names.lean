/-
  ArtifactPatch.Proofs.Pattern.Names
  ──────────────────────────────────
  **MATCHING DOES NOT DEPEND ON THE NAMES.**

  Where no token of its literals is renamed, a pattern reads a renamed text as
  it reads the text:

      t          ── Reads ──▶  bound,           rest
      ρ.apply t  ── Reads ──▶  ρ.captures bound, ρ.apply rest

  and it reads nothing else there (`reads_apply_iff`).  Within a word nothing
  matches, so the scan goes from word to word or from match to match
  (`scan_word_induction`), and does the same in both texts
  (`Keeps.scan_apply`).  Main result: `matches_apply`.
-/
import Mathlib.Logic.Equiv.Basic
import ArtifactPatch.Proofs.Pattern.Occurrence
import ArtifactPatch.Proofs.Pattern.Renaming
import ArtifactPatch.Proofs.Pattern.Rescan

namespace ArtifactPatch

open Text (byteLen lastFrom)

/-! ## §1. Neighbours in compiled patterns. -/

namespace Segment

/-- No two neighbours are both literals. -/
def Alternate (segments : List Segment) : Prop :=
  segments.IsChain fun s s' => ∀ lit lit', s = .literal lit → s' ≠ .literal lit'

/-- What is read alternates. -/
theorem alternate_of_parse? {position : Nat} {source : Text} {segments : List Segment}
    (h : parse? position source = .ok segments) : Alternate segments := by
  refine (normal_and_render_of_parse? h).1.chain.imp fun s s' hprecedes lit lit' hs hs' => ?_
  rw [hs, hs'] at hprecedes
  exact hprecedes

end Segment

namespace Pattern

variable {p : Pattern} {ρ : Renaming} {segments : List Segment} {lit t rest : Text}
  {name : String} {before before' : Option Char} {captures captures' : Captures}

/-! ## §2. Reading up to a seam. -/

/-- No word goes on behind a literal at the end of some segments. -/
def EndsAtSeam (segments : List Segment) (rest : Text) : Prop :=
  ∀ lit, segments.getLast? = some (.literal lit) → Seam lit rest

/-- Segments are read off a text, up to a seam. -/
def Reads (segments : List Segment) (captures : Captures) (t : Text) (captures' : Captures)
    (rest : Text) : Prop :=
  readSegments segments captures t = some (captures', rest) ∧ EndsAtSeam segments rest

theorem endsAtSeam_nil (rest : Text) : EndsAtSeam [] rest := by
  intro lit h
  cases h

theorem reads_nil_iff : Reads [] captures t captures' rest ↔ captures = captures' ∧ t = rest := by
  constructor
  · rintro ⟨h, -⟩
    exact Prod.mk.inj (Option.some.inj h)
  · rintro ⟨rfl, rfl⟩
    exact ⟨rfl, endsAtSeam_nil t⟩

/-- A literal ends at a seam: it is the last segment, or it does not end with an
identifier character. -/
theorem endsAtSeam_literal_iff {t' : Text}
    (hclear : Segment.boundaryError? (.literal lit :: segments) = none)
    (halternate : Segment.Alternate (.literal lit :: segments))
    (h : readSegments segments captures t' = some (captures', rest)) :
    EndsAtSeam (.literal lit :: segments) rest ↔ Seam lit t' ∧ EndsAtSeam segments rest := by
  cases segments with
  | nil =>
      obtain ⟨-, rfl⟩ := Prod.mk.inj (Option.some.inj h)
      constructor
      · exact fun hends => ⟨hends lit rfl, endsAtSeam_nil t'⟩
      · rintro ⟨hseam, -⟩ _ ⟨⟩
        exact hseam
  | cons s segments =>
      cases s with
      | literal lit' => exact absurd rfl ((List.isChain_cons_cons.1 halternate).1 lit lit' rfl)
      | placeholder name =>
          have hopen : endsWithIdentChar lit = false := by
            unfold Segment.boundaryError? at hclear
            split at hclear
            next => cases hclear
            next hopen => exact Bool.eq_false_iff.2 hopen
          unfold EndsAtSeam
          rw [List.getLast?_cons_cons]
          exact (and_iff_right (seam_of_closed hopen t')).symm

theorem endsAtSeam_placeholder_iff :
    EndsAtSeam (.placeholder name :: segments) rest ↔ EndsAtSeam segments rest := by
  cases segments with
  | nil =>
      refine iff_of_true (fun lit h => ?_) (endsAtSeam_nil rest)
      cases h
  | cons s segments =>
      unfold EndsAtSeam
      rw [List.getLast?_cons_cons]

theorem reads_literal_iff (hclear : Segment.boundaryError? (.literal lit :: segments) = none)
    (halternate : Segment.Alternate (.literal lit :: segments)) :
    Reads (.literal lit :: segments) captures t captures' rest ↔
      ∃ t', t = lit ++ t' ∧ Seam lit t' ∧ Reads segments captures t' captures' rest := by
  unfold Reads
  rw [readSegments_literal_iff]
  constructor
  · rintro ⟨⟨t', ht, h⟩, hends⟩
    obtain ⟨hseam, hends'⟩ := (endsAtSeam_literal_iff hclear halternate h).1 hends
    exact ⟨t', ht, hseam, h, hends'⟩
  · rintro ⟨t', ht, hseam, h, hends'⟩
    exact ⟨⟨t', ht, h⟩, (endsAtSeam_literal_iff hclear halternate h).2 ⟨hseam, hends'⟩⟩

theorem reads_placeholder_iff : Reads (.placeholder name :: segments) captures t captures' rest ↔
    ∃ tok t' captures₁, token? t = some (tok, t') ∧ captures.After name tok captures₁ ∧
      Reads segments captures₁ t' captures' rest := by
  unfold Reads
  rw [readSegments_placeholder_iff, endsAtSeam_placeholder_iff]
  constructor
  · rintro ⟨⟨tok, t', captures₁, htoken, hafter, h⟩, hends⟩
    exact ⟨tok, t', captures₁, htoken, hafter, h, hends⟩
  · rintro ⟨tok, t', captures₁, htoken, hafter, h, hends⟩
    exact ⟨⟨tok, t', captures₁, htoken, hafter, h⟩, hends⟩

/-- **Reading commutes with renaming.** -/
theorem reads_apply_iff {s : Text} (hclear : Segment.boundaryError? segments = none)
    (halternate : Segment.Alternate segments) (hfix : ∀ lit, .literal lit ∈ segments → ρ.Fixes lit) :
    Reads segments (ρ.captures captures) (ρ.apply t) captures' s ↔
      ∃ captures₁ rest, Reads segments captures t captures₁ rest ∧
        captures' = ρ.captures captures₁ ∧ s = ρ.apply rest := by
  induction segments generalizing captures t with
  | nil =>
      simp only [reads_nil_iff]
      constructor
      · rintro ⟨rfl, rfl⟩
        exact ⟨captures, t, ⟨rfl, rfl⟩, rfl, rfl⟩
      · rintro ⟨_, _, ⟨rfl, rfl⟩, rfl, rfl⟩
        exact ⟨rfl, rfl⟩
  | cons segment segments ih =>
      have hclear' := boundaryError?_tail hclear
      have hfix' : ∀ lit, .literal lit ∈ segments → ρ.Fixes lit :=
        fun lit h => hfix lit (List.mem_cons_of_mem _ h)
      have ih' {captures : Captures} {t : Text} :
          Reads segments (ρ.captures captures) (ρ.apply t) captures' s ↔ ∃ captures₁ rest,
            Reads segments captures t captures₁ rest ∧ captures' = ρ.captures captures₁ ∧
              s = ρ.apply rest :=
        ih hclear' halternate.tail hfix'
      cases segment with
      | literal lit =>
          have hlit := hfix lit List.mem_cons_self
          simp only [reads_literal_iff hclear halternate]
          constructor
          · rintro ⟨t', h, hseam, hreads⟩
            obtain ⟨u, rfl, hu, rfl⟩ := hlit.apply_eq_append_iff.1 ⟨h, hseam⟩
            obtain ⟨captures₁, rest, hreads₁, hcaptures, hrest⟩ := ih'.1 hreads
            exact ⟨captures₁, rest, ⟨u, rfl, hu, hreads₁⟩, hcaptures, hrest⟩
          · rintro ⟨captures₁, rest, ⟨u, ht, hu, hreads₁⟩, hcaptures, hrest⟩
            obtain ⟨h, hseam⟩ := hlit.apply_eq_append_iff.2 ⟨u, ht, hu, rfl⟩
            exact ⟨_, h, hseam, ih'.2 ⟨captures₁, rest, hreads₁, hcaptures, hrest⟩⟩
      | placeholder name =>
          simp only [reads_placeholder_iff]
          constructor
          · rintro ⟨_, _, captures₀', htoken', hafter', hreads⟩
            obtain ⟨tok, u, htoken, rfl, rfl⟩ := Renaming.token?_apply_iff.1 htoken'
            obtain ⟨captures₀, hafter, rfl⟩ := Renaming.after_captures_iff.1 hafter'
            obtain ⟨captures₁, rest, hreads₁, hcaptures, hrest⟩ := ih'.1 hreads
            exact ⟨captures₁, rest, ⟨tok, u, captures₀, htoken, hafter, hreads₁⟩, hcaptures, hrest⟩
          · rintro ⟨captures₁, rest, ⟨tok, u, captures₀, htoken, hafter, hreads₁⟩, hcaptures, hrest⟩
            exact ⟨_, _, _, Renaming.token?_apply_iff.2 ⟨tok, u, htoken, rfl, rfl⟩,
              Renaming.after_captures_iff.2 ⟨captures₀, hafter, rfl⟩,
              ih'.2 ⟨captures₁, rest, hreads₁, hcaptures, hrest⟩⟩

/-! ## §3. Matches in front of a renamed text. -/

theorem endsAtSeam_iff : EndsAtSeam p.segments rest ↔
    (p.endsWithIdentLiteral && beginsWithIdentChar rest) = false := by
  unfold EndsAtSeam endsWithIdentLiteral
  rw [Bool.and_eq_false_imp]
  split
  next lit hlast =>
    rw [hlast]
    constructor
    · exact fun h => h lit rfl
    · rintro h _ ⟨⟩
      exact h
  next hother =>
    refine iff_of_true (fun lit hlast => absurd hlast (hother lit)) (fun h => ?_)
    cases h

/-- A match is what the segments read up to a seam. -/
theorem matchFront?_eq_some_iff_reads {n : Nat} :
    p.matchFront? before t = some (captures, n) ↔
      (p.beginsWithIdent && before.any isIdentChar) = false ∧
        ∃ u rest, t = u ++ rest ∧ u.length = n ∧ Reads p.segments [] t captures rest := by
  rw [matchFront?_eq_some_iff]
  unfold Reads
  simp only [endsAtSeam_iff]

/-- A pattern whose literals keep their names, and whose segments alternate. -/
structure Keeps (p : Pattern) (ρ : Renaming) : Prop where
  solid : p.Solid
  alternate : Segment.Alternate p.segments
  fixes : ∀ lit, .literal lit ∈ p.segments → ρ.Fixes lit

theorem Keeps.reads_apply_iff {s : Text} (h : p.Keeps ρ) :
    Reads p.segments [] (ρ.apply t) captures' s ↔
      ∃ captures rest, Reads p.segments [] t captures rest ∧
        captures' = ρ.captures captures ∧ s = ρ.apply rest := by
  show Reads p.segments (ρ.captures []) (ρ.apply t) captures' s ↔ _
  exact Pattern.reads_apply_iff p.boundaries_clear h.alternate h.fixes

/-- **A match is found again under its new names.** -/
theorem Keeps.matchFront?_apply {u : Text} (h : p.Keeps ρ)
    (hbefore : before'.any isIdentChar = before.any isIdentChar)
    (hmatch : p.matchFront? before (u ++ rest) = some (captures, u.length)) :
    p.matchFront? before' (ρ.apply u ++ ρ.apply rest)
      = some (ρ.captures captures, (ρ.apply u).length) := by
  have hseam := seam_of_matchFront? h.solid hmatch
  obtain ⟨hfirst, hread, hlast⟩ := matchFront?_append_iff.1 hmatch
  obtain ⟨hread', hlast'⟩ :=
    h.reads_apply_iff.2 ⟨captures, rest, ⟨hread, endsAtSeam_iff.2 hlast⟩, rfl, rfl⟩
  rw [Renaming.apply_append ρ hseam] at hread'
  exact matchFront?_append_iff.2 ⟨hbefore ▸ hfirst, hread', endsAtSeam_iff.1 hlast'⟩

/-- **Nothing else is found under new names.** -/
theorem Keeps.matchFront?_apply_none (h : p.Keeps ρ)
    (hbefore : before'.any isIdentChar = before.any isIdentChar)
    (hnone : p.matchFront? before t = none) : p.matchFront? before' (ρ.apply t) = none := by
  refine Option.eq_none_iff_forall_not_mem.2 fun found hfound => ?_
  obtain ⟨captures', n⟩ := found
  obtain ⟨hfirst, u', rest', -, -, hreads'⟩ := matchFront?_eq_some_iff_reads.1 hfound
  obtain ⟨captures, rest, hreads, -, -⟩ := h.reads_apply_iff.1 hreads'
  obtain ⟨u, rfl⟩ := exists_append_of_readSegments hreads.1
  have hmatch := matchFront?_eq_some_iff_reads.2 ⟨hbefore ▸ hfirst, u, rest, rfl, rfl, hreads⟩
  rw [hnone] at hmatch
  cases hmatch

/-! ## §4. The scan from word to word. -/

/-- No match begins within an identifier. -/
theorem matchFront?_within (hsolid : p.Solid) (hbefore : before.any isIdentChar = true)
    (ht : beginsWithIdentChar t = true) : p.matchFront? before t = none := by
  refine Option.eq_none_iff_forall_not_mem.2 fun found hfound => ?_
  obtain ⟨captures, n⟩ := found
  obtain ⟨hfirst, -⟩ := matchFront?_eq_some_iff.1 hfound
  obtain ⟨u, rest, rfl, -, hmatch⟩ := isMatch_of_matchFront? hfound
  rw [beginsWithIdentChar_append (hmatch.ne_nil hsolid),
    beginsWithIdentChar_of_isMatch hmatch hsolid] at ht
  rw [ht, hbefore] at hfirst
  cases hfirst

/-- **A word at which nothing matches is passed as a whole.** -/
theorem scan_word {w : Text} (hsolid : p.Solid) (hw : IsWord w)
    (hnone : p.matchFront? before (w ++ rest) = none) (offset : Nat) :
    p.scan before offset 0 (w ++ rest)
      = p.scan (lastFrom before w) (offset + byteLen w) 0 rest := by
  refine scan_pass (fun x v hsplit hv => ?_) offset
  by_cases hx : x = []
  · subst hx
    rw [List.nil_append] at hsplit
    rw [← hsplit]
    exact hnone
  · subst hsplit
    obtain ⟨hends, hbegins⟩ := hw.goes_on hx hv
    refine matchFront?_within hsolid ?_ ?_
    · rw [any_lastFrom hx, hends]
    · rw [beginsWithIdentChar_append hv, hbegins]

/-- A text is empty, or nothing matches at its first word, or it begins with a
match. -/
@[elab_as_elim] theorem scan_word_induction {motive : Option Char → Text → Prop} (hsolid : p.Solid)
    (nil : ∀ before, motive before [])
    (word : ∀ before w rest, IsWord w → Seam w rest → p.matchFront? before (w ++ rest) = none →
      motive (lastFrom before w) rest → motive before (w ++ rest))
    (hit : ∀ before u rest captures, u ≠ [] →
      p.matchFront? before (u ++ rest) = some (captures, u.length) →
      motive (lastFrom before u) rest → motive before (u ++ rest))
    (before : Option Char) (t : Text) : motive before t := by
  generalize hn : t.length = n
  induction n using Nat.strongRecOn generalizing before t with
  | ind n ih =>
    subst hn
    have hshorter {u rest : Text} (hu : u ≠ []) : rest.length < (u ++ rest).length := by
      have hpos := List.length_pos_iff.2 hu
      rw [List.length_append]
      omega
    cases hmatch : p.matchFront? before t with
    | some found =>
        obtain ⟨captures, n⟩ := found
        obtain ⟨u, rest, rfl, rfl, hfound⟩ := isMatch_of_matchFront? hmatch
        have hne := hfound.ne_nil hsolid
        exact hit before u rest captures hne hmatch (ih _ (hshorter hne) _ rest rfl)
    | none =>
        by_cases ht : t = []
        · rw [ht]
          exact nil before
        · obtain ⟨w, rest, rfl, hw, hseam⟩ := exists_word ht
          exact word before w rest hw hseam hmatch (ih _ (hshorter hw.ne_nil) _ rest rfl)

/-- A match and its image under new names. -/
def Renamed (ρ : Renaming) (m m' : Match) : Prop :=
  m'.text = ρ.apply m.text ∧ m'.captures = ρ.captures m.captures

/-- **The scan does the same under new names.** -/
theorem Keeps.scan_apply (h : p.Keeps ρ)
    (hbefore : before'.any isIdentChar = before.any isIdentChar) (offset offset' : Nat) :
    List.Forall₂ (Renamed ρ) (p.scan before offset 0 t) (p.scan before' offset' 0 (ρ.apply t)) := by
  induction before, t using scan_word_induction h.solid generalizing before' offset offset' with
  | nil before => exact .nil
  | word before w rest hw hseam hnone ih =>
      have hnone' := h.matchFront?_apply_none hbefore hnone
      rw [Renaming.apply_word_append ρ hw hseam] at hnone' ⊢
      rw [scan_word h.solid hw hnone, scan_word h.solid (Renaming.isWord_word ρ hw) hnone']
      refine ih ?_ _ _
      rw [any_lastFrom hw.ne_nil, any_lastFrom (Renaming.isWord_word ρ hw).ne_nil,
        (Renaming.edges_word ρ w).2]
  | hit before u rest captures hne hmatch ih =>
      have hmatch' := h.matchFront?_apply hbefore hmatch
      have hne' := Renaming.apply_ne_nil ρ hne
      rw [Renaming.apply_append ρ (seam_of_matchFront? h.solid hmatch), scan_hit hne hmatch,
        scan_hit hne' hmatch']
      refine .cons ⟨rfl, rfl⟩ (ih ?_ _ _)
      rw [any_lastFrom hne, any_lastFrom hne', (Renaming.edges_apply ρ u).2]

/-! ## §5. Matches under new names. -/

theorem keeps_of_compile {source : String} (hp : compile source = .ok p)
    (hfix : ∀ lit, .literal lit ∈ p.segments → ρ.Fixes lit) : p.Keeps ρ :=
  ⟨solid_of_compile hp, Segment.alternate_of_parse? (parse?_of_compile hp), hfix⟩

/-- **Matching does not depend on the names.**  For every source that compiles,
every renaming that keeps the tokens of its literals and every text: the renamed
text has as many matches as the text.  The match at the same place of the list
has the renamed text of the other, and binds each placeholder to the image of the
token that the other binds. -/
theorem matches_apply {source : String} (hp : compile source = .ok p)
    (hfix : ∀ lit, .literal lit ∈ p.segments → ρ.Fixes lit) (content : Text) :
    (p.matches (ρ.apply content)).length = (p.matches content).length ∧
    ∀ (i : Nat) (m m' : Match), (p.matches content)[i]? = some m →
      (p.matches (ρ.apply content))[i]? = some m' →
        m'.text = ρ.apply m.text ∧
        ∀ name, .placeholder name ∈ p.segments → ∃ token : IdentToken,
          m.captures.lookup name = some token.1 ∧
            m'.captures.lookup name = some (ρ token).1 := by
  have hkeeps := keeps_of_compile hp hfix
  have hall : List.Forall₂ (Renamed ρ) (p.matches content) (p.matches (ρ.apply content)) :=
    hkeeps.scan_apply rfl 0 0
  refine ⟨hall.length_eq.symm, fun i m m' hm hm' => ?_⟩
  obtain ⟨hi, rfl⟩ := List.getElem?_eq_some_iff.1 hm
  obtain ⟨hi', rfl⟩ := List.getElem?_eq_some_iff.1 hm'
  obtain ⟨htext, hcaptures⟩ := hall.get hi hi'
  simp only [List.get_eq_getElem] at htext hcaptures
  refine ⟨htext, fun name hname => ?_⟩
  obtain ⟨tok, hbound, htok⟩ :=
    (isMatch_of_mem_matches hkeeps.solid (List.getElem_mem hi)).binds name hname
  refine ⟨⟨tok, htok⟩, hbound, ?_⟩
  rw [hcaptures, Renaming.lookup_captures, hbound, Option.map_some,
    Renaming.word_of_isToken ρ htok]

/-- A pattern that binds one placeholder twice. -/
def sampleTwice : Pattern :=
  ⟨[.placeholder "F", .literal "=at(".toList, .placeholder "I", .literal ",".toList,
    .placeholder "I", .literal ")".toList], by decide, by decide⟩

/-- A short and a long name change places. -/
def sampleRenaming : Renaming :=
  (Equiv.swap (⟨"x".toList, by decide⟩ : IdentToken) ⟨"total".toList, by decide⟩).toEmbedding

/-- Offsets move, and the one match binds the image. -/
theorem matches_apply_sample :
    compile "$F=at($I,$I)" = .ok sampleTwice ∧
    (∀ lit, .literal lit ∈ sampleTwice.segments → sampleRenaming.Fixes lit) ∧
    sampleRenaming.apply "x1=at(x,1);f=at(x,x)".toList
      = "x1=at(total,1);f=at(total,total)".toList ∧
    (sampleTwice.matches "x1=at(total,1);f=at(total,total)".toList).length = 1 ∧
    ∀ m', (sampleTwice.matches "x1=at(total,1);f=at(total,total)".toList)[0]? = some m' →
      m'.captures.lookup "I" = some "total".toList := by
  have hcompile : compile "$F=at($I,$I)" = .ok sampleTwice := by decide +kernel
  have happly : sampleRenaming.apply "x1=at(x,1);f=at(x,x)".toList
      = "x1=at(total,1);f=at(total,total)".toList := by decide +kernel
  have hfix : ∀ lit, .literal lit ∈ sampleTwice.segments → sampleRenaming.Fixes lit := by
    intro lit hlit
    simp only [sampleTwice, List.mem_cons, Segment.literal.injEq, reduceCtorEq, false_or,
      List.not_mem_nil, or_false] at hlit
    rcases hlit with rfl | rfl | rfl <;> decide +kernel
  have hmatches : sampleTwice.matches "x1=at(x,1);f=at(x,x)".toList
      = [⟨11, 20, "f=at(x,x)".toList, [("F", "f".toList), ("I", "x".toList)]⟩] := by
    decide +kernel
  obtain ⟨hlength, hsame⟩ := matches_apply hcompile hfix "x1=at(x,1);f=at(x,x)".toList
  rw [happly, hmatches] at hlength hsame
  refine ⟨hcompile, hfix, happly, hlength, fun m' hm' => ?_⟩
  obtain ⟨token, htoken, himage⟩ := (hsame 0 _ m' rfl hm').2 "I" (by decide)
  obtain rfl : ⟨"x".toList, by decide⟩ = token := Subtype.ext (Option.some.inj htoken)
  have hswap : sampleRenaming ⟨"x".toList, by decide⟩ = ⟨"total".toList, by decide⟩ :=
    Equiv.swap_apply_left _ _
  rw [himage, hswap]

end Pattern

end ArtifactPatch
