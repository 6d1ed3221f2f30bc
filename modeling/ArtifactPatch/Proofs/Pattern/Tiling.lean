/-
  ArtifactPatch.Proofs.Pattern.Tiling
  ───────────────────────────────────
  **MATCHES TILE THE TEXT.**

  The scan of a pattern cuts a text into gaps and matched texts by turns:

      content = gap₀ ++ text₁ ++ gap₁ ++ … ++ textₖ ++ gapₖ

  with every match at the byte offset at which its text begins.  `weave` puts
  gaps and pieces together, `gaps` reads the gaps off the offsets alone, and
  `scan_tiles` says that the scan keeps to this form, whatever the pattern.
  The second half says what a match binds: every placeholder of its pattern.
-/
import ArtifactPatch.Pattern.Match
import ArtifactPatch.Proofs.Text.Cut

namespace ArtifactPatch

open Text (byteLen)

/-! ## §1. Weaving. -/

/-- Gaps and pieces by turns, beginning with a gap. -/
def Text.weave : (gaps pieces : List Text) → Text
  | [], pieces => pieces.flatten
  | gap :: gaps, [] => gap ++ gaps.flatten
  | gap :: gaps, piece :: pieces => gap ++ piece ++ weave gaps pieces

/-- The text before the first match, between neighbours, and behind the last,
cut out of `content` from byte `pos` on. -/
def gaps (content : Text) (pos : Nat) : List Match → List Text
  | [] => [(Text.slice? pos (byteLen content) content).getD []]
  | m :: ms => (Text.slice? pos m.start content).getD [] :: gaps content m.stop ms

theorem length_gaps (content : Text) (pos : Nat) (ms : List Match) :
    (gaps content pos ms).length = ms.length + 1 := by
  induction ms generalizing pos with
  | nil => rfl
  | cons m ms ih =>
      show (gaps content m.stop ms).length + 1 = ms.length + 1 + 1
      rw [ih]

/-! ## §2. Tilings. -/

/-- `ms` lie one behind the other in a text that begins at byte `offset`. -/
inductive Tiles : (offset : Nat) → List Match → Text → Prop
  | nil (offset : Nat) (rest : Text) : Tiles offset [] rest
  | cons {offset : Nat} {m : Match} {ms : List Match} (gap rest : Text)
      (hstart : m.start = offset + byteLen gap)
      (hstop : m.stop = m.start + byteLen m.text)
      (h : Tiles m.stop ms rest) : Tiles offset (m :: ms) (gap ++ m.text ++ rest)

namespace Tiles

/-- A character more in front of a tiled text belongs to the first gap. -/
theorem cons_char {offset : Nat} {ms : List Match} {t : Text} (c : Char)
    (h : Tiles (offset + c.utf8Size) ms t) : Tiles offset ms (c :: t) := by
  cases h with
  | nil => exact .nil offset (c :: t)
  | cons gap rest hstart hstop h =>
      refine .cons (c :: gap) rest ?_ hstop h
      rw [hstart, Text.byteLen_cons, Nat.add_assoc]

/-- The gaps and the matched texts make up the tiled text. -/
theorem weave_gaps {offset : Nat} {ms : List Match} {body : Text} (h : Tiles offset ms body) :
    ∀ (pre : Text), byteLen pre = offset →
      Text.weave (gaps (pre ++ body) offset ms) (ms.map Match.text) = body := by
  induction h with
  | nil offset rest =>
      rintro pre rfl
      have hs := Text.slice?_append pre rest []
      rw [List.append_nil, ← Text.byteLen_append] at hs
      rw [gaps, hs]
      exact List.append_nil rest
  | @cons offset m ms gap rest hstart hstop _ ih =>
      rintro pre rfl
      have hgap := Text.slice?_append pre gap (m.text ++ rest)
      have hassoc : pre ++ gap ++ (m.text ++ rest) = pre ++ (gap ++ m.text ++ rest) := by simp
      rw [hassoc, ← hstart] at hgap
      have hrest := ih (pre ++ gap ++ m.text) (by
        rw [hstop, hstart, Text.byteLen_append, Text.byteLen_append])
      have hassoc' : pre ++ gap ++ m.text ++ rest = pre ++ (gap ++ m.text ++ rest) := by simp
      rw [hassoc'] at hrest
      rw [gaps, hgap]
      show gap ++ m.text ++ Text.weave _ (ms.map Match.text) = gap ++ m.text ++ rest
      rw [hrest]

/-- Every match stands in the text at its own offsets. -/
theorem slice?_eq_text {offset : Nat} {ms : List Match} {body : Text}
    (h : Tiles offset ms body) :
    ∀ (pre : Text), byteLen pre = offset → ∀ m ∈ ms,
      Text.slice? m.start m.stop (pre ++ body) = some m.text := by
  induction h with
  | nil => intro _ _ m hm; cases hm
  | @cons offset m ms gap rest hstart hstop _ ih =>
      rintro pre rfl m' hm'
      have hassoc : pre ++ (gap ++ m.text ++ rest) = pre ++ gap ++ m.text ++ rest := by simp
      rw [hassoc]
      cases hm' with
      | head =>
          rw [hstop, hstart, ← Text.byteLen_append]
          exact Text.slice?_append (pre ++ gap) m.text rest
      | tail _ hm' =>
          refine ih (pre ++ gap ++ m.text) ?_ m' hm'
          rw [hstop, hstart, Text.byteLen_append, Text.byteLen_append]

/-- Matches of a tiling begin behind its offset and behind their predecessors. -/
theorem pairwise_stop_le {offset : Nat} {ms : List Match} {body : Text}
    (h : Tiles offset ms body) :
    (∀ m ∈ ms, offset ≤ m.start ∧ m.start ≤ m.stop) ∧
      ms.Pairwise fun m m' => m.stop ≤ m'.start := by
  induction h with
  | nil => simp
  | @cons offset m ms gap rest hstart hstop _ ih =>
      obtain ⟨hle, hpair⟩ := ih
      refine ⟨?_, List.pairwise_cons.2 ⟨fun m' hm' => (hle m' hm').1, hpair⟩⟩
      intro m' hm'
      cases hm' with
      | head => omega
      | tail _ hm' =>
          have := hle m' hm'
          omega

end Tiles

/-! ## §3. The scan. -/

namespace Pattern

/-- A match takes no more characters than there are. -/
theorem length_le_of_matchFront? {p : Pattern} {before : Option Char} {t : Text}
    {captures : Captures} {length : Nat}
    (h : p.matchFront? before t = some (captures, length)) : length ≤ t.length := by
  unfold matchFront? at h
  split at h
  · cases h
  · split at h
    · cases h
    · split at h
      · cases h
      · obtain ⟨-, rfl⟩ := Prod.mk.inj (Option.some.inj h)
        exact Nat.sub_le _ _

/-- **The scan keeps to a tiling.**  The characters to skip are the end of the
match before, so the tiling begins behind them. -/
theorem scan_tiles (p : Pattern) (before : Option Char) (offset skip : Nat) (t : Text)
    (hskip : skip ≤ t.length) :
    Tiles (offset + byteLen (t.take skip)) (p.scan before offset skip t) (t.drop skip) := by
  induction t generalizing before offset skip with
  | nil =>
      unfold scan
      exact .nil _ _
  | cons c cs ih =>
      cases skip with
      | succ skip =>
          -- the character still belongs to the match before
          have h := ih (some c) (offset + c.utf8Size) skip (by simpa using hskip)
          rw [Nat.add_assoc] at h
          exact h
      | zero =>
          unfold scan
          split
          next => exact (ih (some c) (offset + c.utf8Size) 0 (Nat.zero_le _)).cons_char c
          next captures length hmatch =>
            have hlen := length_le_of_matchFront? hmatch
            cases length with
            | zero =>
                -- an empty match leaves its character to the gap behind it
                refine .cons [] (c :: cs) rfl rfl ?_
                exact (ih (some c) (offset + c.utf8Size) 0 (Nat.zero_le _)).cons_char c
            | succ length =>
                have h := ih (some c) (offset + c.utf8Size) length (by simpa using hlen)
                -- the scan goes on behind the match, with the rest of it to skip
                have htext : c :: cs
                    = [] ++ (c :: cs).take (length + 1) ++ cs.drop length := by
                  simp
                rw [List.drop_zero]
                conv => arg 3; rw [htext]
                refine .cons [] (cs.drop length) rfl rfl ?_
                rw [Nat.add_assoc] at h
                exact h

/-- **All matches tile the text.** -/
theorem matches_tiles (p : Pattern) (content : Text) : Tiles 0 (p.matches content) content :=
  p.scan_tiles none 0 0 content (Nat.zero_le _)

/-- The scan lists matches in the order of their starts, no two at one place. -/
theorem scan_starts (p : Pattern) (before : Option Char) (offset skip : Nat) (t : Text) :
    (∀ m ∈ p.scan before offset skip t, offset ≤ m.start) ∧
      (p.scan before offset skip t).Pairwise fun m m' => m.start < m'.start := by
  induction t generalizing before offset skip with
  | nil =>
      unfold scan
      simp
  | cons c cs ih =>
      have hpos := c.utf8Size_pos
      cases skip with
      | succ skip =>
          obtain ⟨hle, hlt⟩ := ih (some c) (offset + c.utf8Size) skip
          unfold scan
          exact ⟨fun m hm => Nat.le_trans (Nat.le_add_right _ _) (hle m hm), hlt⟩
      | zero =>
          unfold scan
          split
          next =>
            obtain ⟨hle, hlt⟩ := ih (some c) (offset + c.utf8Size) 0
            exact ⟨fun m hm => Nat.le_trans (Nat.le_add_right _ _) (hle m hm), hlt⟩
          next captures length _ =>
            obtain ⟨hle, hlt⟩ := ih (some c) (offset + c.utf8Size) (length - 1)
            constructor
            · intro m hm
              rcases List.mem_cons.1 hm with rfl | hm
              · exact Nat.le_refl offset
              · exact Nat.le_trans (Nat.le_add_right _ _) (hle m hm)
            · refine List.pairwise_cons.2 ⟨fun m hm => ?_, hlt⟩
              have := hle m hm
              show offset < m.start
              omega

theorem matches_starts (p : Pattern) (content : Text) :
    (p.matches content).Pairwise fun m m' => m.start < m'.start :=
  (p.scan_starts none 0 0 content).2

/-! ## §4. Captures. -/

/-- Reading segments binds their placeholders and unbinds nothing. -/
theorem isSome_lookup_of_readSegments {segments : List Segment} {captures captures' : Captures}
    {t rest : Text} (h : readSegments segments captures t = some (captures', rest))
    (name : String)
    (hname : (captures.lookup name).isSome ∨ Segment.placeholder name ∈ segments) :
    (captures'.lookup name).isSome := by
  induction segments generalizing captures t with
  | nil =>
      obtain ⟨rfl, rfl⟩ := Prod.mk.inj (Option.some.inj h)
      exact hname.resolve_right List.not_mem_nil
  | cons s segments ih =>
      cases s with
      | literal lit =>
          obtain ⟨t', -, h⟩ := Option.bind_eq_some_iff.1 h
          exact ih h (hname.imp_right fun hm => by simpa using hm)
      | placeholder other =>
          obtain ⟨⟨tok, t'⟩, -, h⟩ := Option.bind_eq_some_iff.1 h
          simp only at h
          split at h
          next bound hbound =>
            -- bound before: the token must be the same, and nothing is added
            split at h
            · refine ih h ?_
              rcases hname with hname | hname
              · exact .inl hname
              · rcases List.mem_cons.1 hname with heq | hname
                · rw [Segment.placeholder.inj heq, hbound]
                  exact .inl rfl
                · exact .inr hname
            · cases h
          next hfree =>
            -- bound now: what was bound before comes first in the list
            refine ih h ?_
            rw [List.lookup_append]
            rcases hname with hname | hname
            · rw [Option.isSome_or, hname]
              exact .inl rfl
            · rcases List.mem_cons.1 hname with heq | hname
              · rw [Segment.placeholder.inj heq, hfree, List.lookup_cons_self]
                exact .inl rfl
              · exact .inr hname

/-- Every match of a scan binds every placeholder of the pattern. -/
theorem isSome_lookup_of_mem_scan {p : Pattern} {before : Option Char} {offset skip : Nat}
    {t : Text} {m : Match} (hm : m ∈ p.scan before offset skip t) (name : String)
    (hname : Segment.placeholder name ∈ p.segments) : (m.captures.lookup name).isSome := by
  induction t generalizing before offset skip with
  | nil =>
      unfold scan at hm
      cases hm
  | cons c cs ih =>
      cases skip with
      | succ skip =>
          unfold scan at hm
          exact ih hm
      | zero =>
          unfold scan at hm
          split at hm
          next => exact ih hm
          next captures length hmatch =>
            rcases List.mem_cons.1 hm with rfl | hm
            · unfold matchFront? at hmatch
              split at hmatch
              · cases hmatch
              · split at hmatch
                · cases hmatch
                next captures' rest hread =>
                  split at hmatch
                  · cases hmatch
                  · obtain ⟨rfl, -⟩ := Prod.mk.inj (Option.some.inj hmatch)
                    exact isSome_lookup_of_readSegments hread name (.inr hname)
            · exact ih hm

theorem isSome_lookup_of_mem_matches {p : Pattern} {content : Text} {m : Match}
    (hm : m ∈ p.matches content) (name : String)
    (hname : Segment.placeholder name ∈ p.segments) : (m.captures.lookup name).isSome :=
  isSome_lookup_of_mem_scan hm name hname

end Pattern

end ArtifactPatch
