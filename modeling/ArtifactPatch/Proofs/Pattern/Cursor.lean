/-
  ArtifactPatch.Proofs.Pattern.Cursor
  ───────────────────────────────────
  **THE SCAN AS A WALK OVER BYTE POSITIONS.**

  `Pattern.findFrom` scans with a position in bytes: it looks for the next
  place where a match could begin, tries it, and goes on behind the match or
  one character on.  Every slice on the way is partial, and the walk has a
  number of rounds to spend; an off-boundary slice and a round too many both
  answer `none`.  Neither happens: with a round for every byte and one more, the
  walk lists the matches of the scan (`findFrom_eq`).  A position never stands
  inside a character because candidates and ends of tokens are found at bytes of
  identifiers, which are characters of their own, or where a literal stands.
-/
import ArtifactPatch.Proofs.Pattern.Scan
import ArtifactPatch.Proofs.Text.Bytes

namespace ArtifactPatch

open Text (byteLen bytes lastFrom lastFrom_cons)

/-! ## §1. The walk. -/

namespace Text

/-- The byte offset of the first place where a needle stands. -/
def find? (needle : Text) : Text → Option Nat
  | [] => if needle.isEmpty then some 0 else none
  | c :: cs =>
      if (after? needle (c :: cs)).isSome then some 0
      else (find? needle cs).map (c.utf8Size + ·)

/-- Whether the byte at a position is of a kind; past the end there is none. -/
def byteIs (t : Text) (kind : UInt8 → Bool) (i : Nat) : Bool :=
  (bytes t)[i]?.any kind

/-- Whether an identifier token starts at a position. -/
def tokenStartsAt (t : Text) (i : Nat) : Bool :=
  t.byteIs isIdentStartByte i && (i == 0 || !t.byteIs isIdentByte (i - 1))

end Text

namespace Pattern

/-- The next position, from `pos` on, at which a match could begin. -/
def candidate? (p : Pattern) (content : Text) (pos : Nat) : Option (Option Nat) :=
  if byteLen content ≤ pos then some none
  else match p.segments.head? with
    | some (.literal anchor) =>
        (Text.cutAt pos content).map fun (_, rest) => (Text.find? anchor rest).map (pos + ·)
    | _ => some ((List.range' pos (byteLen content - pos)).find? content.tokenStartsAt)

/-- Read segments from a position on; answers the captures and the position
behind them. -/
def readAt (content : Text) : List Segment → Captures → Nat → Option (Option (Captures × Nat))
  | [], captures, cursor => some (some (captures, cursor))
  | .literal anchor :: segments, captures, cursor =>
      (Text.cutAt cursor content).bind fun (_, rest) =>
        if (Text.after? anchor rest).isSome then
          readAt content segments captures (cursor + byteLen anchor)
        else some none
  | .placeholder name :: segments, captures, cursor =>
      if content.byteIs isIdentStartByte cursor then
        let stop := content.runEnd isIdentByte (cursor + 1)
        (Text.slice? cursor stop content).bind fun tok =>
          match captures.lookup name with
          | some bound =>
              if bound = tok then readAt content segments captures stop else some none
          | none => readAt content segments (captures ++ [(name, tok)]) stop
      else some none

/-- The match that begins at a position. -/
def matchAt? (p : Pattern) (content : Text) (start : Nat) : Option (Option Match) :=
  if decide (0 < start) && p.beginsWithIdent && content.byteIs isIdentByte (start - 1) then some none
  else (readAt content p.segments [] start).bind fun
    | none => some none
    | some (captures, cursor) =>
        if p.endsWithIdentLiteral && content.byteIs isIdentByte cursor then some none
        else (Text.slice? start cursor content).map fun text => some ⟨start, cursor, text, captures⟩

/-- Matches from a position on, found in so many rounds. -/
def findFrom (p : Pattern) (content : Text) : (rounds pos : Nat) → Option (List Match)
  | 0, _ => none
  | rounds + 1, pos =>
      (p.candidate? content pos).bind fun
        | none => some []
        | some start =>
            (p.matchAt? content start).bind fun
              | some m => (p.findFrom content rounds m.stop).map (m :: ·)
              | none =>
                  (Text.cutAt start content).bind fun (_, rest) =>
                    p.findFrom content rounds (start + rest.head?.elim 1 Char.utf8Size)

end Pattern

/-! ## §2. Bytes at a cut. -/

namespace Text

/-- The byte behind a cut. -/
theorem byteIs_append_of_ascii {kind : Char → Bool} (hkind : AsciiOnly kind) (a b : Text) :
    byteIs (a ++ b) (fun x => kind (Char.ofUInt8 x)) (byteLen a) = b.head?.any kind := by
  have hbehind := getElem?_bytes_add a b 0
  rw [Nat.add_zero, ← List.head?_eq_getElem?] at hbehind
  unfold byteIs
  rw [hbehind]
  exact any_head?_bytes_of_ascii hkind b

theorem byteIs_append (a b : Text) :
    byteIs (a ++ b) isIdentByte (byteLen a) = beginsWithIdentChar b ∧
      byteIs (a ++ b) isIdentStartByte (byteLen a) = b.head?.any isIdentStart :=
  ⟨byteIs_append_of_ascii asciiOnly_isIdentChar a b,
    byteIs_append_of_ascii asciiOnly_isIdentStart a b⟩

/-- The byte in front of a cut, if there is one. -/
theorem byteIs_pred (a b : Text) :
    (decide (0 < byteLen a) && byteIs (a ++ b) isIdentByte (byteLen a - 1))
      = (lastFrom none a).any isIdentChar := by
  have hlast : lastFrom none a = a.getLast? := Option.or_none
  by_cases hne : a = []
  · subst hne
    rfl
  · have hpos : 0 < byteLen a :=
      Nat.pos_of_ne_zero fun hzero => hne (eq_nil_of_byteLen_eq_zero hzero)
    unfold byteIs
    rw [getElem?_bytes_pred hne, any_getLast?_bytes, hlast, decide_eq_true hpos, Bool.true_and]
    rfl

/-- A token starts at a cut if its first character does, and none is in front. -/
theorem tokenStartsAt_append (a b : Text) :
    tokenStartsAt (a ++ b) (byteLen a)
      = (b.head?.any isIdentStart && !(lastFrom none a).any isIdentChar) := by
  unfold tokenStartsAt
  rw [(byteIs_append a b).2, ← byteIs_pred a b, Bool.not_and]
  congr 2
  cases byteLen a with
  | zero => rfl
  | succ n => simp

/-- No token starts inside a character. -/
theorem tokenStartsAt_inside (a b : Text) (c : Char) {k : Nat} (hk : k + 1 < c.utf8Size) :
    tokenStartsAt (a ++ c :: b) (byteLen a + (k + 1)) = false := by
  have hbyte := getElem?_bytes_add a (c :: b) (k + 1)
  have hlength := String.length_utf8EncodeChar c
  rw [bytes_cons, List.getElem?_append_left (by omega)] at hbyte
  unfold tokenStartsAt byteIs
  rw [hbyte]
  rcases encodeChar_cases c with ⟨x, hx, -⟩ | ⟨-, hbytes⟩
  · rw [hx, List.length_singleton] at hlength
    omega
  · rw [List.getElem?_eq_getElem (by omega), Option.any_some,
      isIdentStartByte_eq_false (hbytes _ (List.getElem_mem _)), Bool.false_and]

end Text

/-! ## §3. Candidates. -/

namespace Pattern

variable {p : Pattern} {before : Option Char} {captures : Captures} {anchor : Text}
  {name : String} {rest : List Segment}

/-- No match begins in a gap in front of `t`. -/
def Passes (p : Pattern) : (before : Option Char) → (gap t : Text) → Prop
  | _, [], _ => True
  | before, c :: gap, t =>
      p.matchFront? before (c :: (gap ++ t)) = none ∧ p.Passes (some c) gap t

/-- The scan goes over such a gap. -/
theorem Passes.scan_eq {gap t : Text} (h : p.Passes before gap t) (offset : Nat) :
    p.scan before offset 0 (gap ++ t)
      = p.scan (lastFrom before gap) (offset + byteLen gap) 0 t := by
  induction gap generalizing before offset with
  | nil => rfl
  | cons c gap ih =>
      obtain ⟨hnone, hpasses⟩ := h
      rw [List.cons_append, scan_miss hnone, ih hpasses, lastFrom_cons, Text.byteLen_cons,
        Nat.add_assoc]

/-- Where the first literal does not stand, nothing matches. -/
theorem matchFront?_of_after?_none {t : Text} (hsegments : p.segments = .literal anchor :: rest)
    (h : Text.after? anchor t = none) : p.matchFront? before t = none := by
  unfold matchFront?
  rw [hsegments, readSegments, h]
  dsimp only [Option.bind_none]
  split <;> rfl

/-- Where no token starts, a pattern that begins with a placeholder does not
match. -/
theorem matchFront?_of_no_token {t : Text} (hsegments : p.segments = .placeholder name :: rest)
    (h : (t.head?.any isIdentStart && !before.any isIdentChar) = false) :
    p.matchFront? before t = none := by
  have hbegins : p.beginsWithIdent = true := by
    unfold beginsWithIdent
    rw [hsegments]
    rfl
  unfold matchFront?
  rw [hbegins, Bool.true_and]
  split
  next => rfl
  next hbefore =>
    rw [Bool.eq_false_iff.2 hbefore, Bool.not_false, Bool.and_true] at h
    have htoken : token? t = none := by
      cases t with
      | nil => rfl
      | cons c cs =>
          rw [token?_cons]
          exact if_neg (Bool.eq_false_iff.1 h)
    rw [hsegments, readSegments, htoken]
    rfl

/-- Looking for the first literal passes what does not match. -/
theorem find?_passes (hsegments : p.segments = .literal anchor :: rest) (hanchor : anchor ≠ [])
    (before : Option Char) (t : Text) : ∃ gap t', t = gap ++ t' ∧ p.Passes before gap t' ∧
      Text.find? anchor t = if t' = [] then none else some (byteLen gap) := by
  induction t generalizing before with
  | nil =>
      refine ⟨[], [], rfl, trivial, ?_⟩
      rw [Text.find?, List.isEmpty_eq_false_iff.2 hanchor]
      rfl
  | cons c t ih =>
      cases hafter : Text.after? anchor (c :: t) with
      | some t' =>
          refine ⟨[], c :: t, rfl, trivial, ?_⟩
          rw [Text.find?, hafter, if_neg (List.cons_ne_nil c t)]
          rfl
      | none =>
          obtain ⟨gap, t', rfl, hpasses, hfind⟩ := ih (some c)
          refine ⟨c :: gap, t', rfl,
            ⟨matchFront?_of_after?_none hsegments hafter, hpasses⟩, ?_⟩
          rw [Text.find?, hafter, Option.isSome_none, if_neg Bool.false_ne_true, hfind]
          split <;> rfl

/-- Looking for the start of a token passes what does not match, byte by byte. -/
theorem findToken_passes (hsegments : p.segments = .placeholder name :: rest) (pre t : Text) :
    ∃ gap t', t = gap ++ t' ∧ p.Passes (lastFrom none pre) gap t' ∧
      (List.range' (byteLen pre) (byteLen t)).find? (pre ++ t).tokenStartsAt
        = if t' = [] then none else some (byteLen pre + byteLen gap) := by
  induction t generalizing pre with
  | nil => exact ⟨[], [], rfl, trivial, rfl⟩
  | cons c t ih =>
      have hcut := Text.tokenStartsAt_append pre (c :: t)
      obtain ⟨k, hk⟩ := Nat.exists_eq_succ_of_ne_zero (Nat.pos_iff_ne_zero.1 c.utf8Size_pos)
      rw [Text.byteLen_cons, ← List.range'_append_1, List.find?_append, hk, List.range'_succ,
        List.find?_cons]
      cases hstarts : Text.tokenStartsAt (pre ++ c :: t) (byteLen pre) with
      | true =>
          refine ⟨[], c :: t, rfl, trivial, ?_⟩
          rw [if_neg (List.cons_ne_nil c t)]
          rfl
      | false =>
          rw [hstarts] at hcut
          -- inside the character there is no start either
          have hinside : (List.range' (byteLen pre + 1) k).find? (pre ++ c :: t).tokenStartsAt
              = none := by
            rw [List.find?_eq_none]
            intro i hi
            obtain ⟨j, hj, rfl⟩ := List.mem_range'.1 hi
            have := Text.tokenStartsAt_inside pre t c (k := j) (by omega)
            rw [show byteLen pre + 1 + 1 * j = byteLen pre + (j + 1) by omega, this]
            exact Bool.false_ne_true
          obtain ⟨gap, t', ht, hpasses, hfind⟩ := ih (pre ++ [c])
          have hpre : byteLen (pre ++ [c]) = byteLen pre + (k + 1) := by
            rw [Text.byteLen_append, Text.byteLen_cons, hk]
            rfl
          rw [hpre, List.append_assoc] at hfind
          refine ⟨c :: gap, t', by rw [ht]; rfl, ⟨?_, ?_⟩, ?_⟩
          · rw [← ht]
            exact matchFront?_of_no_token hsegments hcut.symm
          · rw [Text.lastFrom_append] at hpasses
            exact hpasses
          · rw [hinside]
            show (List.range' (byteLen pre + (k + 1)) (byteLen t)).find? _ = _
            rw [show pre ++ c :: t = pre ++ ([c] ++ t) from rfl, hfind, Text.byteLen_cons, hk,
              Nat.add_assoc]

/-- **The next candidate** is at a cut, and no match begins before it. -/
theorem candidate?_passes (hsolid : p.Solid) (pre t : Text) :
    ∃ gap t', t = gap ++ t' ∧ p.Passes (lastFrom none pre) gap t' ∧
      p.candidate? (pre ++ t) (byteLen pre)
        = some (if t' = [] then none else some (byteLen pre + byteLen gap)) := by
  unfold candidate?
  rw [Text.byteLen_append]
  split
  next hend =>
    have ht : t = [] := Text.eq_nil_of_byteLen_eq_zero (by omega)
    exact ⟨[], [], ht, trivial, rfl⟩
  next =>
    obtain ⟨first, rest, hsegments⟩ := List.exists_cons_of_ne_nil p.segments_ne_nil
    rw [hsegments, List.head?_cons, Nat.add_sub_cancel_left]
    cases first with
    | literal anchor =>
        have hanchor : anchor ≠ [] := by
          rintro rfl
          exact hsolid (hsegments ▸ List.mem_cons_self)
        obtain ⟨gap, t', ht, hpasses, hfind⟩ :=
          find?_passes hsegments hanchor (lastFrom none pre) t
        refine ⟨gap, t', ht, hpasses, ?_⟩
        dsimp only
        rw [Text.cutAt_append, Option.map_some, hfind]
        split <;> rfl
    | placeholder name =>
        obtain ⟨gap, t', ht, hpasses, hfind⟩ := findToken_passes hsegments pre t
        exact ⟨gap, t', ht, hpasses, congrArg some hfind⟩

/-! ## §4. Matches. -/

/-- The end of a token at a cut. -/
theorem runEnd_token {c : Char} (hstart : isIdentStart c = true) (pre cs : Text) :
    (pre ++ c :: cs).runEnd isIdentByte (byteLen pre + 1)
      = byteLen (pre ++ c :: cs.takeWhile isIdentChar) := by
  have hsize := utf8Size_of_isIdentChar (isIdentChar_of_isIdentStart hstart)
  have hstop := Text.runEnd_append asciiOnly_isIdentChar (pre ++ [c]) cs
  rw [Text.byteLen_append, Text.byteLen_cons, Text.byteLen_nil, hsize, List.append_assoc] at hstop
  rw [Text.byteLen_append, Text.byteLen_cons, hsize, ← Nat.add_assoc]
  exact hstop

/-- **Reading at a cut** is reading the text behind it, and ends at a cut. -/
theorem readAt_eq (segments : List Segment) (captures : Captures) (pre t : Text) :
    readAt (pre ++ t) segments captures (byteLen pre)
      = some ((readSegments segments captures t).map fun r =>
          (r.1, byteLen (pre ++ t) - byteLen r.2)) := by
  induction segments generalizing captures pre t with
  | nil =>
      rw [readAt, readSegments, Text.byteLen_append, Option.map_some, Nat.add_sub_cancel]
  | cons s segments ih =>
      cases s with
      | literal anchor =>
          rw [readAt, readSegments, Text.cutAt_append, Option.bind_some]
          dsimp only
          cases hafter : Text.after? anchor t with
          | none => rfl
          | some t' =>
              obtain rfl := Text.after?_eq_some_iff.1 hafter
              rw [Option.isSome_some, if_pos rfl, ← Text.byteLen_append, ← List.append_assoc, ih]
              rfl
      | placeholder name =>
          rw [readAt, readSegments, (Text.byteIs_append pre t).2]
          cases t with
          | nil => rfl
          | cons c cs =>
              rw [token?_cons, List.head?_cons, Option.any_some]
              cases hstart : isIdentStart c with
              | false => rfl
              | true =>
                  have hsplit : pre ++ c :: cs
                      = pre ++ c :: cs.takeWhile isIdentChar ++ cs.dropWhile isIdentChar := by
                    rw [List.append_assoc, List.cons_append, List.takeWhile_append_dropWhile]
                  have hslice := Text.slice?_append pre (c :: cs.takeWhile isIdentChar)
                    (cs.dropWhile isIdentChar)
                  rw [← hsplit, ← Text.byteLen_append] at hslice
                  rw [if_pos rfl, if_pos rfl, runEnd_token hstart]
                  dsimp only
                  rw [hslice, Option.bind_some, Option.bind_some, hsplit]
                  dsimp only
                  cases captures.lookup name with
                  | none => exact ih _ _ _
                  | some bound =>
                      dsimp only
                      split
                      next => exact ih _ _ _
                      next => rfl

/-- **A match is tried at a cut** as it is tried at the front of the text behind
it. -/
theorem matchAt?_eq (p : Pattern) (pre t : Text) :
    p.matchAt? (pre ++ t) (byteLen pre)
      = some ((p.matchFront? (lastFrom none pre) t).map fun r =>
          ⟨byteLen pre, byteLen pre + byteLen (t.take r.2), t.take r.2, r.1⟩) := by
  unfold matchAt? matchFront?
  rw [Bool.and_right_comm, Text.byteIs_pred, Bool.and_comm, readAt_eq, Option.bind_some]
  split
  next => rfl
  next =>
    cases hread : readSegments p.segments [] t with
    | none => rfl
    | some r =>
        obtain ⟨captures, rest⟩ := r
        obtain ⟨u, rfl⟩ := exists_append_of_readSegments hread
        have hcursor : byteLen (pre ++ (u ++ rest)) - byteLen rest = byteLen (pre ++ u) := by
          rw [← List.append_assoc, Text.byteLen_append, Nat.add_sub_cancel]
        have htake : (u ++ rest).take ((u ++ rest).length - rest.length) = u := by
          rw [List.length_append, Nat.add_sub_cancel, List.take_left]
        rw [Option.map_some]
        dsimp only
        rw [hcursor, ← List.append_assoc, (Text.byteIs_append (pre ++ u) rest).1]
        split
        next => rfl
        next =>
          rw [Text.byteLen_append, Text.slice?_append, Option.map_some, Option.map_some, htake]

/-! ## §5. The walk is the scan. -/

/-- **The walk lists the matches of the scan.** -/
theorem findFrom_eq (hsolid : p.Solid) (rounds : Nat) (pre t : Text) (hrounds : byteLen t < rounds) :
    p.findFrom (pre ++ t) rounds (byteLen pre)
      = some (p.scan (lastFrom none pre) (byteLen pre) 0 t) := by
  induction rounds generalizing pre t with
  | zero => omega
  | succ rounds ih =>
      obtain ⟨gap, t', rfl, hpasses, hcandidate⟩ := candidate?_passes hsolid pre t
      rw [findFrom, hcandidate, hpasses.scan_eq, Option.bind_some, ← Text.lastFrom_append,
        ← Text.byteLen_append, ← List.append_assoc]
      rw [Text.byteLen_append] at hrounds
      cases t' with
      | nil => rfl
      | cons c t' =>
          rw [if_neg (List.cons_ne_nil c t')]
          dsimp only
          rw [matchAt?_eq, Option.bind_some]
          cases hmatch : p.matchFront? (lastFrom none (pre ++ gap)) (c :: t') with
          | none =>
              -- one character on
              rw [Option.map_none, scan_miss hmatch]
              dsimp only
              rw [Text.cutAt_append, Option.bind_some]
              have h := ih (pre ++ gap ++ [c]) t' (by
                rw [Text.byteLen_cons] at hrounds
                have := c.utf8Size_pos
                omega)
              rw [Text.lastFrom_append, Text.byteLen_append (pre ++ gap) [c], List.append_assoc] at h
              exact h
          | some r =>
              -- behind the match
              obtain ⟨captures, n⟩ := r
              obtain ⟨u, rest, hsplit, rfl, hfound⟩ := isMatch_of_matchFront? hmatch
              have hne := hfound.ne_nil hsolid
              rw [hsplit] at hmatch hrounds ⊢
              rw [Option.map_some, scan_hit hne hmatch, List.take_left]
              dsimp only
              have hpos : byteLen u ≠ 0 := fun hzero => hne (Text.eq_nil_of_byteLen_eq_zero hzero)
              have h := ih (pre ++ gap ++ u) rest (by
                rw [Text.byteLen_append] at hrounds
                omega)
              rw [Text.lastFrom_append, Text.byteLen_append (pre ++ gap) u, List.append_assoc] at h
              rw [h]
              rfl

end Pattern

end ArtifactPatch
