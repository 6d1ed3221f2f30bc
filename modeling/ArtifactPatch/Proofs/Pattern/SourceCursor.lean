/-
  ArtifactPatch.Proofs.Pattern.SourceCursor
  ─────────────────────────────────────────
  **READING A SOURCE BY BYTE POSITIONS.**

  `Segment.readFrom` reads with a position in bytes, the literal that is pending and
  the segments in front of it.  At a dollar sign it looks at the byte behind; every
  slice on the way is partial, and there is a number of rounds to spend.  With a
  round for every byte and one more it reads what `Segment.parse?` reads
  (`readFrom_eq`).  Main result: `parse_inverse_render`.
-/
import ArtifactPatch.Proofs.Pattern.Cursor
import ArtifactPatch.Proofs.Pattern.Notation

namespace ArtifactPatch

open Text (byteLen)

namespace Segment

/-! ## §1. The walk. -/

/-- The byte of a dollar sign. -/
def isDollarByte (b : UInt8) : Bool :=
  Char.ofUInt8 b == '$'

/-- First byte of a placeholder name. -/
def isNameStartByte (b : UInt8) : Bool :=
  isNameStart (Char.ofUInt8 b)

/-- Byte of a placeholder name. -/
def isNameByte (b : UInt8) : Bool :=
  isNameChar (Char.ofUInt8 b)

/-- The segments so far, with the literal that was pending. -/
def close (done : List Segment) (pending : Text) : List Segment :=
  if pending.isEmpty then done else done ++ [.literal pending]

/-- Read a source from a byte position on, in so many rounds; `pending` is the literal
that has begun, and `done` the segments before it.  A slice that is off a boundary
answers `none`, and so does a round too many. -/
def readFrom (source : Text) : (rounds pos : Nat) → (pending : Text) → (done : List Segment) →
    Option (Except Nat (List Segment))
  | 0, _, _, _ => none
  | rounds + 1, pos, pending, done =>
      if byteLen source ≤ pos then some (.ok (close done pending))
      else if !source.byteIs isDollarByte pos then
        (Text.cutAt pos source).bind fun (_, rest) =>
          let c := rest.head?.getD '\x00'
          readFrom source rounds (pos + c.utf8Size) (pending ++ [c]) done
      else if source.byteIs isDollarByte (pos + 1) then
        readFrom source rounds (pos + 2) (pending ++ ['$']) done
      else if source.byteIs isNameStartByte (pos + 1) then
        let stop := source.runEnd isNameByte (pos + 1)
        (Text.slice? (pos + 1) stop source).bind fun name =>
          readFrom source rounds stop []
            (close done pending ++ [.placeholder (String.ofList name)])
      else some (.error pos)

/-! ## §2. One round. -/

theorem asciiOnly_dollar : AsciiOnly (· == '$') := by
  intro c hc
  rw [beq_iff_eq.1 hc]
  decide

theorem asciiOnly_isNameStart : AsciiOnly isNameStart :=
  fun c hc => asciiOnly_isNameChar c (isNameChar_of_isNameStart hc)

/-- A pending literal is closed as its characters are put in front of what follows. -/
theorem close_append_of_ne_literal (done : List Segment) (pending : Text) {rest : List Segment}
    (hrest : ∀ lit others, rest ≠ .literal lit :: others) :
    close done pending ++ rest = done ++ pending.foldr consChar rest := by
  unfold close
  cases pending with
  | nil => rfl
  | cons c pending =>
      rw [foldr_consChar (List.cons_ne_nil c pending) hrest]
      simp

theorem close_eq (done : List Segment) (pending : Text) :
    close done pending = done ++ pending.foldr consChar [] := by
  rw [← close_append_of_ne_literal done pending (by simp), List.append_nil]

theorem close_append (done : List Segment) (pending : Text) (name : String)
    (rest : List Segment) :
    close done pending ++ .placeholder name :: rest
      = done ++ pending.foldr consChar (.placeholder name :: rest) :=
  close_append_of_ne_literal done pending (by simp)

section

variable {rounds : Nat} {pre pending : Text} {done : List Segment}

/-- At a cut there is a byte to read if there is a character. -/
theorem not_at_end (pre : Text) (c : Char) (rest : Text) :
    ¬byteLen (pre ++ c :: rest) ≤ byteLen pre := by
  have hpos := c.utf8Size_pos
  rw [Text.byteLen_append, Text.byteLen_cons]
  omega

/-- Whether a dollar sign stands at a cut. -/
theorem byteIs_dollar (pre t : Text) :
    (pre ++ t).byteIs isDollarByte (byteLen pre) = t.head?.any (· == '$') :=
  Text.byteIs_append_of_ascii asciiOnly_dollar pre t

theorem readFrom_end (pre pending : Text) (done : List Segment) :
    readFrom (pre ++ []) (rounds + 1) (byteLen pre) pending done
      = some (.ok (close done pending)) := by
  rw [List.append_nil, readFrom, if_pos (Nat.le_refl _)]

theorem readFrom_char {c : Char} (hc : c ≠ '$') (rest : Text) :
    readFrom (pre ++ c :: rest) (rounds + 1) (byteLen pre) pending done
      = readFrom (pre ++ [c] ++ rest) rounds (byteLen (pre ++ [c])) (pending ++ [c]) done := by
  have hbyte : (pre ++ c :: rest).byteIs isDollarByte (byteLen pre) = false := by
    rw [byteIs_dollar]
    exact beq_false_of_ne hc
  rw [readFrom, if_neg (not_at_end pre c rest), hbyte, Text.cutAt_append, Text.byteLen_append,
    List.append_assoc]
  rfl

/-- A byte behind a dollar sign at a cut. -/
theorem byteIs_behind_dollar {kind : Char → Bool} (hkind : AsciiOnly kind) (pre rest : Text) :
    (pre ++ '$' :: rest).byteIs (fun b => kind (Char.ofUInt8 b)) (byteLen pre + 1)
      = rest.head?.any kind := by
  have h := Text.byteIs_append_of_ascii hkind (pre ++ ['$']) rest
  rw [Text.byteLen_append, List.append_assoc] at h
  exact h

/-- At a dollar sign, the character behind it decides. -/
theorem readFrom_at_dollar (rest : Text) :
    readFrom (pre ++ '$' :: rest) (rounds + 1) (byteLen pre) pending done
      = if rest.head?.any (· == '$') then
          readFrom (pre ++ '$' :: rest) rounds (byteLen pre + 2) (pending ++ ['$']) done
        else if rest.head?.any isNameStart then
          (Text.slice? (byteLen pre + 1)
              ((pre ++ '$' :: rest).runEnd isNameByte (byteLen pre + 1)) (pre ++ '$' :: rest)).bind
            fun name => readFrom (pre ++ '$' :: rest) rounds
              ((pre ++ '$' :: rest).runEnd isNameByte (byteLen pre + 1)) []
              (close done pending ++ [.placeholder (String.ofList name)])
        else some (.error (byteLen pre)) := by
  have hfront : (pre ++ '$' :: rest).byteIs isDollarByte (byteLen pre) = true :=
    byteIs_dollar pre ('$' :: rest)
  have hdollar : (pre ++ '$' :: rest).byteIs isDollarByte (byteLen pre + 1)
      = rest.head?.any (· == '$') := byteIs_behind_dollar asciiOnly_dollar pre rest
  have hstart : (pre ++ '$' :: rest).byteIs isNameStartByte (byteLen pre + 1)
      = rest.head?.any isNameStart := byteIs_behind_dollar asciiOnly_isNameStart pre rest
  rw [readFrom, if_neg (not_at_end pre '$' rest), hfront, hdollar, hstart, Bool.not_true,
    if_neg Bool.false_ne_true]

theorem readFrom_dollar (rest : Text) :
    readFrom (pre ++ '$' :: '$' :: rest) (rounds + 1) (byteLen pre) pending done
      = readFrom (pre ++ ['$', '$'] ++ rest) rounds (byteLen (pre ++ ['$', '$']))
          (pending ++ ['$']) done := by
  have hsecond : ('$' :: rest).head?.any (· == '$') = true := rfl
  rw [readFrom_at_dollar, hsecond, if_pos rfl, Text.byteLen_append, List.append_assoc]
  rfl

theorem readFrom_name {name rest : Text} (hname : IsName name) (hend : NameEnds rest) :
    readFrom (pre ++ '$' :: (name ++ rest)) (rounds + 1) (byteLen pre) pending done
      = readFrom (pre ++ '$' :: name ++ rest) rounds (byteLen (pre ++ '$' :: name)) []
          (close done pending ++ [.placeholder (String.ofList name)]) := by
  have hsource : pre ++ '$' :: (name ++ rest) = pre ++ ['$'] ++ (name ++ rest) := by simp
  have hpos : byteLen (pre ++ ['$']) = byteLen pre + 1 := Text.byteLen_append pre ['$']
  -- the name reaches as far as there are bytes of names
  have hstop : (pre ++ '$' :: (name ++ rest)).runEnd isNameByte (byteLen pre + 1)
      = byteLen pre + 1 + byteLen name := by
    have h := Text.runEnd_append asciiOnly_isNameChar (pre ++ ['$']) (name ++ rest)
    rw [(takeWhile_append_of_seam hname.isNameChar hend).1, ← hsource, hpos] at h
    exact h
  have hslice : Text.slice? (byteLen pre + 1) (byteLen pre + 1 + byteLen name)
      (pre ++ '$' :: (name ++ rest)) = some name := by
    have h := Text.slice?_append (pre ++ ['$']) name rest
    rw [List.append_assoc (pre ++ ['$']), ← hsource, hpos] at h
    exact h
  have hlong : byteLen (pre ++ '$' :: name) = byteLen pre + 1 + byteLen name := by
    rw [Text.byteLen_append, Text.byteLen_cons, ← Nat.add_assoc]
    rfl
  have hstart : ((name ++ rest).head?.any (· == '$')) = false ∧
      (name ++ rest).head?.any isNameStart = true := by
    cases name with
    | nil => exact hname.elim
    | cons d ds => exact ⟨beq_false_of_ne (ne_dollar_of_isNameStart hname.1), hname.1⟩
  rw [readFrom_at_dollar, hstart.1, if_neg Bool.false_ne_true, if_pos hstart.2, hstop, hslice,
    hlong, List.append_assoc]
  rfl

theorem readFrom_stray {t : Text} (h : Stray t) :
    readFrom (pre ++ t) (rounds + 1) (byteLen pre) pending done
      = some (.error (byteLen pre)) := by
  obtain ⟨rest, rfl, hdollar, hname⟩ := h
  have hother : rest.head?.any (· == '$') = false := by
    cases rest with
    | nil => rfl
    | cons d rest => exact beq_false_of_ne fun heq => hdollar (congrArg some heq)
  rw [readFrom_at_dollar, hother, hname, if_neg Bool.false_ne_true, if_neg Bool.false_ne_true]

/-! ## §3. The whole walk. -/

/-- **Reading by byte positions** reads the same, and makes no slice off a boundary.
Each round takes one form, which is a byte or more. -/
theorem readFrom_eq (t : Text) (hrounds : byteLen t < rounds) :
    readFrom (pre ++ t) rounds (byteLen pre) pending done
      = some ((parse? (byteLen pre) t).map fun segments =>
          done ++ pending.foldr consChar segments) := by
  induction t using source_induction generalizing rounds pre pending done with
  | nil =>
      obtain ⟨rounds, rfl⟩ := Nat.exists_eq_add_one_of_ne_zero (Nat.ne_zero_of_lt hrounds)
      rw [readFrom_end, parse?_nil, close_eq]
      rfl
  | char c rest hc ih =>
      obtain ⟨rounds, rfl⟩ := Nat.exists_eq_add_one_of_ne_zero (Nat.ne_zero_of_lt hrounds)
      have hpos := c.utf8Size_pos
      rw [Text.byteLen_cons] at hrounds
      have hsize : byteLen (pre ++ [c]) = byteLen pre + c.utf8Size := Text.byteLen_append pre [c]
      rw [readFrom_char hc, ih (by omega), parse?_char hc, hsize, Except.map_map]
      simp only [List.foldr_append, List.foldr_cons, List.foldr_nil]
  | dollar rest ih =>
      obtain ⟨rounds, rfl⟩ := Nat.exists_eq_add_one_of_ne_zero (Nat.ne_zero_of_lt hrounds)
      have hsize : byteLen ('$' :: '$' :: rest) = 2 + byteLen rest :=
        (Nat.add_assoc 1 1 (byteLen rest)).symm
      have hpre : byteLen (pre ++ ['$', '$']) = byteLen pre + 2 := Text.byteLen_append pre _
      rw [readFrom_dollar, ih (by omega), parse?_dollar, hpre, Except.map_map]
      simp only [List.foldr_append, List.foldr_cons, List.foldr_nil]
  | name name rest hname hend ih =>
      obtain ⟨rounds, rfl⟩ := Nat.exists_eq_add_one_of_ne_zero (Nat.ne_zero_of_lt hrounds)
      have hsize : byteLen ('$' :: (name ++ rest)) = 1 + byteLen name + byteLen rest := by
        rw [Text.byteLen_cons, Text.byteLen_append, ← Nat.add_assoc]
        rfl
      rw [readFrom_name hname hend, ih (by omega), parse?_name hname hend, Text.byteLen_append,
        Except.map_map]
      -- the pending literal is closed in front of the placeholder
      refine congrArg some (congrArg (Except.map · _) (funext fun segments => ?_))
      show close done pending ++ [.placeholder (String.ofList name)] ++ segments = _
      rw [List.append_assoc]
      exact close_append done pending (String.ofList name) segments
  | stray t hstray =>
      obtain ⟨rounds, rfl⟩ := Nat.exists_eq_add_one_of_ne_zero (Nat.ne_zero_of_lt hrounds)
      rw [readFrom_stray hstray, parse?_stray hstray]
      rfl

end

/-! ## §4. Main result. -/

/-- **Reading and writing are inverse to each other** between the sources of the
notation and normal segments; any other text is refused at its first stray dollar sign,
and the positions at which the text is sliced are boundaries. -/
theorem parse_inverse_render (source : String) :
    ((∃ segments, parse source = .ok segments) ↔ Source source.toList) ∧
    (∀ segments, parse source = .ok segments →
      String.ofList (render segments) = source ∧ Normal segments) ∧
    (∀ segments, Normal segments → parse (String.ofList (render segments)) = .ok segments) ∧
    (∀ e, parse source = .error e ↔ ∃ front rest, source.toList = front ++ rest ∧
      Source front ∧ Stray rest ∧ e = .invalidPlaceholder (byteLen front) source) ∧
    ∀ rounds, byteLen source.toList < rounds →
      readFrom source.toList rounds 0 [] [] = some (parse? 0 source.toList) := by
  refine ⟨?_, ?_, ?_, ?_, ?_⟩
  · simp only [parse_eq_ok_iff]
    exact exists_parse?_iff
  · intro segments h
    exact ⟨source_eq_of_parse h, (normal_and_render_of_parse? (parse_eq_ok_iff.1 h)).1⟩
  · intro segments h
    rw [parse_eq_ok_iff, String.toList_ofList]
    exact parse?_render h 0
  · intro e
    rw [parse_eq_error_iff]
    simp only [parse?_eq_error_iff, Nat.zero_add]
    constructor
    · intro h
      obtain ⟨k, ⟨front, rest, ht, hfront, hstray, rfl⟩, he⟩ := h
      exact ⟨front, rest, ht, hfront, hstray, he⟩
    · intro h
      obtain ⟨front, rest, ht, hfront, hstray, he⟩ := h
      exact ⟨_, ⟨front, rest, ht, hfront, hstray, rfl⟩, he⟩
  · intro rounds hrounds
    have h : readFrom ([] ++ source.toList) rounds (byteLen []) [] []
        = some ((parse? (byteLen []) source.toList).map fun segments =>
            [] ++ ([] : Text).foldr consChar segments) := readFrom_eq source.toList hrounds
    rw [show byteLen [] = 0 from rfl, List.nil_append] at h
    rw [h]
    cases parse? 0 source.toList <;> rfl

/-- Behind a character of two bytes and three dollar signs stands a name, or there is
one dollar sign too many. -/
theorem parse_inverse_render_sample :
    parse "é$$$A1.c" = .ok [.literal "é$".toList, .placeholder "A1", .literal ".c".toList] ∧
    Source "é$$$A1.c".toList ∧
    parse "é$$$A1$" = .error (.invalidPlaceholder 7 "é$$$A1$") ∧
    readFrom "é$$$A1$".toList 9 0 [] [] = some (.error 7) := by
  have hnormal : Normal [.literal "é$".toList, .placeholder "A1", .literal ".c".toList] := by
    decide
  have hrender : String.ofList (render [.literal "é$".toList, .placeholder "A1",
      .literal ".c".toList]) = "é$$$A1.c" := by decide +kernel
  have hparse : parse "é$$$A1.c"
      = .ok [.literal "é$".toList, .placeholder "A1", .literal ".c".toList] := by
    rw [← hrender]
    exact (parse_inverse_render "é$$$A1.c").2.2.1 _ hnormal
  have hrefused : parse "é$$$A1$" = .error (.invalidPlaceholder 7 "é$$$A1$") := by
    have hname : IsName ['A', '1'] := by decide
    have hfront : Source "é$$$A1".toList := .char (by decide) (.dollar (.name hname rfl .nil))
    have hstray : Stray ['$'] := ⟨[], rfl, by decide, rfl⟩
    exact ((parse_inverse_render "é$$$A1$").2.2.2.1 _).2 ⟨_, _, rfl, hfront, hstray, rfl⟩
  refine ⟨hparse, (parse_inverse_render "é$$$A1.c").1.1 ⟨_, hparse⟩, hrefused, ?_⟩
  rw [(parse_inverse_render "é$$$A1$").2.2.2.2 9 (by decide)]
  obtain ⟨k, hk, he⟩ := parse_eq_error_iff.1 hrefused
  rw [hk, ← (RuleError.invalidPlaceholder.inj he).1]

end Segment

end ArtifactPatch
