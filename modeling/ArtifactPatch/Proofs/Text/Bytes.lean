/-
  ArtifactPatch.Proofs.Text.Bytes
  ───────────────────────────────
  **TEXTS BYTE BY BYTE.**

  Whoever looks at single bytes of a text sees its identifier characters, and
  takes nothing else for one: an identifier character is one byte, and no other
  character has such a byte in it (`encodeChar_cases`).  So the bytes beside a
  cut tell what the characters there do (`splitsIdent_append_iff`), and a run of
  bytes of a kind is a run of characters of that kind (`runEnd_append`).
-/
import ArtifactPatch.Proofs.Pattern.Filling
import ArtifactPatch.Proofs.Text.Cut

namespace ArtifactPatch

/-! ## §1. Bytes. -/

namespace Text

/-- The bytes of a text. -/
def bytes (t : Text) : List UInt8 :=
  (encode t).data.toList

theorem bytes_eq_flatMap (t : Text) : bytes t = t.flatMap String.utf8EncodeChar := by
  show (List.flatMap String.utf8EncodeChar t).toByteArray.data.toList = _
  simp

@[simp] theorem bytes_nil : bytes [] = [] := bytes_eq_flatMap []

@[simp] theorem bytes_cons (c : Char) (t : Text) :
    bytes (c :: t) = String.utf8EncodeChar c ++ bytes t := by
  rw [bytes_eq_flatMap, bytes_eq_flatMap, List.flatMap_cons]

@[simp] theorem bytes_append (a b : Text) : bytes (a ++ b) = bytes a ++ bytes b := by
  rw [bytes_eq_flatMap, bytes_eq_flatMap, bytes_eq_flatMap, List.flatMap_append]

/-- The byte measure counts them. -/
theorem length_bytes (t : Text) : (bytes t).length = byteLen t := by
  induction t with
  | nil => rw [bytes_nil, byteLen_nil, List.length_nil]
  | cons c t ih =>
      rw [bytes_cons, List.length_append, String.length_utf8EncodeChar, ih, byteLen_cons]

/-- The bytes behind a cut. -/
theorem getElem?_bytes_add (a b : Text) (k : Nat) :
    (bytes (a ++ b))[byteLen a + k]? = (bytes b)[k]? := by
  rw [bytes_append, ← length_bytes a, List.getElem?_append_right (Nat.le_add_right _ _),
    Nat.add_sub_cancel_left]

/-- The byte in front of a cut. -/
theorem getElem?_bytes_pred {a : Text} (h : a ≠ []) (b : Text) :
    (bytes (a ++ b))[byteLen a - 1]? = (bytes a).getLast? := by
  have hpos : 0 < byteLen a := Nat.pos_of_ne_zero fun hzero => h (eq_nil_of_byteLen_eq_zero hzero)
  rw [← length_bytes] at hpos ⊢
  rw [bytes_append, List.getElem?_append_left (Nat.sub_lt hpos Nat.one_pos),
    List.getLast?_eq_getElem?]

end Text

/-! ## §2. Identifier bytes. -/

/-- First byte of an identifier token. -/
def isIdentStartByte (b : UInt8) : Bool :=
  isIdentStart (Char.ofUInt8 b)

/-- Byte of an identifier token. -/
def isIdentByte (b : UInt8) : Bool :=
  isIdentChar (Char.ofUInt8 b)

/-- Identifier characters are ASCII. -/
theorem toNat_lt_of_isIdentChar {c : Char} (h : isIdentChar c = true) : c.toNat < 128 := by
  simp only [isIdentChar, isIdentStart, Bool.or_eq_true, Bool.and_eq_true, decide_eq_true_eq,
    beq_iff_eq, Char.le_def, UInt32.le_iff_toNat_le] at h
  have hz : 'z'.val.toNat = 122 := rfl
  have hZ : 'Z'.val.toNat = 90 := rfl
  have h9 : '9'.val.toNat = 57 := rfl
  show c.val.toNat < 128
  rcases h with (((h | h) | rfl) | rfl) | h
  · omega
  · omega
  · decide
  · decide
  · omega

/-- ASCII is one byte, and all other characters have larger bytes only. -/
theorem utf8EncodeChar_cases (c : Char) :
    (∃ b, String.utf8EncodeChar c = [b] ∧ Char.ofUInt8 b = c) ∨
      128 ≤ c.toNat ∧ ∀ b ∈ String.utf8EncodeChar c, 128 ≤ b.toNat := by
  have htoNat (n : Nat) : (UInt8.ofNat n).toNat = n % 256 := UInt8.toNat_ofNat'
  unfold String.utf8EncodeChar
  dsimp only
  split
  next h =>
    refine .inl ⟨_, rfl, Char.ext (UInt32.toNat_inj.1 ?_)⟩
    show (UInt8.ofNat c.val.toNat).toUInt32.toNat = c.val.toNat
    rw [UInt8.toNat_toUInt32, htoNat]
    omega
  next h =>
    refine .inr ⟨Nat.lt_of_not_le h, fun b hb => ?_⟩
    -- the first byte is 192 or more, the others 128 or more
    split at hb
    next =>
      simp only [List.mem_cons, List.not_mem_nil, or_false] at hb
      rcases hb with rfl | rfl
      all_goals rw [htoNat]; omega
    next =>
      split at hb
      all_goals
        simp only [List.mem_cons, List.not_mem_nil, or_false] at hb
      · rcases hb with rfl | rfl | rfl
        all_goals rw [htoNat]; omega
      · rcases hb with rfl | rfl | rfl | rfl
        all_goals rw [htoNat]; omega

/-- A kind of characters of which all are ASCII. -/
def AsciiOnly (kind : Char → Bool) : Prop :=
  ∀ c, kind c = true → c.toNat < 128

/-- **A character of such a kind is one byte, and no other character has a byte
of that kind in it.** -/
theorem AsciiOnly.encodeChar_cases {kind : Char → Bool} (hkind : AsciiOnly kind) (c : Char) :
    (∃ b, String.utf8EncodeChar c = [b] ∧ Char.ofUInt8 b = c) ∨
      kind c = false ∧ ∀ b ∈ String.utf8EncodeChar c, kind (Char.ofUInt8 b) = false := by
  refine (utf8EncodeChar_cases c).imp_right fun hlarge => ⟨?_, fun b hb => ?_⟩
  · refine Bool.eq_false_iff.2 fun hc => ?_
    have := hkind c hc
    omega
  · refine Bool.eq_false_iff.2 fun hc => ?_
    have hlt : b.toUInt32.toNat < 128 := hkind _ hc
    rw [UInt8.toNat_toUInt32] at hlt
    have := hlarge.2 b hb
    omega

/-- A character of such a kind takes one byte of the measure. -/
theorem AsciiOnly.utf8Size_eq {kind : Char → Bool} (hkind : AsciiOnly kind) {c : Char}
    (h : kind c = true) : c.utf8Size = 1 := by
  rcases hkind.encodeChar_cases c with ⟨b, hb, -⟩ | ⟨hnot, -⟩
  · rw [← String.length_utf8EncodeChar, hb]
    rfl
  · rw [h] at hnot
    cases hnot

theorem asciiOnly_isIdentChar : AsciiOnly isIdentChar :=
  fun _ h => toNat_lt_of_isIdentChar h

theorem asciiOnly_isIdentStart : AsciiOnly isIdentStart :=
  fun _ h => toNat_lt_of_isIdentChar (isIdentChar_of_isIdentStart h)

theorem encodeChar_cases (c : Char) :
    (∃ b, String.utf8EncodeChar c = [b] ∧ Char.ofUInt8 b = c) ∨
      isIdentChar c = false ∧ ∀ b ∈ String.utf8EncodeChar c, isIdentByte b = false :=
  asciiOnly_isIdentChar.encodeChar_cases c

theorem isIdentStart_eq_false {c : Char} (h : isIdentChar c = false) : isIdentStart c = false := by
  refine Bool.eq_false_iff.2 fun hstart => ?_
  rw [isIdentChar_of_isIdentStart hstart] at h
  cases h

theorem isIdentStartByte_eq_false {b : UInt8} (h : isIdentByte b = false) :
    isIdentStartByte b = false :=
  isIdentStart_eq_false h

theorem utf8Size_of_isIdentChar {c : Char} (h : isIdentChar c = true) : c.utf8Size = 1 :=
  asciiOnly_isIdentChar.utf8Size_eq h

/-! ## §3. Cuts. -/

namespace Text

/-- The first byte tells of which kind the first character is. -/
theorem any_head?_bytes_of_ascii {kind : Char → Bool} (hkind : AsciiOnly kind) (t : Text) :
    (bytes t).head?.any (fun b => kind (Char.ofUInt8 b)) = t.head?.any kind := by
  cases t with
  | nil =>
      rw [bytes_nil]
      rfl
  | cons c t =>
      rw [bytes_cons]
      rcases hkind.encodeChar_cases c with ⟨b, hb, rfl⟩ | ⟨hnot, hbytes⟩
      · rw [hb]
        rfl
      · obtain ⟨b, rest, henc⟩ :=
          List.exists_cons_of_ne_nil (@String.utf8EncodeChar_ne_nil c)
        have hb := hbytes b (henc ▸ List.mem_cons_self)
        rw [henc]
        exact hb.trans hnot.symm

theorem any_head?_bytes (t : Text) :
    (bytes t).head?.any isIdentByte = beginsWithIdentChar t ∧
      (bytes t).head?.any isIdentStartByte = t.head?.any isIdentStart :=
  ⟨any_head?_bytes_of_ascii asciiOnly_isIdentChar t,
    any_head?_bytes_of_ascii asciiOnly_isIdentStart t⟩

/-- The last byte tells what the last character does. -/
theorem any_getLast?_bytes (t : Text) :
    (bytes t).getLast?.any isIdentByte = endsWithIdentChar t := by
  rcases List.eq_nil_or_concat t with rfl | ⟨t, c, rfl⟩
  · rw [bytes_nil]
    rfl
  · unfold endsWithIdentChar
    rw [List.concat_eq_append, bytes_append, bytes_cons, bytes_nil, List.append_nil,
      List.getLast?_concat]
    rcases encodeChar_cases c with ⟨b, hb, rfl⟩ | ⟨hnot, hbytes⟩
    · rw [hb, List.getLast?_concat]
      rfl
    · have hne : String.utf8EncodeChar c ≠ [] := String.utf8EncodeChar_ne_nil
      rw [List.getLast?_append, List.getLast?_eq_some_getLast hne]
      exact (hbytes _ (List.getLast_mem hne)).trans hnot.symm

/-- A position between two identifier bytes. -/
def SplitsIdent (t : Text) (i : Nat) : Prop :=
  ∃ j first second, i = j + 1 ∧ (bytes t)[j]? = some first ∧ (bytes t)[i]? = some second ∧
    isIdentByte first = true ∧ isIdentByte second = true

/-- **Between two identifier bytes at a cut** is between two identifier
characters. -/
theorem splitsIdent_append_iff (a b : Text) :
    SplitsIdent (a ++ b) (byteLen a) ↔
      endsWithIdentChar a = true ∧ beginsWithIdentChar b = true := by
  have hbehind := getElem?_bytes_add a b 0
  rw [Nat.add_zero, ← List.head?_eq_getElem?] at hbehind
  by_cases hne : a = []
  · subst hne
    refine iff_of_false (fun hsplits => ?_) fun hends => by cases hends.1
    obtain ⟨j, _, _, hj, -⟩ := hsplits
    cases hj
  · have hbefore := getElem?_bytes_pred hne b
    have hpos : byteLen a ≠ 0 := fun hzero => hne (eq_nil_of_byteLen_eq_zero hzero)
    rw [← any_getLast?_bytes, ← (any_head?_bytes b).1, Option.any_eq_true, Option.any_eq_true]
    constructor
    · rintro ⟨j, first, second, hj, hfirst, hsecond, hident, hident'⟩
      rw [hj, Nat.add_sub_cancel, hfirst] at hbefore
      rw [hsecond] at hbehind
      exact ⟨⟨first, hbefore.symm, hident⟩, second, hbehind.symm, hident'⟩
    · rintro ⟨⟨first, hfirst, hident⟩, second, hsecond, hident'⟩
      exact ⟨byteLen a - 1, first, second, by omega, hbefore.trans hfirst, hbehind.trans hsecond,
        hident, hident'⟩

/-! ## §4. Runs. -/

/-- Where a run of bytes of a kind ends that begins at a position. -/
def runEnd (kind : UInt8 → Bool) (t : Text) (i : Nat) : Nat :=
  i + (((bytes t).drop i).takeWhile kind).length

theorem length_takeWhile_bytes {kind : Char → Bool} (hkind : AsciiOnly kind) (t : Text) :
    ((bytes t).takeWhile fun b => kind (Char.ofUInt8 b)).length = byteLen (t.takeWhile kind) := by
  induction t with
  | nil =>
      rw [bytes_nil]
      rfl
  | cons c t ih =>
      rw [bytes_cons]
      rcases hkind.encodeChar_cases c with ⟨b, hb, rfl⟩ | ⟨hnot, hbytes⟩
      · rw [hb, List.singleton_append, List.takeWhile_cons, List.takeWhile_cons]
        split
        next hc =>
          rw [List.length_cons, byteLen_cons, hkind.utf8Size_eq hc, ih, Nat.add_comm]
        next => rfl
      · rw [List.takeWhile_cons, hnot]
        obtain ⟨b, rest, henc⟩ :=
          List.exists_cons_of_ne_nil (@String.utf8EncodeChar_ne_nil c)
        rw [henc, List.cons_append, List.takeWhile_cons, hbytes b (henc ▸ List.mem_cons_self)]
        rfl

/-- **A run of bytes of a kind behind a cut** is a run of characters of it. -/
theorem runEnd_append {kind : Char → Bool} (hkind : AsciiOnly kind) (a b : Text) :
    runEnd (fun x => kind (Char.ofUInt8 x)) (a ++ b) (byteLen a)
      = byteLen a + byteLen (b.takeWhile kind) := by
  unfold runEnd
  rw [bytes_append, ← length_bytes a, List.drop_left, length_takeWhile_bytes hkind]

end Text

end ArtifactPatch
