/-
  ArtifactPatch.Proofs.Text.Cut
  ─────────────────────────────
  **CUTS AND THE BYTE MEASURE.**

  A cut at a byte offset exists exactly when the offset is the measure of a
  front part of the text, and then it separates that part from the rest:

      cutAt n t = some (a, b)  ↔  t = a ++ b ∧ byteLen a = n

  From this one equivalence follow the laws of `slice?` and of `after?`, so
  nothing after this module opens the loop of `cutAt`.
-/
import ArtifactPatch.Text.Basic

namespace ArtifactPatch.Text

/-! ## §1. The byte measure. -/

@[simp] theorem byteLen_nil : byteLen [] = 0 := rfl

@[simp] theorem byteLen_cons (c : Char) (t : Text) :
    byteLen (c :: t) = c.utf8Size + byteLen t := rfl

@[simp] theorem byteLen_append (a b : Text) : byteLen (a ++ b) = byteLen a + byteLen b := by
  induction a with
  | nil => simp
  | cons c a ih => rw [List.cons_append, byteLen_cons, byteLen_cons, ih, Nat.add_assoc]

/-- A character takes a byte or more, so only the empty text has no bytes. -/
theorem eq_nil_of_byteLen_eq_zero {t : Text} (h : byteLen t = 0) : t = [] := by
  cases t with
  | nil => rfl
  | cons c t =>
      have hpos := c.utf8Size_pos
      rw [byteLen_cons] at h
      omega

/-- Where a text is parted in two ways, the longer first part goes on behind the
other one. -/
theorem exists_append_of_byteLen_le {a b c d : Text} (h : a ++ b = c ++ d)
    (hle : byteLen a ≤ byteLen c) : ∃ w, c = a ++ w ∧ b = w ++ d := by
  obtain ⟨w, hc, hb⟩ | ⟨w, rfl, rfl⟩ := List.append_eq_append_iff.1 h
  · exact ⟨w, hc, hb⟩
  · rw [byteLen_append] at hle
    obtain rfl : w = [] := eq_nil_of_byteLen_eq_zero (by omega)
    exact ⟨[], by rw [List.append_nil, List.append_nil], rfl⟩

/-! ## §2. Cuts. -/

/-- The loop of `cutAt` with the characters it has passed put in front. -/
theorem cutAt_go_eq_some_iff (n : Nat) (seen t a b : Text) :
    cutAt.go n seen t = some (a, b)
      ↔ ∃ a', a = seen.reverse ++ a' ∧ t = a' ++ b ∧ byteLen a' = n := by
  induction t generalizing n seen with
  | nil =>
      cases n with
      | zero =>
          simp only [cutAt.go, Option.some.injEq, Prod.mk.injEq]
          constructor
          · rintro ⟨rfl, rfl⟩
            exact ⟨[], by simp⟩
          · rintro ⟨a', rfl, ht, -⟩
            obtain ⟨rfl, rfl⟩ := List.append_eq_nil_iff.1 ht.symm
            simp
      | succ n =>
          simp only [cutAt.go, reduceCtorEq, false_iff]
          rintro ⟨a', -, ht, hn⟩
          obtain ⟨rfl, rfl⟩ := List.append_eq_nil_iff.1 ht.symm
          simp at hn
  | cons c t ih =>
      have hpos := c.utf8Size_pos
      cases n with
      | zero =>
          simp only [cutAt.go, Option.some.injEq, Prod.mk.injEq]
          constructor
          · rintro ⟨rfl, rfl⟩
            exact ⟨[], by simp⟩
          · rintro ⟨a', rfl, ht, hn⟩
            rw [eq_nil_of_byteLen_eq_zero hn] at ht ⊢
            exact ⟨by simp, ht⟩
      | succ n =>
          rw [cutAt.go]
          split
          next hfit =>
            -- the character moves from the rest to the front part
            rw [ih]
            constructor
            · rintro ⟨a', rfl, rfl, hn⟩
              exact ⟨c :: a', by simp, rfl, by rw [byteLen_cons]; omega⟩
            · rintro ⟨a', rfl, ht, hn⟩
              cases a' with
              | nil => simp at hn
              | cons d a' =>
                  obtain ⟨rfl, rfl⟩ := List.cons.inj ht
                  rw [byteLen_cons] at hn
                  exact ⟨a', by simp, rfl, by omega⟩
          next hbig =>
            -- a front part of this measure would end inside the character
            simp only [reduceCtorEq, false_iff]
            rintro ⟨a', -, ht, hn⟩
            cases a' with
            | nil => simp at hn
            | cons d a' =>
                obtain ⟨rfl, -⟩ := List.cons.inj ht
                rw [byteLen_cons] at hn
                omega

/-- **What a cut is.** -/
theorem cutAt_eq_some_iff {n : Nat} {t a b : Text} :
    cutAt n t = some (a, b) ↔ t = a ++ b ∧ byteLen a = n := by
  unfold cutAt
  rw [cutAt_go_eq_some_iff]
  constructor
  · rintro ⟨a', rfl, ht, hn⟩
    exact ⟨by simpa using ht, by simpa using hn⟩
  · rintro ⟨ht, hn⟩
    exact ⟨a, by simp, ht, hn⟩

theorem cutAt_append (a b : Text) : cutAt (byteLen a) (a ++ b) = some (a, b) :=
  cutAt_eq_some_iff.2 ⟨rfl, rfl⟩

/-! ## §3. Slices. -/

/-- **What a slice is**: a stretch of the text between two cuts. -/
theorem slice?_eq_some_iff {i j : Nat} {t b : Text} :
    slice? i j t = some b
      ↔ ∃ a c, t = a ++ b ++ c ∧ byteLen a = i ∧ i + byteLen b = j := by
  unfold slice?
  split
  next hij =>
    constructor
    · intro h
      obtain ⟨⟨a, rest⟩, ha, h⟩ := Option.bind_eq_some_iff.1 h
      obtain ⟨⟨b', c⟩, hb, rfl⟩ := Option.map_eq_some_iff.1 h
      obtain ⟨rfl, rfl⟩ := cutAt_eq_some_iff.1 ha
      obtain ⟨rfl, hb⟩ := cutAt_eq_some_iff.1 hb
      exact ⟨a, c, by simp, rfl, by show byteLen a + byteLen b' = j; omega⟩
    · rintro ⟨a, c, rfl, rfl, rfl⟩
      rw [List.append_assoc, cutAt_append]
      show (cutAt (byteLen a + byteLen b - byteLen a) (b ++ c)).map Prod.fst = some b
      rw [Nat.add_sub_cancel_left, cutAt_append]
      rfl
  next hij =>
    simp only [reduceCtorEq, false_iff]
    rintro ⟨a, c, -, -, rfl⟩
    omega

theorem slice?_append (a b c : Text) :
    slice? (byteLen a) (byteLen a + byteLen b) (a ++ b ++ c) = some b :=
  slice?_eq_some_iff.2 ⟨a, c, rfl, rfl, rfl⟩

/-! ## §4. Texts that begin with another. -/

theorem after?_eq_some_iff {head t rest : Text} :
    after? head t = some rest ↔ t = head ++ rest := by
  induction head generalizing t with
  | nil => simp [after?]
  | cons h head ih =>
      cases t with
      | nil => simp [after?]
      | cons c t =>
          rw [after?]
          split
          next heq =>
            rw [ih, heq, List.cons_append, List.cons.injEq]
            simp
          next hne =>
            simp only [reduceCtorEq, false_iff]
            intro ht
            exact hne (List.cons.inj ht).1.symm

end ArtifactPatch.Text
