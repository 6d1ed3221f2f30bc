/-
  ArtifactPatch.Proofs.Text.Overlap
  ─────────────────────────────────
  **TEXTS THAT CANNOT BE LAID OVER EACH OTHER.**

  Two texts are `Apart` if no text has both of them at places that meet.  For
  two given texts that is a finite check.  For texts with a character that each
  has once, at one index, it is enough that they differ when laid over each
  other from the start (`apart_of_mark`): any other shift would put the mark of
  one on another character of the other.
-/
import ArtifactPatch.Text.Basic

namespace ArtifactPatch.Text

/-! ## §1. Agreement. -/

/-- One text begins with the other. -/
def Agree (a b : Text) : Prop := a <+: b ∨ b <+: a

instance (a b : Text) : Decidable (Agree a b) :=
  inferInstanceAs (Decidable (_ ∨ _))

variable {a b s t : Text}

/-- Texts at the front of one text agree. -/
theorem agree_of_append_eq (h : a ++ s = b ++ t) : Agree a b := by
  obtain ⟨v, hb, -⟩ | ⟨v, ha, -⟩ := List.append_eq_append_iff.1 h
  · exact .inl ⟨v, hb.symm⟩
  · exact .inr ⟨v, ha.symm⟩

theorem Agree.exists_append_eq (h : Agree a b) : ∃ s t, a ++ s = b ++ t := by
  rcases h with ⟨v, rfl⟩ | ⟨v, rfl⟩
  · exact ⟨v, [], (List.append_nil _).symm⟩
  · exact ⟨[], v, List.append_nil _⟩

/-- Texts that agree have the same characters, as far as both go. -/
theorem Agree.getElem?_eq (h : Agree a b) {i : Nat} (ha : i < a.length) (hb : i < b.length) :
    a[i]? = b[i]? := by
  rcases h with ⟨v, rfl⟩ | ⟨v, rfl⟩
  · rw [List.getElem?_append_left ha]
  · rw [List.getElem?_append_left hb]

/-- No text has both of them at places that meet. -/
def Apart (a b : Text) : Prop :=
  (∀ k < a.length, ¬Agree (a.drop k) b) ∧ ∀ k < b.length, ¬Agree (b.drop k) a

instance (a b : Text) : Decidable (Apart a b) :=
  inferInstanceAs (Decidable (_ ∧ _))

/-- The end of one of them does not go on as the other. -/
theorem Apart.append_ne (h : Apart a b) {x v : Text} (hsplit : a = x ++ v) (hv : v ≠ []) (s t : Text) :
    v ++ s ≠ b ++ t := by
  intro heq
  subst hsplit
  have hpos := List.length_pos_iff.2 hv
  refine h.1 x.length (by rw [List.length_append]; omega) ?_
  rw [List.drop_left]
  exact agree_of_append_eq heq

theorem Apart.symm (h : Apart a b) : Apart b a := ⟨h.2, h.1⟩

/-! ## §2. A mark. -/

/-- A mark that stands once, at one index, allows no shift. -/
theorem not_agree_drop_of_mark {head a b : Text} {mark : Char} (hhead : mark ∉ head) (ha : mark ∉ a)
    (hlast : ∀ c, (mark :: a).getLast? = some c → c ∉ head) {k : Nat} (hk : 0 < k)
    (hlt : k < (head ++ mark :: a).length) :
    ¬Agree ((head ++ mark :: a).drop k) (head ++ mark :: b) := by
  intro hagree
  rw [List.length_append, List.length_cons] at hlt
  have hb : (head ++ mark :: b).length = head.length + (b.length + 1) := by
    rw [List.length_append, List.length_cons]
  have hd : ((head ++ mark :: a).drop k).length = head.length + (a.length + 1) - k := by
    rw [List.length_drop, List.length_append, List.length_cons]
  have hinHead {i : Nat} (hi : i < head.length) :
      (head ++ mark :: b)[i]? = some head[i] := by
    rw [List.getElem?_append_left hi, List.getElem?_eq_getElem hi]
  by_cases hshort : k ≤ head.length
  · -- the mark of the first would stand within the head of the second
    have hi : head.length - k < head.length := by omega
    have hsame := hagree.getElem?_eq (i := head.length - k) (by omega) (by omega)
    rw [hinHead hi, List.getElem?_drop, List.getElem?_append_right (by omega),
      show k + (head.length - k) - head.length = 0 by omega] at hsame
    exact hhead (Option.some.inj hsame ▸ List.getElem_mem hi)
  · -- the first goes on without a mark, so it ends within the head of the second
    have hdrop : (head ++ mark :: a).drop k = a.drop (k - head.length - 1) := by
      obtain ⟨j, hj⟩ := Nat.exists_eq_add_of_lt (Nat.lt_of_not_le hshort)
      have hindex : k - head.length = j + 1 := by omega
      rw [List.drop_append, List.drop_eq_nil_of_le (by omega), List.nil_append, hindex,
        List.drop_succ_cons, Nat.add_sub_cancel]
    by_cases hlong : head.length < ((head ++ mark :: a).drop k).length
    · have hsame := hagree.getElem?_eq hlong (by omega)
      rw [List.getElem?_append_right (Nat.le_refl _), Nat.sub_self, List.getElem?_cons_zero,
        hdrop] at hsame
      exact ha (List.mem_of_mem_drop (List.mem_of_getElem? hsame))
    · have hi : ((head ++ mark :: a).drop k).length - 1 < head.length := by omega
      have hsame := hagree.getElem?_eq (i := ((head ++ mark :: a).drop k).length - 1) (by omega)
        (by omega)
      rw [hinHead hi, ← List.getLast?_eq_getElem?] at hsame
      refine hlast _ ?_ (List.getElem_mem hi)
      rw [← hsame, List.getLast?_drop, if_neg (by rw [List.length_append, List.length_cons]; omega),
        List.getLast?_append, List.getLast?_cons]
      rfl

/-- Texts with a mark at one index are apart if they do not agree. -/
theorem apart_of_mark {head a b : Text} {mark : Char} (hhead : mark ∉ head) (ha : mark ∉ a)
    (hb : mark ∉ b) (hlasta : ∀ c, (mark :: a).getLast? = some c → c ∉ head)
    (hlastb : ∀ c, (mark :: b).getLast? = some c → c ∉ head)
    (hne : ¬Agree (head ++ mark :: a) (head ++ mark :: b)) :
    Apart (head ++ mark :: a) (head ++ mark :: b) := by
  constructor
  · intro k hk
    rcases Nat.eq_zero_or_pos k with rfl | hpos
    · exact hne
    · exact not_agree_drop_of_mark hhead ha hlasta hpos hk
  · intro k hk
    rcases Nat.eq_zero_or_pos k with rfl | hpos
    · exact fun h => hne h.symm
    · exact not_agree_drop_of_mark hhead hb hlastb hpos hk

end ArtifactPatch.Text
