/-
  ArtifactPatch.Proofs.Text.Greedy
  ────────────────────────────────
  **LEFTMOST HITS ARE THE MOST HITS.**

  A search from the left takes every hit that it comes to and goes on behind
  it (`Greedy`).  Other hits may be packed into the same text one behind the
  other (`Packs`).  Where no hit ends within another that began before it, a
  hit that is taken costs the packing one hit at most, so the search finds as
  many as can be packed (`Packs.le_of_greedy`).  Nothing else is asked of the
  hits, so the search may be for a needle or for the matches of a pattern.
-/
import ArtifactPatch.Proofs.Text.Search

namespace ArtifactPatch.Text

/-! ## §1. The character before. -/

/-- The character before what follows `t`. -/
def lastFrom (before : Option Char) (t : Text) : Option Char :=
  t.getLast?.or before

@[simp] theorem lastFrom_nil (before : Option Char) : lastFrom before [] = before := rfl

@[simp] theorem lastFrom_cons (before : Option Char) (c : Char) (t : Text) :
    lastFrom before (c :: t) = lastFrom (some c) t := by
  unfold lastFrom
  rw [List.getLast?_cons]
  cases t.getLast? <;> rfl

@[simp] theorem lastFrom_append (before : Option Char) (a b : Text) :
    lastFrom before (a ++ b) = lastFrom (lastFrom before a) b := by
  induction a generalizing before with
  | nil => rfl
  | cons c a ih => rw [List.cons_append, lastFrom_cons, ih, lastFrom_cons]

/-! ## §2. Searches and packings. -/

/-- `front before t n`: behind the character `before`, a hit of `n` characters
begins the text `t`. -/
abbrev Front := Option Char → Text → Nat → Prop

/-- A search from the left finds so many hits. -/
inductive Greedy (front : Front) : (before : Option Char) → (hits : Nat) → Text → Prop
  | nil (before : Option Char) : Greedy front before 0 []
  | miss {before : Option Char} {c : Char} {hits : Nat} {t : Text}
      (hnone : ∀ n, ¬front before (c :: t) n) (h : Greedy front (some c) hits t) :
      Greedy front before hits (c :: t)
  | hit {before : Option Char} {hits : Nat} (u rest : Text) (hne : u ≠ [])
      (hfront : front before (u ++ rest) u.length) (h : Greedy front (lastFrom before u) hits rest) :
      Greedy front before (hits + 1) (u ++ rest)

/-- So many hits stand one behind the other. -/
inductive Packs (front : Front) : (before : Option Char) → (hits : Nat) → Text → Prop
  | none (before : Option Char) (t : Text) : Packs front before 0 t
  | skip {before : Option Char} {c : Char} {hits : Nat} {t : Text}
      (h : Packs front (some c) hits t) : Packs front before hits (c :: t)
  | hit {before : Option Char} {hits : Nat} (u rest : Text) (hne : u ≠ [])
      (hfront : front before (u ++ rest) u.length) (h : Packs front (lastFrom before u) hits rest) :
      Packs front before (hits + 1) (u ++ rest)

variable {front : Front} {before : Option Char} {hits n : Nat} {t rest : Text}

/-- What a search finds stands one behind the other. -/
theorem Greedy.packs (h : Greedy front before hits t) : Packs front before hits t := by
  induction h with
  | nil before => exact .none before []
  | miss _ _ ih => exact .skip ih
  | hit u rest hne hfront _ ih => exact .hit u rest hne hfront ih

namespace Packs

theorem skips (a : Text) (h : Packs front (lastFrom before a) n t) :
    Packs front before n (a ++ t) := by
  induction a generalizing before with
  | nil => exact h
  | cons c a ih =>
      rw [lastFrom_cons] at h
      exact .skip (ih h)

/-- One hit may be left out. -/
theorem pred (h : Packs front before n t) : Packs front before (n - 1) t := by
  induction h with
  | none => exact .none _ _
  | skip _ ih => exact .skip ih
  | hit u rest _ _ h _ => exact h.skips u

/-- Hits of one kind are packed as hits of another that they all are. -/
theorem mono {front' : Front} (h : Packs front before n t)
    (hfront : ∀ before t k, front before t k → front' before t k) : Packs front' before n t := by
  induction h with
  | none before t => exact .none before t
  | skip _ ih => exact .skip ih
  | hit u rest hne hhit _ ih => exact .hit u rest hne (hfront _ _ _ hhit) ih

/-- A stretch that no hit within it stays within meets one hit at most. -/
theorem behind {u : Text} (h : Packs front before n (u ++ rest))
    (hinside : ∀ a v k, u = a ++ v → front (lastFrom before a) (v ++ rest) k → v.length ≤ k) :
    Packs front (lastFrom before u) (n - 1) rest := by
  induction u generalizing before n with
  | nil => exact h.pred
  | cons c u ih =>
      rw [lastFrom_cons]
      generalize ht : c :: u ++ rest = t at h
      cases h with
      | none => exact .none _ _
      | skip h =>
          obtain ⟨rfl, rfl⟩ := List.cons.inj ht
          refine ih h fun a v k hu hk => hinside (c :: a) v k (by rw [hu, List.cons_append]) ?_
          rw [lastFrom_cons]
          exact hk
      | @hit _ hits w rest' hne hfront h =>
          -- the hit that begins here reaches to the end of the stretch
          have hlength := hinside [] (c :: u) w.length rfl (ht ▸ hfront)
          obtain ⟨v, hw, hrest⟩ | ⟨v, hw, hrest⟩ := List.append_eq_append_iff.1 ht
          · rw [hw, lastFrom_append, lastFrom_cons] at h
            rw [hrest]
            exact h.skips v
          · have hsame := congrArg List.length hw
            rw [List.length_append] at hsame
            obtain rfl : v = [] := List.eq_nil_of_length_eq_zero (by omega)
            rw [List.append_nil] at hw
            rw [← hw, lastFrom_cons] at h
            rw [← hrest.symm] at h
            exact h

/-- **A search from the left finds as many hits as can be packed.** -/
theorem le_of_greedy
    (hinside : ∀ before a v rest k, front before (a ++ v ++ rest) (a ++ v).length →
      front (lastFrom before a) (v ++ rest) k → v.length ≤ k)
    (h : Packs front before n t) (hgreedy : Greedy front before hits t) : n ≤ hits := by
  induction hgreedy generalizing n with
  | nil before =>
      generalize ht : ([] : Text) = t at h
      cases h with
      | none => exact Nat.le_refl 0
      | skip => cases ht
      | hit u rest hne => exact absurd (List.append_eq_nil_iff.1 ht.symm).1 hne
  | @miss before c hits t hnone _ ih =>
      generalize ht : c :: t = t' at h hnone
      cases h with
      | none => exact Nat.zero_le hits
      | skip h =>
          obtain ⟨rfl, rfl⟩ := List.cons.inj ht
          exact ih h
      | hit u rest _ hfront _ => exact absurd hfront (hnone u.length)
  | @hit before hits u rest hne hfront _ ih =>
      have hbehind := h.behind fun a v k hu hk => hinside before a v rest k (hu ▸ hfront) hk
      have := ih hbehind
      omega

end Packs

/-! ## §3. Needles. -/

/-- A needle begins the text. -/
def needleFront (needle : Text) : Front :=
  fun _ t n => needle <+: t ∧ n = needle.length

/-- Counting a needle is a search from the left. -/
theorem greedy_occurrences {needle : Text} (h : needle ≠ []) (before : Option Char) (t : Text) :
    Greedy (needleFront needle) before (occurrences needle t) t := by
  induction t using search_induction h generalizing before with
  | nil =>
      rw [occurrences_nil]
      exact .nil before
  | hit t ih =>
      rw [occurrences_hit h]
      exact .hit needle t h ⟨List.prefix_append needle t, rfl⟩ (ih _)
  | miss c t hmiss ih =>
      rw [occurrences_miss h hmiss]
      refine .miss (fun n hfront => ?_) (ih (some c))
      obtain ⟨rest, hrest⟩ := hfront.1
      rw [after?_eq_some_iff.2 hrest.symm] at hmiss
      cases hmiss

/-- **As many copies of a needle are counted as stand one behind the other.** -/
theorem Packs.le_occurrences {needle : Text} (hne : needle ≠ [])
    (h : Packs (needleFront needle) before n t) : n ≤ occurrences needle t := by
  refine h.le_of_greedy ?_ (greedy_occurrences hne before t)
  intro _ a v _ k houter hinner
  -- all hits have one length
  have hlength := houter.2
  rw [List.length_append] at hlength
  rw [hinner.2]
  omega

end ArtifactPatch.Text
