/-
  ArtifactPatch.Proofs.Text.Search
  ────────────────────────────────
  **COUNTING AND REPLACING A NEEDLE.**

  Both searches walk over a text with a number of characters to skip.  The
  equations here have no such number: a text either begins with the needle,
  which is then passed as a whole, or its first character is passed alone.
  Every text is built in one of these two ways (`search_induction`).
-/
import ArtifactPatch.Proofs.Text.Cut

namespace ArtifactPatch.Text

variable {needle new : Text}

/-! ## §1. The loops. -/

theorem occurrences_go_eq_add (skip : Nat) (t : Text) (hits : Nat) :
    occurrences.go needle skip t hits = hits + occurrences.go needle skip t 0 := by
  induction t generalizing skip hits with
  | nil => simp [occurrences.go]
  | cons c t ih =>
      unfold occurrences.go
      split
      next => exact ih (skip - 1) hits
      next =>
        split
        next =>
          rw [ih _ (hits + 1), ih _ (0 + 1)]
          omega
        next => exact ih 0 hits

theorem occurrences_go_skip (a t : Text) (hits : Nat) :
    occurrences.go needle a.length (a ++ t) hits = occurrences.go needle 0 t hits := by
  induction a with
  | nil => rfl
  | cons c a ih =>
      show occurrences.go needle (a.length + 1) (c :: (a ++ t)) hits = _
      rw [occurrences.go, if_pos (Nat.succ_pos _)]
      exact ih

theorem replaceAll_go_eq_append (skip : Nat) (done t : Text) :
    replaceAll.go needle new skip done t = done.reverse ++ replaceAll.go needle new skip [] t := by
  induction t generalizing skip done with
  | nil => simp [replaceAll.go]
  | cons c t ih =>
      unfold replaceAll.go
      split
      next => exact ih (skip - 1) done
      next =>
        split
        next =>
          rw [ih _ (new.reverse ++ done), ih _ (new.reverse ++ [])]
          simp
        next =>
          rw [ih 0 (c :: done), ih 0 [c]]
          simp

theorem replaceAll_go_skip (a done t : Text) :
    replaceAll.go needle new a.length done (a ++ t) = replaceAll.go needle new 0 done t := by
  induction a with
  | nil => rfl
  | cons c a ih =>
      show replaceAll.go needle new (a.length + 1) done (c :: (a ++ t)) = _
      rw [replaceAll.go, if_pos (Nat.succ_pos _)]
      exact ih

/-! ## §2. Equations. -/

theorem occurrences_eq_go (h : needle ≠ []) (t : Text) :
    occurrences needle t = occurrences.go needle 0 t 0 :=
  if_neg fun hempty => h (List.isEmpty_iff.1 hempty)

theorem replaceAll_eq_go (h : needle ≠ []) (t : Text) :
    replaceAll needle new t = replaceAll.go needle new 0 [] t :=
  if_neg fun hempty => h (List.isEmpty_iff.1 hempty)

@[simp] theorem occurrences_nil : occurrences needle [] = 0 := by
  unfold occurrences
  split
  next => rfl
  next => rfl

@[simp] theorem replaceAll_nil : replaceAll needle new [] = [] := by
  unfold replaceAll
  split
  next => rfl
  next => rfl

/-- A needle in front counts once. -/
theorem occurrences_hit (h : needle ≠ []) (t : Text) :
    occurrences needle (needle ++ t) = occurrences needle t + 1 := by
  rw [occurrences_eq_go h, occurrences_eq_go h]
  cases needle with
  | nil => exact absurd rfl h
  | cons c rest =>
      have hafter : (after? (c :: rest) (c :: (rest ++ t))).isSome = true := by
        rw [after?_eq_some_iff.2 (List.cons_append : _ = (c :: rest) ++ t).symm]
        rfl
      show occurrences.go (c :: rest) 0 (c :: (rest ++ t)) 0 = _
      rw [occurrences.go, if_neg (Nat.lt_irrefl 0), if_pos hafter]
      show occurrences.go (c :: rest) rest.length (rest ++ t) (0 + 1) = _
      rw [occurrences_go_skip, occurrences_go_eq_add]
      omega

/-- A character at which there is no needle does not count. -/
theorem occurrences_miss (h : needle ≠ []) {c : Char} {t : Text}
    (hmiss : after? needle (c :: t) = none) :
    occurrences needle (c :: t) = occurrences needle t := by
  rw [occurrences_eq_go h, occurrences_eq_go h]
  have hnot : ¬(after? needle (c :: t)).isSome = true := by
    rw [hmiss]
    exact Bool.false_ne_true
  rw [occurrences.go, if_neg (Nat.lt_irrefl 0), if_neg hnot]

/-- A needle in front is replaced. -/
theorem replaceAll_hit (h : needle ≠ []) (t : Text) :
    replaceAll needle new (needle ++ t) = new ++ replaceAll needle new t := by
  rw [replaceAll_eq_go h, replaceAll_eq_go h]
  cases needle with
  | nil => exact absurd rfl h
  | cons c rest =>
      have hafter : (after? (c :: rest) (c :: (rest ++ t))).isSome = true := by
        rw [after?_eq_some_iff.2 (List.cons_append : _ = (c :: rest) ++ t).symm]
        rfl
      show replaceAll.go (c :: rest) new 0 [] (c :: (rest ++ t)) = _
      rw [replaceAll.go, if_neg (Nat.lt_irrefl 0), if_pos hafter]
      show replaceAll.go (c :: rest) new rest.length (new.reverse ++ []) (rest ++ t) = _
      rw [replaceAll_go_skip, replaceAll_go_eq_append]
      simp

/-- A character at which there is no needle stays. -/
theorem replaceAll_miss (h : needle ≠ []) {c : Char} {t : Text}
    (hmiss : after? needle (c :: t) = none) :
    replaceAll needle new (c :: t) = c :: replaceAll needle new t := by
  rw [replaceAll_eq_go h, replaceAll_eq_go h]
  have hnot : ¬(after? needle (c :: t)).isSome = true := by
    rw [hmiss]
    exact Bool.false_ne_true
  rw [replaceAll.go, if_neg (Nat.lt_irrefl 0), if_neg hnot, replaceAll_go_eq_append]
  rfl

/-! ## §3. Induction along a search. -/

/-- A text is empty, or begins with the needle, or has a first character at
which there is no needle. -/
@[elab_as_elim] theorem search_induction {motive : Text → Prop} (h : needle ≠ [])
    (nil : motive [])
    (hit : ∀ t, motive t → motive (needle ++ t))
    (miss : ∀ c t, after? needle (c :: t) = none → motive t → motive (c :: t)) (t : Text) :
    motive t := by
  -- a hit leaves a text that is shorter by the needle, so the length decides
  generalize hn : t.length = n
  induction n using Nat.strongRecOn generalizing t with
  | ind n ih =>
    subst hn
    cases t with
    | nil => exact nil
    | cons c t =>
        cases hafter : after? needle (c :: t) with
        | none => exact miss c t hafter (ih t.length (Nat.lt_succ_self _) t rfl)
        | some rest =>
            have hpos : 0 < needle.length := List.length_pos_iff.2 h
            have hsplit := after?_eq_some_iff.1 hafter
            have hlength : (c :: t).length = needle.length + rest.length := by
              rw [hsplit, List.length_append]
            rw [hsplit]
            exact hit rest (ih rest.length (by omega) rest rfl)

end ArtifactPatch.Text
