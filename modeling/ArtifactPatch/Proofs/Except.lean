/-
  ArtifactPatch.Proofs.Except
  ───────────────────────────
  **COMPUTATIONS THAT SUCCEED OR FAIL.**

  When a sequence of computations succeeds, when a mapped result or one with
  reworded failures succeeds or fails, and what a list of computations gives.
-/
import Mathlib.Data.List.Forall2

namespace ArtifactPatch

namespace Except

variable {ε ε' α β γ : Type} {r : Except ε α}

/-- A sequence succeeds when its parts do. -/
theorem bind_eq_ok_iff {f : α → Except ε β} {b : β} :
    (r >>= f) = .ok b ↔ ∃ a, r = .ok a ∧ f a = .ok b := by
  cases r with
  | ok a =>
      constructor
      · intro h
        exact ⟨a, rfl, h⟩
      · intro h
        obtain ⟨a', ha, h⟩ := h
        obtain rfl := Except.ok.inj ha
        exact h
  | error e =>
      constructor
      · intro h
        cases h
      · intro h
        obtain ⟨a, ha, -⟩ := h
        cases ha

/-- What a mapped result is the image of. -/
theorem exists_of_map_eq_ok {f : α → β} {b : β} (h : r.map f = .ok b) :
    ∃ a, r = .ok a ∧ b = f a := by
  cases r with
  | error e => cases h
  | ok a => exact ⟨a, rfl, (Except.ok.inj h).symm⟩

/-- A mapped result fails as the result does. -/
theorem error_of_map_eq_error {f : α → β} {e : ε} (h : r.map f = .error e) : r = .error e := by
  cases r with
  | error e' => exact congrArg Except.error (Except.error.inj h)
  | ok a => cases h

theorem map_map (r : Except ε α) (f : α → β) (g : β → γ) :
    (r.map f).map g = r.map fun a => g (f a) := by
  cases r with
  | error e => rfl
  | ok a => rfl

/-- Rewording failures does not touch a success. -/
theorem mapError_eq_ok_iff {f : ε → ε'} {a : α} : r.mapError f = .ok a ↔ r = .ok a := by
  cases r with
  | error e =>
      refine iff_of_false (fun h => ?_) fun h => ?_
      · cases h
      · cases h
  | ok b => rw [Except.mapError, Except.ok.injEq, Except.ok.injEq]

/-- What a reworded failure is the image of. -/
theorem exists_of_mapError_eq_error {f : ε → ε'} {e' : ε'} (h : r.mapError f = .error e') :
    ∃ e, r = .error e ∧ f e = e' := by
  cases r with
  | error e => exact ⟨e, rfl, Except.error.inj h⟩
  | ok a => cases h

theorem toOption_eq_some_iff {a : α} : r.toOption = some a ↔ r = .ok a := by
  cases r with
  | error e =>
      refine iff_of_false (fun h => ?_) fun h => ?_
      · cases h
      · cases h
  | ok b => rw [Except.toOption, Option.some.injEq, Except.ok.injEq]

/-- A list of computations succeeds when each of them does. -/
theorem mapM_eq_ok_iff {f : α → Except ε β} {xs : List α} {ys : List β} :
    xs.mapM f = .ok ys ↔ List.Forall₂ (fun x y => f x = .ok y) xs ys := by
  induction xs generalizing ys with
  | nil =>
      rw [List.mapM_nil, List.forall₂_nil_left_iff]
      constructor
      · intro h
        exact (Except.ok.inj h).symm
      · intro h
        rw [h]
        rfl
  | cons x xs ih =>
      rw [List.mapM_cons, bind_eq_ok_iff, List.forall₂_cons_left_iff]
      constructor
      · intro h
        obtain ⟨y, hy, h⟩ := h
        obtain ⟨rest, hrest, h⟩ := bind_eq_ok_iff.1 h
        exact ⟨y, rest, hy, ih.1 hrest, (Except.ok.inj h).symm⟩
      · intro h
        obtain ⟨y, rest, hy, hrest, rfl⟩ := h
        exact ⟨y, hy, bind_eq_ok_iff.2 ⟨rest, ih.2 hrest, rfl⟩⟩

end Except

end ArtifactPatch
