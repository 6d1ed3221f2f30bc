/-
  ArtifactPatch.Proofs.Command.Script
  ───────────────────────────────────
  **WHAT A SCRIPT ENSURES.**

  A script works on the disk as a procedure does, and what it says does not
  matter to that: `Script.Ensures` asks for its postconditions whatever has
  been said before.  The rules follow the monad; an attempt in a script
  ensures what the attempt ensures on its own.
-/
import ArtifactPatch.Command.Script
import ArtifactPatch.Proofs.Disk.Procedure

namespace ArtifactPatch

namespace Script

variable {α β ε : Type} {frail : Call → Prop} {I : Machine → Prop}

/-- The procedure that a script is, after what has been said. -/
def after (x : Script α) (t : Transcript) : Procedure (Except CommandError α × Transcript) :=
  (ExceptT.run x).run t

/-- A run has a result, has said something, and ends in some state. -/
theorem exists_run (x : Script α) (t : Transcript) (m : Machine) :
    ∃ r t' m', (x.after t).run m = ((r, t'), m') :=
  ⟨_, _, _, rfl⟩

/-- What a script ensures: `Q` where it succeeds, `E` where it fails. -/
def Ensures (frail : Call → Prop) (I : Machine → Prop) (x : Script α) (Q : α → Machine → Prop)
    (E : CommandError → Machine → Prop) (m : Machine) : Prop :=
  ∀ t, (x.after t).Ensures frail I (fun r m' => match r.1 with
    | .ok a => Q a m'
    | .error e => E e m') m

theorem Ensures.mono {x : Script α} {Q Q' : α → Machine → Prop}
    {E E' : CommandError → Machine → Prop} {m : Machine} (h : Ensures frail I x Q E m)
    (hQ : ∀ a m', Q a m' → Q' a m') (hE : ∀ e m', E e m' → E' e m') :
    Ensures frail I x Q' E' m := by
  intro t
  refine (h t).mono ?_
  intro r m' hr
  obtain ⟨result, t'⟩ := r
  cases result with
  | ok a => exact hQ a m' hr
  | error e => exact hE e m' hr

/-- What holds whether it succeeds or fails. -/
theorem ensures_of_forall {x : Script α} {Q : α → Machine → Prop}
    {E : CommandError → Machine → Prop} (hI : ∀ m, I m) (hQ : ∀ a m, Q a m) (hE : ∀ e m, E e m)
    (m : Machine) : Ensures frail I x Q E m := by
  intro t
  refine Procedure.ensures_of_forall hI ?_ m
  intro r m'
  obtain ⟨result, t'⟩ := r
  cases result with
  | ok a => exact hQ a m'
  | error e => exact hE e m'

/-- A script that cannot fail succeeds. -/
theorem Ensures.run_succeeds {x : Script α} {Q : α → Machine → Prop} {m : Machine}
    (h : Ensures frail I x Q (fun _ _ => False) m) (t : Transcript) :
    ∃ a t' m', (x.after t).run m = ((.ok a, t'), m') ∧ Q a m' := by
  have hrun := (h t).run
  cases hr : (x.after t).run m with
  | mk r m' =>
      obtain ⟨result, t'⟩ := r
      rw [hr] at hrun
      cases result with
      | ok a => exact ⟨a, t', m', rfl, hrun⟩
      | error e => exact hrun.elim

theorem ensures_pure {a : α} {Q : α → Machine → Prop} {E : CommandError → Machine → Prop}
    {m : Machine} (h : Q a m) : Ensures frail I (pure a : Script α) Q E m :=
  fun _ => h

theorem ensures_throw {e : CommandError} {Q : α → Machine → Prop}
    {E : CommandError → Machine → Prop} {m : Machine} (h : E e m) :
    Ensures frail I (throw e : Script α) Q E m :=
  fun _ => h

theorem ensures_bind {x : Script α} {f : α → Script β} {Q : β → Machine → Prop}
    {E : CommandError → Machine → Prop} {m : Machine}
    (h : Ensures frail I x (fun a m' => Ensures frail I (f a) Q E m') E m) :
    Ensures frail I (x >>= f) Q E m := by
  intro t
  refine Procedure.Ensures.bind ((h t).mono ?_)
  intro r m' hr
  obtain ⟨result, t'⟩ := r
  cases result with
  | ok a => exact hr t'
  | error e => exact hr

/-- Talking changes nothing. -/
theorem ensures_modify {f : Transcript → Transcript} {Q : Unit → Machine → Prop}
    {E : CommandError → Machine → Prop} {m : Machine} (h : Q () m) :
    Ensures frail I (modify f : Script Unit) Q E m :=
  fun _ => h

theorem ensures_print {spans : List Span} {Q : Unit → Machine → Prop}
    {E : CommandError → Machine → Prop} {m : Machine} (h : Q () m) :
    Ensures frail I (print spans) Q E m :=
  ensures_modify h

theorem ensures_say {spans : List Span} {Q : Unit → Machine → Prop}
    {E : CommandError → Machine → Prop} {m : Machine} (h : Q () m) :
    Ensures frail I (say spans) Q E m :=
  ensures_modify h

theorem ensures_complain {spans : List Span} {Q : Unit → Machine → Prop}
    {E : CommandError → Machine → Prop} {m : Machine} (h : Q () m) :
    Ensures frail I (complain spans) Q E m :=
  ensures_modify h

theorem ensures_attempt {asError : ε → CommandError} {a : Attempt ε α} {Q : α → Machine → Prop}
    {E : CommandError → Machine → Prop} {m : Machine}
    (h : Attempt.Ensures frail I a Q (fun e => E (asError e)) m) :
    Ensures frail I (attempt asError a) Q E m := by
  intro t
  refine Procedure.Ensures.bind (Procedure.Ensures.bind (Procedure.Ensures.mono h ?_))
  intro r m' hr
  cases r with
  | ok x => exact hr
  | error e => exact hr

/-- An attempt whose failure is looked at. -/
theorem ensures_outcomeOf {a : Attempt ε α} {Q : Except ε α → Machine → Prop}
    {E : CommandError → Machine → Prop} {m : Machine}
    (h : Attempt.Ensures frail I a (fun x => Q (.ok x)) (fun e => Q (.error e)) m) :
    Ensures frail I (outcomeOf a) Q E m := by
  intro t
  refine Procedure.Ensures.bind (Procedure.Ensures.bind (Procedure.Ensures.mono h ?_))
  intro r m' hr
  cases r with
  | ok x => exact hr
  | error e => exact hr

theorem ensures_ofExcept {asError : ε → CommandError} {r : Except ε α} {Q : α → Machine → Prop}
    {E : CommandError → Machine → Prop} {m : Machine} (hok : ∀ a, r = .ok a → Q a m)
    (herr : ∀ e, r = .error e → E (asError e) m) :
    Ensures frail I (ofExcept asError r) Q E m := by
  intro t
  cases r with
  | ok a => exact hok a rfl
  | error e => exact herr e rfl

/-- A loop that keeps a state. -/
theorem ensures_forIn {xs : List β} {f : β → PUnit → Script (ForInStep PUnit)} {P : Machine → Prop}
    {E : CommandError → Machine → Prop} {m : Machine}
    (h : ∀ x ∈ xs, ∀ m', P m' →
      Ensures frail I (f x ⟨⟩) (fun next m'' => next = .yield ⟨⟩ ∧ P m'') E m') (hm : P m) :
    Ensures frail I (forIn xs PUnit.unit f) (fun _ m' => P m') E m := by
  induction xs generalizing m with
  | nil => exact ensures_pure hm
  | cons x xs ih =>
      rw [List.forIn_cons]
      refine ensures_bind ((h x List.mem_cons_self m hm).mono ?_ fun _ _ he => he)
      intro next m' hnext
      obtain ⟨rfl, hm'⟩ := hnext
      exact ih (fun y hy => h y (List.mem_cons_of_mem x hy)) hm'

end Script

end ArtifactPatch
