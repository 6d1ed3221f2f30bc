/-
  ArtifactPatch.Proofs.Command.Asking
  ───────────────────────────────────
  **WHAT COMMANDS DO BEFORE AND AFTER THEY WRITE.**

  Starting a session, passing the gate, planning and verifying only ask.  What
  a script says does not touch the disk, so a script only asks if its attempts
  do.
-/
import ArtifactPatch.Command.Run
import ArtifactPatch.Proofs.Command.Script
import ArtifactPatch.Proofs.Patch.Requests

namespace ArtifactPatch

/-! ## §1. Profiles and packages. -/

namespace PackageSearch

variable (search : PackageSearch)

end PackageSearch

/-! ## §2. Scripts. -/

namespace Script

variable {α β ε : Type} {frail : Call → Prop} {I : Machine → Prop}

/-- Every call of a script is a question, whatever it has said. -/
def OnlyAsks (x : Script α) : Prop :=
  ∀ t, (x.after t).OnlyAsks

theorem onlyAsks_pure (a : α) : OnlyAsks (pure a : Script α) := fun _ => trivial

theorem onlyAsks_throw (e : CommandError) : OnlyAsks (throw e : Script α) := fun _ => trivial

theorem onlyAsks_ofExcept (asError : ε → CommandError) (r : Except ε α) :
    OnlyAsks (ofExcept asError r) := fun _ => trivial

theorem onlyAsks_print (spans : List Span) : OnlyAsks (print spans) := fun _ => trivial

theorem onlyAsks_say (spans : List Span) : OnlyAsks (say spans) := fun _ => trivial

theorem OnlyAsks.bind {x : Script α} {f : α → Script β} (h : OnlyAsks x)
    (hf : ∀ a, OnlyAsks (f a)) : OnlyAsks (x >>= f) := by
  intro t
  refine Procedure.OnlyAsks.bind (h t) fun r => ?_
  obtain ⟨result, t'⟩ := r
  cases result with
  | ok a => exact hf a t'
  | error e => exact trivial

theorem onlyAsks_attempt (asError : ε → CommandError) {a : Attempt ε α} (h : Attempt.OnlyAsks a) :
    OnlyAsks (attempt asError a) := by
  intro t
  refine Procedure.OnlyAsks.bind (Procedure.OnlyAsks.bind h ?_) ?_
  · exact fun _ => trivial
  · exact fun _ => trivial

theorem onlyAsks_forIn {xs : List β} {f : β → PUnit → Script (ForInStep PUnit)}
    (hf : ∀ x, OnlyAsks (f x ⟨⟩)) : OnlyAsks (forIn xs PUnit.unit f) := by
  induction xs with
  | nil => exact onlyAsks_pure _
  | cons x xs ih =>
      rw [List.forIn_cons]
      refine (hf x).bind fun next => ?_
      cases next with
      | done => exact onlyAsks_pure _
      | yield => exact ih

/-- **A script that only asks changes nothing**, and keeps what held before. -/
theorem OnlyAsks.ensures {x : Script α} (h : OnlyAsks x) {Q : α → Machine → Prop}
    {E : CommandError → Machine → Prop} {m : Machine} (hm : I m)
    (hx : Ensures frail (fun _ => True) x Q E m) :
    Ensures frail I x (fun a m' => m' = m ∧ Q a m') (fun e m' => m' = m ∧ E e m') m := by
  intro t
  refine ((h t).ensures hm (hx t)).mono ?_
  intro r m' hr
  obtain ⟨rfl, hr⟩ := hr
  obtain ⟨result, t'⟩ := r
  cases result with
  | ok a => exact ⟨rfl, hr⟩
  | error e => exact ⟨rfl, hr⟩

end Script

/-! ## §3. Commands. -/

namespace Session

open Script

variable (s : Session)

theorem onlyAsks_sayHeader : OnlyAsks s.sayHeader :=
  (onlyAsks_say _).bind fun _ => (onlyAsks_say _).bind fun _ => (onlyAsks_say _).bind fun _ =>
    onlyAsks_say _

theorem onlyAsks_passGate (ignoreVersion : Bool) : OnlyAsks (s.passGate ignoreVersion) := by
  refine (onlyAsks_ofExcept _ _).bind fun gate => ?_
  split
  next =>
    split
    next => exact (onlyAsks_throw _).bind fun _ => onlyAsks_say _
    next => exact (onlyAsks_pure PUnit.unit).bind fun _ => onlyAsks_say _
  next => exact onlyAsks_pure _

/-- Planning changes nothing. -/
theorem onlyAsks_planAll (dryRun showSites : Bool) (sets : List (String × List Rule)) :
    OnlyAsks (s.planAll dryRun showSites sets) := by
  induction sets with
  | nil => exact onlyAsks_pure _
  | cons p rest ih =>
      obtain ⟨name, rules⟩ := p
      exact (onlyAsks_attempt _ (s.store.onlyAsks_plan name rules)).bind fun _ =>
        (onlyAsks_print _).bind fun _ => ih.bind fun _ => onlyAsks_pure _

theorem onlyAsks_verifyArtifact (name : String) : OnlyAsks (s.verifyArtifact name) := by
  unfold verifyArtifact
  refine (onlyAsks_ofExcept _ _).bind fun es => ?_
  split
  next => exact onlyAsks_pure _
  next =>
    refine (onlyAsks_attempt _ (s.store.onlyAsks_verify name es)).bind fun report => ?_
    refine (onlyAsks_forIn fun f => ?_).bind fun _ => onlyAsks_pure _
    exact (onlyAsks_say _).bind fun _ => onlyAsks_pure _

theorem onlyAsks_failureOf (report : Report) : OnlyAsks (s.failureOf report) := by
  refine (onlyAsks_attempt _ (s.store.onlyAsks_hasBackup _)).bind fun has => ?_
  split
  next => exact onlyAsks_pure _
  next => exact onlyAsks_pure _

theorem onlyAsks_verifyArtifacts (failed : Option PatchError) (artifacts : List Artifact) :
    OnlyAsks (s.verifyArtifacts failed artifacts) := by
  induction artifacts generalizing failed with
  | nil => exact onlyAsks_pure _
  | cons a rest ih =>
      refine (s.onlyAsks_verifyArtifact a.name).bind fun found => ?_
      split
      next report => exact (s.onlyAsks_failureOf report).bind fun e => ih (some e)
      next => exact ih failed

/-- Verification changes nothing. -/
theorem onlyAsks_verifyAll : OnlyAsks s.verifyAll := by
  refine (s.onlyAsks_verifyArtifacts none _).bind fun r => ?_
  cases r with
  | some e => exact onlyAsks_throw _
  | none => exact onlyAsks_pure _

end Session

end ArtifactPatch
