/-
  ArtifactPatch.Proofs.Disk.Asking
  ────────────────────────────────
  **PROCEDURES THAT ONLY ASK.**

  A procedure all of whose calls are questions leaves the tree alone, whatever
  the answers are and whichever calls fail.  Such procedures are closed under
  the monad, so that a look at the calls is all there is to prove about them.
  What one of them ensures at its end, it ensures with the tree as it was and
  under any invariant that held before (`OnlyAsks.ensures`).
-/
import ArtifactPatch.Proofs.Disk.Procedure

namespace ArtifactPatch

variable {α β ε ε' : Type} {frail : Call → Prop} {I : Machine → Prop}

/-- Whatever the answer to a question is, the machine stays the same. -/
theorem Machine.Responds.eq_of_asks {c : Call} {answer : Except OsError c.Answer} {m m' : Machine}
    (h : m.Responds frail c answer m') (hc : c.Asks) : m' = m := by
  cases h with
  | sound => exact hc.perform_snd m
  | failed e _ hleaves => exact hc.eq_of_leaves hleaves

namespace Procedure

/-! ## §1. Procedures. -/

/-- Every call is a question. -/
def OnlyAsks : Procedure α → Prop
  | .done _ => True
  | .call c next => c.Asks ∧ ∀ answer, (next answer).OnlyAsks

theorem onlyAsks_pure (a : α) : (pure a : Procedure α).OnlyAsks := trivial

theorem onlyAsks_ask {c : Call} (hc : c.Asks) : (ask c).OnlyAsks :=
  ⟨hc, fun _ => trivial⟩

theorem OnlyAsks.bind {p : Procedure α} {f : α → Procedure β} (h : p.OnlyAsks)
    (hf : ∀ a, (f a).OnlyAsks) : (p >>= f).OnlyAsks := by
  induction p with
  | done a => exact hf a
  | call c next ih => exact ⟨h.1, fun answer => ih answer (h.2 answer)⟩

/-- **A procedure that only asks changes nothing**, and keeps what held before. -/
theorem OnlyAsks.ensures {p : Procedure α} (h : p.OnlyAsks) {Q : α → Machine → Prop} {m : Machine}
    (hm : I m) (hp : p.Ensures frail (fun _ => True) Q m) :
    p.Ensures frail I (fun a m' => m' = m ∧ Q a m') m := by
  induction p with
  | done a => exact ⟨rfl, hp⟩
  | call c next ih =>
      intro answer m' hresp
      have hnext := (hp answer m' hresp).2
      obtain rfl := hresp.eq_of_asks h.1
      exact ⟨hm, ih answer (h.2 answer) hnext⟩

end Procedure

namespace Attempt

/-! ## §2. Attempts. -/

/-- Every call of an attempt is a question. -/
def OnlyAsks (a : Attempt ε α) : Prop :=
  Procedure.OnlyAsks (ExceptT.run a)

theorem onlyAsks_pure (a : α) : OnlyAsks (pure a : Attempt ε α) := trivial

theorem onlyAsks_throw (e : ε) : OnlyAsks (throw e : Attempt ε α) := trivial

theorem onlyAsks_ofExcept (r : Except ε α) : OnlyAsks (ofExcept r) := trivial

theorem OnlyAsks.bind {a : Attempt ε α} {f : α → Attempt ε β} (h : OnlyAsks a)
    (hf : ∀ x, OnlyAsks (f x)) : OnlyAsks (a >>= f) := by
  refine Procedure.OnlyAsks.bind h fun r => ?_
  cases r with
  | ok x => exact hf x
  | error e => exact trivial

theorem OnlyAsks.mapError {a : Attempt ε α} (h : OnlyAsks a) (f : ε → ε') :
    OnlyAsks (mapError f a) :=
  Procedure.OnlyAsks.bind h fun _ => trivial

theorem onlyAsks_lift {p : Procedure α} (h : p.OnlyAsks) : OnlyAsks (lift p : Attempt ε α) :=
  Procedure.OnlyAsks.bind h fun _ => trivial

theorem onlyAsks_call {c : Call} (hc : c.Asks) (f : OsError → ε) : OnlyAsks (call c f) :=
  Procedure.OnlyAsks.bind (Procedure.onlyAsks_ask hc) fun _ => trivial

end Attempt

/-! ## §3. Questions that do not fail. -/

namespace Disk

theorem onlyAsks_isFile (r : Route) : (isFile r).OnlyAsks := by
  refine Procedure.OnlyAsks.bind (Procedure.onlyAsks_ask trivial) fun answer => ?_
  cases answer with
  | ok st => exact trivial
  | error e => exact trivial

end Disk

end ArtifactPatch
