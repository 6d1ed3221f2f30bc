/-
  ArtifactPatch.Disk.Procedure
  ────────────────────────────
  **PROCEDURES: SEQUENCES OF CALLS.**

  A procedure makes calls one after the other, each chosen by the answers so
  far, and ends with a result.  `run` carries a procedure out on a machine
  whose calls fail only for reasons of the tree.  Because the calls stand open
  in the tree of a procedure, it can also be stopped between two of them, or
  any of them can be made to fail.
-/
import ArtifactPatch.Disk.Call

namespace ArtifactPatch

/-! ## §1. Procedures. -/

/-- A sequence of calls with a result. -/
inductive Procedure (α : Type) where
  | done (result : α)
  | call (c : Call) (next : Except OsError c.Answer → Procedure α)

namespace Procedure

/-- Go on with the result. -/
def bind {α β : Type} : Procedure α → (α → Procedure β) → Procedure β
  | .done a, f => f a
  | .call c next, f => .call c fun answer => (next answer).bind f

instance : Monad Procedure where
  pure := .done
  bind := bind

/-- A single call. -/
def ask (c : Call) : Procedure (Except OsError c.Answer) :=
  .call c .done

/-- Carry a procedure out. -/
def run {α : Type} : Procedure α → Machine → α × Machine
  | .done a, m => (a, m)
  | .call c next, m =>
      let (answer, m') := m.perform c
      (next answer).run m'

end Procedure

/-- A procedure that may fail. -/
abbrev Attempt (ε α : Type) := ExceptT ε Procedure α

namespace Attempt

/-- A single call, whose failure is the failure of the procedure. -/
def call {ε : Type} (c : Call) (asError : OsError → ε) : Attempt ε c.Answer :=
  ExceptT.mk (do return (← Procedure.ask c).mapError asError)

/-- Succeed or fail as a computed value says. -/
def ofExcept {ε α : Type} (r : Except ε α) : Attempt ε α :=
  ExceptT.mk (pure r)

/-- The same procedure with its failures reworded. -/
def mapError {ε ε' α : Type} (f : ε → ε') (a : Attempt ε α) : Attempt ε' α :=
  ExceptT.mk (do return (← a.run).mapError f)

/-- A procedure that does not fail. -/
def lift {ε α : Type} (p : Procedure α) : Attempt ε α :=
  ExceptT.lift p

end Attempt

/-! ## §2. Questions that do not fail. -/

namespace Disk

/-- Whether a route leads to a regular file; where it cannot be told, no. -/
def isFile (r : Route) : Procedure Bool := do
  match ← Procedure.ask (.stat r) with
  | .ok s => return s.kind = .file
  | .error _ => return false

/-- Whether a route leads to a directory; where it cannot be told, no. -/
def isDirectory (r : Route) : Procedure Bool := do
  match ← Procedure.ask (.stat r) with
  | .ok s => return s.kind = .directory
  | .error _ => return false

/-- Whether a route leads to anything; where it cannot be told, no. -/
def exists? (r : Route) : Procedure Bool := do
  match ← Procedure.ask (.stat r) with
  | .ok _ => return true
  | .error _ => return false

/-- Read a file as text. -/
def readText (r : Route) : Attempt OsError Text := do
  let bytes ← Attempt.call (.read r) id
  match Text.decode? bytes with
  | some t => return t
  | none => throw .invalidUtf8

end Disk

end ArtifactPatch
