/-
  ArtifactPatch.WaitCondition
  ───────────────────────────
  **HOW LONG A HOOK WAITS.**

  A hook's timeout setting is absent, null, or a number of seconds.  Unpatched
  code takes null for absent and waits the default time; patched code waits on
  null until the parent aborts.  Zero seconds mean the default time in both.
-/
import ArtifactPatch.Text.Blank

namespace ArtifactPatch

/-! ## §1. Settings. -/

/-- A timeout setting. -/
inductive TimeoutSetting where
  | absent
  | null
  | seconds (n : Nat)
  deriving Repr, DecidableEq

/-- Largest count of 64 bits. -/
def maxCount : Nat := 0xFFFF_FFFF_FFFF_FFFF

/-- A count in decimal digits, with an optional plus sign, up to `maxCount`. -/
def readCount? (t : Text) : Option Nat :=
  let digits := match t with
    | '+' :: rest => rest
    | _ => t
  if digits.isEmpty || !digits.all Char.isDigit then none
  else
    let n := digits.foldl (fun n c => 10 * n + (c.toNat - '0'.toNat)) 0
    if n ≤ maxCount then some n else none

namespace TimeoutSetting

/-- Read a setting; the error is its wording. -/
def parse (s : String) : Except String TimeoutSetting :=
  match Text.trimString s with
  | "absent" | "undefined" => .ok .absent
  | "null" => .ok .null
  | word =>
      match readCount? word.toList with
      | some n => .ok (.seconds n)
      | none =>
          .error ("invalid timeout '" ++ word ++ "': expected seconds, 'null' or 'absent'")

/-- The wording of a setting. -/
def describe : TimeoutSetting → String
  | .absent => "absent"
  | .null => "null"
  | .seconds n => toString n ++ "s"

end TimeoutSetting

/-! ## §2. Conditions. -/

/-- The two forms of the code. -/
inductive CodeForm where
  | unpatched
  | patched
  deriving Repr, DecidableEq

/-- The name of a form. -/
def CodeForm.name : CodeForm → String
  | .unpatched => "unpatched"
  | .patched => "patched"

/-- Something that can end a wait. -/
inductive Participant where
  | parent
  | timeout (ms : Nat)
  deriving Repr, DecidableEq

/-- Everything that can end a wait. -/
structure WaitCondition where
  participants : List Participant
  deriving Repr, DecidableEq

namespace WaitCondition

/-- Default time, in milliseconds. -/
def defaultMs : Nat := 60000

/-- The time limit, if there is one. -/
def timeoutMs (w : WaitCondition) : Option Nat :=
  w.participants.findSome? fun
    | .timeout ms => some ms
    | .parent => none

/-- No time limit. -/
def isUnbounded (w : WaitCondition) : Bool :=
  w.timeoutMs.isNone

/-- The wording of a condition. -/
def describe (w : WaitCondition) : String :=
  match w.timeoutMs with
  | some ms => "timeout after " ++ toString ms ++ " ms or parent abort"
  | none => "parent abort only (no timeout)"

/-- The time limit that a setting leads to.  Seconds that overflow 64 bits as
milliseconds stop at the largest count. -/
def limit (setting : TimeoutSetting) (default : Nat) : CodeForm → Option Nat
  | form => match form, setting with
    | .patched, .null => none
    | _, .seconds (n + 1) => some (Nat.min ((n + 1) * 1000) maxCount)
    | _, _ => some default

/-- The condition that a setting leads to. -/
def derive (setting : TimeoutSetting) (default : Nat) (form : CodeForm) : WaitCondition :=
  match limit setting default form with
  | some ms => ⟨[.timeout ms, .parent]⟩
  | none => ⟨[.parent]⟩

end WaitCondition

end ArtifactPatch
