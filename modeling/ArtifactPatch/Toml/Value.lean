/-
  ArtifactPatch.Toml.Value
  ────────────────────────
  **TOML VALUES AND TABLES.**

  While a document is read, a table remembers how it came to be, because that
  decides who may add to it: a header may open each table once, also one that
  headers below it have brought about; dotted keys may add only to tables that
  dotted keys made, but may pass on the way there through tables without a
  header of their own and through the last of an array of tables; and a table
  that was written as a value is closed.
-/
import ArtifactPatch.Toml.Reader

namespace ArtifactPatch.Toml

/-! ## §1. Values. -/

/-- A value.  Of floats and times only the kind is kept. -/
inductive Value where
  | string (text : Text)
  | integer (n : Int)
  | float
  | boolean (b : Bool)
  | dateTime
  | array (items : List Value)
  | table (entries : List (String × Value))
  deriving Repr

/-- The value of a scalar. -/
def Value.ofScalar : Scalar → Value
  | .integer n => .integer n
  | .boolean b => .boolean b
  | .float => .float
  | .dateTime => .dateTime

/-! ## §2. Tables under construction. -/

/-- How a table came to be. -/
inductive Origin where
  /-- Opened by a header of its own. -/
  | header
  /-- On the way to a header further down. -/
  | implied
  /-- By dotted keys. -/
  | dotted
  deriving Repr, DecidableEq

/-- What a key stands for. -/
inductive Item where
  | value (v : Value)
  | table (origin : Origin) (entries : List (String × Item))
  /-- Tables that headers of double brackets opened, the last one first. -/
  | tables (elements : List (List (String × Item)))

/-- Keys and what they stand for, in order. -/
abbrev Entries := List (String × Item)

namespace Entries

/-- Change what a key stands for, or add the key at the end. -/
def set (es : Entries) (key : String) (item : Item) : Entries :=
  if es.any (·.1 == key) then
    es.map fun (k, i) => if k == key then (k, item) else (k, i)
  else es ++ [(key, item)]

/-- Add a value under dotted keys; `none` where a key is taken. -/
def addPair (es : Entries) : (keys : List String) → (key : String) → Value → Option Entries
  | [], key, v =>
      match es.lookup key with
      | none => some (es ++ [(key, .value v)])
      | some _ => none
  | k :: keys, key, v =>
      match es.lookup k with
      | none => do return es ++ [(k, .table .dotted (← addPair [] keys key v))]
      | some (.table .dotted inner) => do
          return es.set k (.table .dotted (← addPair inner keys key v))
      | some (.table .implied inner) =>
          if keys.isEmpty then none
          else do return es.set k (.table .implied (← addPair inner keys key v))
      | some (.tables (last :: others)) =>
          if keys.isEmpty then none
          else do return es.set k (.tables ((← addPair last keys key v) :: others))
      | some _ => none

/-- Change the table that a header's leading keys lead to, making it where it
is missing; `none` where a key stands for a value. -/
def descend (f : Entries → Option Entries) (es : Entries) : (keys : List String) → Option Entries
  | [] => f es
  | k :: keys =>
      match es.lookup k with
      | none => do return es ++ [(k, .table .implied (← descend f [] keys))]
      | some (.table origin inner) => do
          return es.set k (.table origin (← descend f inner keys))
      | some (.tables (last :: others)) => do
          return es.set k (.tables ((← descend f last keys) :: others))
      | some (.tables []) | some (.value _) => none

/-- Open the table of a header and fill it. -/
def openTable (fill : Entries → Option Entries) (key : String) (es : Entries) : Option Entries :=
  match es.lookup key with
  | none => do return es ++ [(key, .table .header (← fill []))]
  | some (.table .implied inner) => do
      return es.set key (.table .header (← fill inner))
  | some _ => none

/-- Add a table to those of a header of double brackets and fill it. -/
def openElement (fill : Entries → Option Entries) (key : String) (es : Entries) :
    Option Entries :=
  match es.lookup key with
  | none => do return es ++ [(key, .tables [← fill []])]
  | some (.tables elements) => do return es.set key (.tables ((← fill []) :: elements))
  | some _ => none

end Entries

/-! ## §3. Finished tables. -/

mutual

/-- The value of what a key stands for. -/
def Item.toValue : Item → Value
  | .value v => v
  | .table _ entries => .table (entriesToValues entries)
  | .tables elements => .array (elementsToValues elements).reverse

/-- The values of some entries. -/
def entriesToValues : Entries → List (String × Value)
  | [] => []
  | (key, item) :: rest => (key, item.toValue) :: entriesToValues rest

/-- The values of some tables. -/
def elementsToValues : List Entries → List Value
  | [] => []
  | entries :: rest => .table (entriesToValues entries) :: elementsToValues rest

end

end ArtifactPatch.Toml
