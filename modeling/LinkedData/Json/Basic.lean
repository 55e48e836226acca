import LinkedData.Binary64.Basic
import LinkedData.Text.Fields

/-!
# JSON documents

A document keeps the members of its objects in order. Numbers come in three kinds: whole
numbers that are not negative, negative whole numbers, and all others; two numbers of
different kinds are never equal. Objects are equal when they hold equal members, in
whatever order.
-/

namespace LinkedData

/-- A number of a JSON document. -/
inductive Json.Number where
  /-- a whole number that is not negative -/
  | natural (n : UInt64)
  /-- a whole number below zero -/
  | negative (n : Int64)
  /-- a finite number of any other form -/
  | float (x : Binary64)

/-- A JSON document. -/
inductive Json where
  /-- `null` -/
  | null
  /-- `true` or `false` -/
  | boolean (b : Bool)
  /-- a number -/
  | number (n : Json.Number)
  /-- a text -/
  | string (s : String)
  /-- an array -/
  | array (items : List Json)
  /-- an object, its members in order -/
  | object (members : List (String × Json))

namespace Json

/-- The number of a whole number in the range of 64-bit integers. -/
def Number.ofInt64 (n : Int64) : Number :=
  if n < 0 then .negative n else .natural n.toUInt64

/-- The whole number, if it is one in the range of 64-bit integers. -/
def Number.toInt64? : Number → Option Int64
  | .natural n => if n.toNat < 1 <<< 63 then some n.toInt64 else none
  | .negative n => some n
  | .float _ => none

/-- The nearest binary number. -/
def Number.toBinary64 : Number → Binary64
  | .natural n => Binary64.ofNat n.toNat
  | .negative n => (Binary64.ofNat n.toInt.natAbs).neg
  | .float x => x

/-- Equality of numbers, within a kind. -/
def Number.equals : Number → Number → Bool
  | .natural m, .natural n => m == n
  | .negative m, .negative n => m == n
  | .float x, .float y => x.equals y
  | _, _ => false

/-- A number, or `null` for one that is not finite. -/
def ofBinary64 (x : Binary64) : Json :=
  if x.isFinite then .number (.float x) else .null

mutual

/-- Equality of documents; objects are compared without regard to order. -/
def equals : Json → Json → Bool
  | .null, .null => true
  | .boolean a, .boolean b => a == b
  | .number m, .number n => m.equals n
  | .string s, .string t => s == t
  | .array xs, .array ys => itemsEqual xs ys
  | .object ms, .object ns => ms.length == ns.length && membersWithin ms ns
  | _, _ => false

/-- Equality of arrays, element by element. -/
def itemsEqual : List Json → List Json → Bool
  | [], [] => true
  | x :: xs, y :: ys => x.equals y && itemsEqual xs ys
  | _, _ => false

/-- Does the second object have an equal member for each of the first? -/
def membersWithin : List (String × Json) → List (String × Json) → Bool
  | [], _ => true
  | (key, value) :: rest, others =>
    (match Fields.get? key others with
      | some other => value.equals other
      | none => false) && membersWithin rest others

end

/-- The text, if it is one. -/
def string? : Json → Option String
  | .string s => some s
  | _ => none

/-- A member of an object; other documents have none. -/
def member? (name : String) : Json → Option Json
  | .object members => Fields.get? name members
  | _ => none

end Json

end LinkedData
