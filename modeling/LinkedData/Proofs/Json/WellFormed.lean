import LinkedData.Json.Basic

/-!
# Well-formed documents

Documents hold more than texts can say: numbers that are not finite, whole numbers under the
wrong kind, and keys that come twice. Well-formed ones do not (`Json.WellFormed`).
-/

namespace LinkedData.Json

/-- The number is of the right kind, and finite. -/
def Number.WellFormed : Number → Prop
  | .natural _ => True
  | .negative n => n < 0
  | .float x => x.isFinite = true

mutual

/-- All numbers in the document are well-formed, and no object in it has a key twice. -/
def WellFormed : Json → Prop
  | .number n => n.WellFormed
  | .array items => WellFormedItems items
  | .object members => Fields.Distinct members ∧ WellFormedMembers members
  | _ => True

/-- All elements are well-formed. -/
def WellFormedItems : List Json → Prop
  | [] => True
  | item :: rest => item.WellFormed ∧ WellFormedItems rest

/-- The values of all members are well-formed. -/
def WellFormedMembers : List (String × Json) → Prop
  | [] => True
  | (_, value) :: rest => value.WellFormed ∧ WellFormedMembers rest

end

mutual

/-- How deep arrays and objects are nested. -/
def depth : Json → Nat
  | .array items => depthItems items + 1
  | .object members => depthMembers members + 1
  | _ => 0

/-- The depth of the deepest element. -/
def depthItems : List Json → Nat
  | [] => 0
  | item :: rest => max item.depth (depthItems rest)

/-- The depth of the deepest value of a member. -/
def depthMembers : List (String × Json) → Nat
  | [] => 0
  | (_, value) :: rest => max value.depth (depthMembers rest)

end

mutual

/-- The numbers in a document. -/
def numbers : Json → List Number
  | .number n => [n]
  | .array items => numbersItems items
  | .object members => numbersMembers members
  | _ => []

/-- The numbers in the elements. -/
def numbersItems : List Json → List Number
  | [] => []
  | item :: rest => item.numbers ++ numbersItems rest

/-- The numbers in the values of the members. -/
def numbersMembers : List (String × Json) → List Number
  | [] => []
  | (_, value) :: rest => value.numbers ++ numbersMembers rest

end

end LinkedData.Json
