import LinkedData.Binary64.Basic
import LinkedData.Text.Fields
import LinkedData.Timestamp.Basic
import LinkedData.Value.Reference

/-!
# Values

One type serves both the objects that are stored and the patterns that are asked for. A
*node* is a record of named properties; the property `@id` holds its identifier. Wildcards
have a meaning in patterns only.
-/

namespace LinkedData

/-- A value of an object graph or of a query pattern. -/
inductive Value where
  /-- an explicit absence -/
  | null
  /-- a truth value -/
  | boolean (b : Bool)
  /-- a whole number -/
  | integer (n : Int64)
  /-- a binary floating-point number -/
  | float (x : Binary64)
  /-- a text -/
  | string (s : String)
  /-- a timestamp -/
  | timestamp (t : Timestamp)
  /-- a pointer to a node by its name -/
  | reference (r : Reference)
  /-- a name of the vocabulary, such as a type -/
  | term (name : String)
  /-- a locator that belongs to somebody else -/
  | iri (locator : String)
  /-- a node, its properties in order -/
  | node (entries : List (String × Value))
  /-- a list -/
  | list (items : List Value)
  /-- in a pattern: anything at all; with a name, what it is bound to is returned -/
  | wildcard (name : Option String)
  /-- a value that only a registered handler understands -/
  | custom (kind payload : String)

/-- The properties of a node, in order. -/
abbrev Node := Fields Value

namespace Value

/-- The kinds of values. -/
inductive Kind where
  | null | boolean | integer | float | string | timestamp | reference | term | iri
  | node | list | wildcard | custom
  deriving DecidableEq

/-- The name of a kind, as messages use it. -/
def Kind.name : Kind → String
  | .null => "null"
  | .boolean => "boolean"
  | .integer => "integer"
  | .float => "float"
  | .string => "string"
  | .timestamp => "timestamp"
  | .reference => "reference"
  | .term => "term"
  | .iri => "iri"
  | .node => "node"
  | .list => "list"
  | .wildcard => "wildcard"
  | .custom => "custom"

/-- The kind of a value. -/
def kind : Value → Kind
  | .null => .null
  | .boolean _ => .boolean
  | .integer _ => .integer
  | .float _ => .float
  | .string _ => .string
  | .timestamp _ => .timestamp
  | .reference _ => .reference
  | .term _ => .term
  | .iri _ => .iri
  | .node _ => .node
  | .list _ => .list
  | .wildcard _ => .wildcard
  | .custom _ _ => .custom

/-- A reference if the text is a name, tagged or not, and a text otherwise. -/
def ofReferenceText (text : String) : Value :=
  match Reference.normalize? text with
  | some r => .reference r
  | none => .string text

/-- The properties, if the value is a node. -/
def node? : Value → Option Node
  | .node entries => some entries
  | _ => none

mutual

/-- Is the value a node, or a list that holds one at any depth? -/
def containsNode : Value → Bool
  | .node _ => true
  | .list items => anyContainsNode items
  | _ => false

/-- Does any of the values contain a node? -/
def anyContainsNode : List Value → Bool
  | [] => false
  | item :: rest => item.containsNode || anyContainsNode rest

end

mutual

/-- Equality of values. Nodes are compared without regard to the order of their
properties, timestamps by their instant, and floating-point numbers as numbers. -/
def equals : Value → Value → Bool
  | .null, .null => true
  | .boolean a, .boolean b => a == b
  | .integer m, .integer n => m == n
  | .float x, .float y => x.equals y
  | .string s, .string t => s == t
  | .timestamp s, .timestamp t => s.sameInstant t
  | .reference r, .reference s => r.name == s.name
  | .term m, .term n => m == n
  | .iri m, .iri n => m == n
  | .node es, .node fs => es.length == fs.length && entriesWithin es fs
  | .list xs, .list ys => itemsEqual xs ys
  | .wildcard m, .wildcard n => m == n
  | .custom k p, .custom l q => k == l && p == q
  | _, _ => false

/-- Equality of lists, element by element. -/
def itemsEqual : List Value → List Value → Bool
  | [], [] => true
  | x :: xs, y :: ys => x.equals y && itemsEqual xs ys
  | _, _ => false

/-- Does the second node have an equal property for each of the first? -/
def entriesWithin : List (String × Value) → List (String × Value) → Bool
  | [], _ => true
  | (key, value) :: rest, others =>
    (match Fields.get? key others with
      | some other => value.equals other
      | none => false) && entriesWithin rest others

end

end Value

end LinkedData
