import LinkedData.Json.Basic
import LinkedData.Timestamp.Printer
import LinkedData.Timestamp.Reader
import LinkedData.Value.Basic

/-!
# Values as JSON documents

A JSON document can express every value but the custom ones, by a few conventions on
texts, tried in this order:

* `@id(name)` is a reference, if the name is a word;
* `?` and `?name` are wildcards;
* `:name` is a term;
* `<locator>` is a foreign locator;
* a timestamp with an offset is a timestamp;
* everything else is a text.

Writing a value uses the same conventions.
-/

namespace LinkedData.Value

/-- The value that a text of a document stands for. -/
def ofText (s : String) : Value :=
  match Reference.ofTag? s with
  | some r => .reference r
  | none =>
    match Text.after? "?" s with
    | some name => .wildcard (if name.isEmpty then none else some name)
    | none =>
      match Text.after? ":" s with
      | some name => .term name
      | none =>
        match Text.between? "<" ">" s with
        | some locator => .iri locator
        | none =>
          match Timestamp.read? s with
          | some t => .timestamp t
          | none => .string s

/-- The value of a number: whole if it fits 64 bits with a sign. -/
def ofNumber (n : Json.Number) : Value :=
  match n.toInt64? with
  | some m => .integer m
  | none => .float n.toBinary64

mutual

/-- The value that a document stands for. -/
def ofJson : Json → Value
  | .null => .null
  | .boolean b => .boolean b
  | .number n => ofNumber n
  | .string s => ofText s
  | .array items => .list (itemsOfJson items)
  | .object members => .node (entriesOfJson members)

/-- The values of the elements. -/
def itemsOfJson : List Json → List Value
  | [] => []
  | item :: rest => ofJson item :: itemsOfJson rest

/-- The properties of the members. -/
def entriesOfJson : List (String × Json) → List (String × Value)
  | [] => []
  | (key, value) :: rest => (key, ofJson value) :: entriesOfJson rest

end

mutual

/-- The document that stands for a value. -/
def toJson : Value → Json
  | .null => .null
  | .boolean b => .boolean b
  | .integer n => .number (.ofInt64 n)
  | .float x => .ofBinary64 x
  | .string s => .string s
  | .timestamp t => .string t.text
  | .reference r => .string r.tag
  | .term name => .string (":" ++ name)
  | .iri locator => .string ("<" ++ locator ++ ">")
  | .node entries => .object (entriesToJson entries)
  | .list items => .array (itemsToJson items)
  | .wildcard none => .string "?"
  | .wildcard (some name) => .string ("?" ++ name)
  | .custom _ payload => .string payload

/-- The documents of the elements. -/
def itemsToJson : List Value → List Json
  | [] => []
  | item :: rest => item.toJson :: itemsToJson rest

/-- The members of the properties. -/
def entriesToJson : List (String × Value) → List (String × Json)
  | [] => []
  | (key, value) :: rest => (key, value.toJson) :: entriesToJson rest

end

end LinkedData.Value
