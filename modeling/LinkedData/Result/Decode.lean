import LinkedData.Literal.Codec
import LinkedData.Result.Graph
import LinkedData.Value.Conventions

/-!
# Decoding node records

A response to a describe query is a list of records, one object for each subject. Decoding
has two passes. The first reads each record: keys are shortened to their local names,
repeated elements of lists are dropped, and a list with a single element becomes that
element. The second turns every locator that some record carries into a link to that
record.

If a locator comes again, links lead to the last record that carries it, and only that one
is listed. A record without an identifier is given a locator made from its position.
-/

namespace LinkedData

/-- A property after the first pass. -/
inductive RawProperty where
  /-- a value -/
  | value (v : Value)
  /-- a locator that may turn out to be a link -/
  | locator (text : String)
  /-- several properties -/
  | list (items : List RawProperty)

/-- A record after the first pass. -/
structure RawRecord where
  /-- its locator -/
  locator : String
  /-- its properties by local name -/
  properties : List (String × RawProperty)

namespace ResultGraph

/-- The records of a response: the elements of an array, the elements of `@graph`, a single
record, or none for `null`. -/
def recordsOf : Json → Except Error (List Json)
  | .array items => .ok items
  | .object members =>
    match Fields.get? "@graph" members with
    | some (.array items) => .ok items
    | some other => .error (.malformed (.graph other))
    | none => .ok [.object members]
  | .null => .ok []
  | other => .error (.malformed (.records other))

/-- What follows the last `#`, or everything if there is none. -/
def afterLastHash (cs : List Char) : List Char :=
  (cs.reverse.takeWhile (· != '#')).reverse

/-- The local name of a key: without its leading colon, or else from its last `#` on. -/
def localName (key : String) : String :=
  if key = "@type" then key
  else
    match Text.after? ":" key with
    | some name => name
    | none => String.ofList (afterLastHash key.toList)

/-- Is a bare text a locator of the own namespaces? -/
def isOwnLocator (text : String) : Bool :=
  text == Vocabulary.nil || Text.startsWith Vocabulary.ids text
    || Text.startsWith Vocabulary.terms text

/-- The value of a document that is not a literal object. -/
def scalarOf : Json → Value
  | .boolean b => .boolean b
  | .number n => Value.ofNumber n
  | .string s => .string s
  | _ => .null

/-- A property that is an object: a link, or a literal. -/
def objectProperty (codec : Codec) (key : String) (members : Fields Json) :
    Except Error RawProperty :=
  match members.get? Vocabulary.idKey with
  | some (.string locator) => .ok (.locator locator)
  | _ =>
    match members.get? "@value" with
    | none => .error (.malformed (.propertyObject key))
    | some (.string lexical) =>
      (codec.decodeLiteral lexical ((members.get? "@type").bind Json.string?)).map .value
    | some scalar => .ok (.value (scalarOf scalar))

/-- Several properties as one: a single one stands for itself. -/
def collapse : List RawProperty → RawProperty
  | [single] => single
  | items => .list items

mutual

/-- Read a property. -/
def rawProperty (codec : Codec) (key : String) : Json → Except Error RawProperty
  | .array items => do return collapse (← rawItems codec key [] items)
  | .object members => objectProperty codec key members
  | .string text =>
    if key = "@type" || isOwnLocator text then .ok (.locator text)
    else .ok (.value (.string text))
  | scalar => .ok (.value (scalarOf scalar))

/-- Read the elements of an array, without those that equal an earlier one. -/
def rawItems (codec : Codec) (key : String) (seen : List Json) :
    List Json → Except Error (List RawProperty)
  | [] => .ok []
  | item :: rest =>
    if seen.any (·.equals item) then rawItems codec key seen rest
    else do
      let first ← rawProperty codec key item
      return first :: (← rawItems codec key (seen ++ [item]) rest)

end

/-- Is the key about the record itself rather than a property? -/
def isRecordKey (key : String) : Bool :=
  key == Vocabulary.idKey || key == "@context"

/-- Read the properties of a record. -/
def rawProperties (codec : Codec) :
    List (String × Json) → Except Error (List (String × RawProperty))
  | [] => .ok []
  | (key, value) :: rest =>
    if isRecordKey key then rawProperties codec rest
    else do
      let property ← rawProperty codec key value
      return (localName key, property) :: (← rawProperties codec rest)

/-- The locator that is made for a record without an identifier. -/
def madeLocator (position : Nat) : String :=
  "_:record" ++ toString position

/-- The locator of a record. -/
def locatorOf (position : Nat) (members : Fields Json) : Except Error String :=
  match members.get? Vocabulary.idKey with
  | some (.string locator) => .ok locator
  | some other => .error (.malformed (.identifier other))
  | none => .ok (madeLocator position)

/-- Read a record. -/
def rawRecord (codec : Codec) (position : Nat) : Json → Except Error RawRecord
  | .object members => do
    let locator ← locatorOf position members
    return ⟨locator, ← rawProperties codec members⟩
  | other => .error (.malformed (.record other))

/-- Read records, the first of which has the given position. -/
def rawRecords (codec : Codec) : Nat → List Json → Except Error (List RawRecord)
  | _, [] => .ok []
  | position, record :: rest => do
    let first ← rawRecord codec position record
    return first :: (← rawRecords codec (position + 1) rest)

/-- The last position, counted from `position` on, at which the locator stands. -/
def lastPosition? (locator : String) : Nat → List String → Option Nat
  | _, [] => none
  | position, other :: rest =>
    match lastPosition? locator (position + 1) rest with
    | some later => some later
    | none => if other = locator then some position else none

/-- The position that a locator leads to. -/
def target? (locators : List String) (locator : String) : Option Nat :=
  lastPosition? locator 0 locators

mutual

/-- Turn locators into links. -/
def linked (target : String → Option Nat) : RawProperty → Decoded
  | .value v => .value v
  | .locator text =>
    match target text with
    | some position => .link position
    | none => .value (Literal.decodeLocator text)
  | .list items => .list (linkedItems target items)

/-- Turn the locators of several properties into links. -/
def linkedItems (target : String → Option Nat) : List RawProperty → List Decoded
  | [] => []
  | item :: rest => linked target item :: linkedItems target rest

end

/-- The properties of a record with their links. -/
def linkedProperties (target : String → Option Nat) (record : RawRecord) :
    List (String × Decoded) :=
  record.properties.map fun (name, property) => (name, linked target property)

/-- The name of a locator in the namespace of identifiers. -/
def nameOf? (locator : String) : Option Reference :=
  (Text.after? Vocabulary.ids locator).bind Reference.ofName?

/-- The node of a record. -/
def nodeOf (target : String → Option Nat) (record : RawRecord) : DecodedNode :=
  { id := nameOf? record.locator
    properties := Fields.ofList (linkedProperties target record)
    locator := record.locator }

/-- The positions that the record at a position links to, itself left out. -/
def linksFrom (target : String → Option Nat) (position : Nat) (record : RawRecord) : List Nat :=
  ((linkedProperties target record).flatMap fun property => property.2.links).filter
    (· != position)

/-- The positions that some other record links to; the first record has the given
position. -/
def splicedFrom (target : String → Option Nat) : Nat → List RawRecord → List Nat
  | _, [] => []
  | position, record :: rest =>
    linksFrom target position record ++ splicedFrom target (position + 1) rest

/-- The positions that are listed: of the records that links can lead to, all of them, or
only those that no other record links to. -/
def listedPositions (locators : List String) (spliced : List Nat) (unlink : Bool) : List Nat :=
  (List.range locators.length).filter fun position =>
    (locators[position]?.bind (target? locators)) == some position
      && !(unlink && spliced.contains position)

/-- Link records that have been read. With `unlink`, only the nodes to which no other record
links are listed. -/
def ofRecords (records : List RawRecord) (unlink : Bool) : ResultGraph :=
  let locators := records.map (·.locator)
  let target := target? locators
  { nodes := records.map (nodeOf target)
    topLevel := listedPositions locators (splicedFrom target 0 records) unlink }

/-- Decode a response. -/
def ofJson (codec : Codec) (response : Json) (unlink : Bool) : Except Error ResultGraph := do
  let records ← recordsOf response
  let raw ← rawRecords codec 0 records
  return ofRecords raw unlink

end ResultGraph

end LinkedData
