import LinkedData.Literal.Codec
import LinkedData.Triple.Basic
import LinkedData.Triple.Identifier

/-!
# From object graphs to triples

The walk over a graph is depth first. The triples of everything that a node refers to come
before the node's own, and a node's own triples are contiguous, in the order of its
properties and of the elements of their lists.

Two kinds of input are accepted: a node, or a list of nodes; and a list without any node,
which is read three values at a time as flat statements.
-/

namespace LinkedData

/-- What an encoder carries along: the source of identifiers, and those it has minted in
the call under way. -/
structure Mint where
  /-- the source of identifiers -/
  allocator : IdAllocator
  /-- the identifiers minted so far, in the order of their nodes -/
  minted : List Reference

/-- A computation that may mint identifiers and may fail. What it minted before a failure
stays used up. -/
abbrev Minting (α : Type) := ExceptT Error (StateM Mint) α

namespace Minting

/-- Mint an identifier. -/
def fresh : Minting Reference := do
  let mint ← getThe Mint
  let (id, allocator) := mint.allocator.next
  set (⟨allocator, mint.minted ++ [id]⟩ : Mint)
  return id

/-- Use a result that needs no minting. -/
def lift {α : Type} : Except Error α → Minting α
  | .ok a => pure a
  | .error e => throw e

end Minting

namespace Triple

/-- The predicate of a key of stored data. Keys that only patterns understand are refused. -/
def encodeKey (key : String) : Except Error String :=
  if Text.startsWith "$" key then .error (.unknownOperator key)
  else if Text.startsWith "?" key then .error (.unsupported (.wildcardKey key))
  else Literal.encodeTerm key

/-- The subject token of a node with this `@id`; without one a fresh identifier is minted. -/
def subjectOf (id : Option Value) : Minting String :=
  match id with
  | none | some .null => do return Literal.bracketed (← Minting.fresh).locator
  | some (.reference r) => return Literal.bracketed r.locator
  | some (.string s) =>
    match Reference.normalize? s with
    | some r => return Literal.bracketed r.locator
    | none => throw (.unsupported (.identifierText s))
  | some (.iri locator) => return Literal.bracketed locator
  | some other => throw (.unsupported (.identifierKind other.kind))

/-- The triples of the nodes below, and the own triples of the node. -/
structure Emitted where
  /-- the triples of nested nodes -/
  nested : List Triple
  /-- the triples about the node itself -/
  own : List Triple

mutual

/-- The triples that must precede a value, and the token that stands for it. A list has no
token; `key` is the property that holds it. -/
def encodeObject (codec : Codec) (key : String) : Value → Minting (List Triple × String)
  | .node entries => do
    let subject ← subjectOf (Fields.get? Vocabulary.idKey entries)
    let emitted ← encodeEntries codec subject entries
    return (emitted.nested ++ emitted.own, subject)
  | .list _ => throw (.unsupported (.nestedProperty key))
  | scalar => do return ([], ← Minting.lift (codec.encodeLiteral scalar))

/-- The elements of a list, each with a triple of its own. -/
def encodeItems (codec : Codec) (subject predicate key : String) :
    List Value → Minting Emitted
  | [] => return ⟨[], []⟩
  | item :: rest => do
    let (before, object) ← encodeObject codec key item
    let emitted ← encodeItems codec subject predicate key rest
    return ⟨before ++ emitted.nested, ⟨subject, predicate, object⟩ :: emitted.own⟩

/-- The properties of a node. -/
def encodeEntries (codec : Codec) (subject : String) :
    List (String × Value) → Minting Emitted
  | [] => return ⟨[], []⟩
  | (key, value) :: rest => do
    if key = Vocabulary.idKey then encodeEntries codec subject rest
    else
      let predicate ← Minting.lift (encodeKey key)
      let here ←
        match value with
        | .list items => encodeItems codec subject predicate key items
        | single => do
          let (before, object) ← encodeObject codec key single
          pure ⟨before, [⟨subject, predicate, object⟩]⟩
      let emitted ← encodeEntries codec subject rest
      return ⟨here.nested ++ emitted.nested, here.own ++ emitted.own⟩

end

/-- The triples of a node, and its subject token. -/
def encodeNode (codec : Codec) (entries : Node) : Minting (List Triple × String) :=
  encodeObject codec "" (.node entries)

/-- The triples of a list of nodes, one after the other. -/
def encodeNodes (codec : Codec) : List Value → Minting (List Triple)
  | [] => return []
  | .node entries :: rest => do
    let (triples, _) ← encodeNode codec entries
    return triples ++ (← encodeNodes codec rest)
  | other :: _ => throw (.unsupported (.mixedNodeList other.kind))

/-- Flat statements, three values at a time. -/
def statementTriples (codec : Codec) : List Value → Except Error (List Triple)
  | s :: p :: o :: rest => do
    let subject ← codec.encodeLiteral s
    let predicate ← codec.encodeLiteral p
    let object ← codec.encodeLiteral o
    return ⟨subject, predicate, object⟩ :: (← statementTriples codec rest)
  | _ => .ok []

/-- The triples of a list of flat statements. -/
def ofStatements (codec : Codec) (items : List Value) : Except Error (List Triple) :=
  if items.length % 3 = 0 then statementTriples codec items
  else .error (.unsupported (.statementCount items.length))

end Triple

/-- What encoding a value gives. -/
structure Encoded where
  /-- the triples, in order -/
  triples : List Triple
  /-- the subject token of the root, if the value is a single node -/
  root : Option String
  /-- the identifiers minted for nodes without one, in the order of the nodes -/
  allocated : List Reference

namespace Encoded

/-- The triples and the root of a value. -/
def build (codec : Codec) (value : Value) : Minting (List Triple × Option String) :=
  match value with
  | .node entries => do
    let (triples, subject) ← Triple.encodeNode codec entries
    return (triples, some subject)
  | .list items => do
    if value.containsNode then return (← Triple.encodeNodes codec items, none)
    else return (← Minting.lift (Triple.ofStatements codec items), none)
  | other => throw (.unsupported (.topLevel other.kind))

/-- Encode a value with identifiers from an allocator; the allocator moves on whether or
not encoding succeeds. -/
def ofValue (codec : Codec) (value : Value) (allocator : IdAllocator) :
    Except Error Encoded × IdAllocator :=
  let (result, mint) := (build codec value).run ⟨allocator, []⟩
  (result.map fun (triples, root) => ⟨triples, root, mint.minted⟩, mint.allocator)

end Encoded

end LinkedData
