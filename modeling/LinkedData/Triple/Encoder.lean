import LinkedData.Triple.Encode

/-!
# Encoders

An encoder owns a source of identifiers and is used for one value after the other. It keeps a
list of what it mints: the list is cleared when a call begins and handed out when the call
succeeds. A call that fails leaves it as it is.
-/

namespace LinkedData

namespace Minting

/-- Forget the identifiers of the call before. -/
def clear : Minting Unit := do
  let mint ← getThe Mint
  set (⟨mint.allocator, []⟩ : Mint)

/-- Hand out the identifiers minted so far, and keep none of them. -/
def take : Minting (List Reference) := do
  let mint ← getThe Mint
  set (⟨mint.allocator, []⟩ : Mint)
  return mint.minted

/-- Encode a value and hand out what was minted. Flat statements name no node that could need an
identifier. -/
def encode (codec : Codec) : Value → Minting Encoded
  | .node entries => do
    let (triples, subject) ← Triple.encodeNode codec entries
    return ⟨triples, some subject, ← take⟩
  | .list items => do
    if (Value.list items).containsNode then
      let triples ← Triple.encodeNodes codec items
      return ⟨triples, none, ← take⟩
    else
      let triples ← lift (Triple.ofStatements codec items)
      return ⟨triples, none, []⟩
  | other => throw (.unsupported (.topLevel other.kind))

/-- One call. -/
def call (codec : Codec) (value : Value) : Minting Encoded := do
  clear
  encode codec value

end Minting

/-- A codec, a source of identifiers, and those minted since they were last cleared or handed
out. -/
structure Encoder where
  /-- how scalars are written -/
  codec : Codec
  /-- the source of identifiers, and the identifiers kept -/
  mint : Mint

namespace Encoder

/-- A new encoder that mints with this allocator. -/
def withAllocator (codec : Codec) (allocator : IdAllocator) : Encoder :=
  ⟨codec, ⟨allocator, []⟩⟩

/-- Encode a value: what comes of it, and the encoder afterwards. -/
def encode (encoder : Encoder) (value : Value) : Except Error Encoded × Encoder :=
  let (outcome, mint) := (Minting.call encoder.codec value).run encoder.mint
  (outcome, ⟨encoder.codec, mint⟩)

/-- A call, and how it went. -/
structure Call where
  /-- the encoder when the call began -/
  began : Encoder
  /-- what was to be encoded -/
  value : Value
  /-- what came of it -/
  outcome : Except Error Encoded
  /-- the encoder when the call had ended -/
  ended : Encoder

/-- Encode the values, one call after the other on the same encoder, whatever comes of each. -/
def calls : Encoder → List Value → List Call
  | _, [] => []
  | encoder, value :: rest =>
    let (outcome, ended) := encoder.encode value
    ⟨encoder, value, outcome, ended⟩ :: calls ended rest

end Encoder

end LinkedData
