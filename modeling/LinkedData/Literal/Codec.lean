import LinkedData.Binary64.Decimal
import LinkedData.Binary64.Shortest
import LinkedData.Error
import LinkedData.Literal.Escape
import LinkedData.Literal.Term
import LinkedData.Text.Blank
import LinkedData.Timestamp.Printer
import LinkedData.Timestamp.Reader

/-!
# Literals

A scalar goes over the wire as a quoted literal, with a datatype unless it is a text or a
null, or as a locator. Encoding goes by the kind of the value; decoding goes by the
datatype of the literal, or by the form of the locator.

Kinds that are not built in are *custom*: a handler registered for the kind gives the
datatype and both conversions. Without a handler a custom value is plain text.
-/

namespace LinkedData

/-- How one custom kind is written and read. -/
structure KindHandler where
  /-- the kind it handles -/
  kind : String
  /-- the datatype of its literals -/
  datatype : String
  /-- from the payload to the text between the quotes -/
  toLexical : String → Except Error String := .ok
  /-- from the text between the quotes to the payload -/
  fromLexical : String → Except Error String := .ok

/-- The handlers of custom kinds, one a kind, in the order in which the kinds first came. -/
structure Codec where
  /-- the handlers -/
  handlers : List KindHandler

namespace Codec

/-- No custom kinds. -/
def empty : Codec :=
  ⟨[]⟩

/-- Put a handler in the place of the one for the same kind, or at the end. -/
def insertHandler (handler : KindHandler) : List KindHandler → List KindHandler
  | [] => [handler]
  | other :: rest =>
    if other.kind = handler.kind then handler :: rest
    else other :: insertHandler handler rest

/-- Register a handler; an earlier one for the same kind is forgotten. -/
def register (codec : Codec) (handler : KindHandler) : Codec :=
  ⟨insertHandler handler codec.handlers⟩

/-- The codec with these handlers, registered in order. -/
def ofHandlers (handlers : List KindHandler) : Codec :=
  handlers.foldl register empty

/-- The handler of a kind. -/
def handler? (codec : Codec) (kind : String) : Option KindHandler :=
  codec.handlers.find? (·.kind == kind)

/-- The handler of a datatype. -/
def handlerOf? (codec : Codec) (datatype : String) : Option KindHandler :=
  codec.handlers.find? (·.datatype == datatype)

end Codec

namespace Literal

/-- Numbers are positional from `0.0001` up to below `10^16`; an exponent has a sign only
when it is negative. -/
def floatFormat : Binary64.FloatFormat :=
  { tieUp := true, leastPositional := -4, positionalBelow := 16, plusSign := false }

/-- The text of a number, or the name of a value that is not finite. -/
def floatText (x : Binary64) : String :=
  if x.isNaN then "NaN"
  else if x.isInfinite then (if x.isNegative then "-INF" else "INF")
  else floatFormat.write x

/-- A text in quotes. -/
def plain (text : String) : String :=
  "\"" ++ escape text ++ "\""

/-- A literal with a datatype. Its lexical form is written as it is. -/
def typed (lexical datatype : String) : String :=
  "\"" ++ lexical ++ "\"^^<" ++ datatype ++ ">"

/-- A locator in angle brackets. -/
def bracketed (locator : String) : String :=
  "<" ++ locator ++ ">"

end Literal

namespace Codec

open Literal

/-- The wire text of a scalar. A text of the form `@id(name)` is a reference. -/
def encodeLiteral (codec : Codec) : Value → Except Error String
  | .null => .ok ("\"" ++ Vocabulary.nil ++ "\"")
  | .boolean b => .ok (typed (if b then "true" else "false") Vocabulary.xsdBoolean)
  | .integer n => .ok (typed (toString n.toInt) Vocabulary.xsdInteger)
  | .float x => .ok (typed (floatText x) Vocabulary.xsdFloat)
  | .string s =>
    match Reference.ofTag? s with
    | some r => .ok (bracketed r.locator)
    | none => .ok (plain s)
  | .timestamp t => .ok (typed t.text Vocabulary.xsdDateTime)
  | .reference r => .ok (bracketed r.locator)
  | .term name => encodeTerm name
  | .iri locator => .ok (bracketed locator)
  | .custom kind payload =>
    match codec.handler? kind with
    | some handler => (handler.toLexical payload).map (typed · handler.datatype)
    | none => .ok (plain payload)
  | .node _ => .error (.unsupported (.noLiteralForm .node))
  | .list _ => .error (.unsupported (.noLiteralForm .list))
  | .wildcard _ => .error (.unsupported (.noLiteralForm .wildcard))

end Codec

namespace Literal

/-- A whole number in decimal, with an optional sign. -/
def readInteger? (cs : List Char) : Option Int :=
  let (negative, digits) := Binary64.splitSign cs
  if digits.isEmpty || !digits.all Char.isDigit then none
  else
    let n : Int := Binary64.ofDigits digits
    some (if negative then -n else n)

/-- A whole number that fits 64 bits with a sign. -/
def readInt64? (cs : List Char) : Option Int64 :=
  (readInteger? cs).bind fun n =>
    if Int64.minValue.toInt ≤ n ∧ n ≤ Int64.maxValue.toInt then some (Int64.ofInt n) else none

/-- The error for a literal that does not have the form of its datatype. -/
def malformed (lexical datatype : String) : Error :=
  .malformed (.literal lexical datatype)

/-- A literal of a datatype of whole numbers; blanks around the number do not matter. -/
def decodeInteger (lexical : String) : Except Error Value :=
  match readInt64? (Text.trim lexical.toList) with
  | some n => .ok (.integer n)
  | none => .error (malformed lexical Vocabulary.xsdInteger)

/-- A literal of a datatype of fractional numbers; blanks around it do not matter. -/
def decodeFloat (lexical : String) : Except Error Value :=
  match Binary64.read? (Text.trim lexical.toList) with
  | some x => .ok (.float x)
  | none => .error (malformed lexical Vocabulary.xsdFloat)

/-- A literal of the datatype of truth values. -/
def decodeBoolean (lexical : String) : Except Error Value :=
  if lexical = "true" ∨ lexical = "1" then .ok (.boolean true)
  else if lexical = "false" ∨ lexical = "0" then .ok (.boolean false)
  else .error (malformed lexical Vocabulary.xsdBoolean)

/-- A literal of the datatype of timestamps; without an offset it is universal time. -/
def decodeTimestamp (lexical : String) : Except Error Value :=
  match (Timestamp.read? lexical).or (Timestamp.readUnzoned? lexical) with
  | some t => .ok (.timestamp t)
  | none => .error (malformed lexical Vocabulary.xsdDateTime)

/-- The datatypes, besides `integer`, whose literals are whole numbers. -/
def integerNames : List String :=
  ["int", "long", "short", "nonNegativeInteger", "positiveInteger", "negativeInteger",
    "nonPositiveInteger"]

/-- The datatypes, besides `float`, whose literals are fractional numbers. -/
def floatNames : List String :=
  ["double", "decimal"]

/-- A datatype with the abbreviation `xsd:` spelled out. -/
def expandDatatype (datatype : String) : String :=
  match Text.after? "xsd:" datatype with
  | some name => Vocabulary.xsd ++ name
  | none => datatype

/-- The value that a locator stands for: the null, a reference, a term, or a foreign
locator. -/
def decodeLocator (locator : String) : Value :=
  if locator = Vocabulary.nil then .null
  else
    match (Text.after? Vocabulary.ids locator).bind Reference.ofName? with
    | some r => .reference r
    | none =>
      match Text.after? Vocabulary.terms locator with
      | some name => .term name
      | none => .iri locator

end Literal

namespace Codec

open Literal

/-- The value of a literal of a datatype that is spelled out. -/
def decodeTyped (codec : Codec) (lexical datatype : String) : Except Error Value :=
  if datatype = Vocabulary.xsdInteger then decodeInteger lexical
  else if datatype = Vocabulary.xsdFloat then decodeFloat lexical
  else if datatype = Vocabulary.xsdBoolean then decodeBoolean lexical
  else if datatype = Vocabulary.xsdDateTime then decodeTimestamp lexical
  else if datatype = Vocabulary.xsdString then .ok (.string lexical)
  else
    let name := (Text.after? Vocabulary.xsd datatype).getD ""
    if integerNames.contains name then decodeInteger lexical
    else if floatNames.contains name then decodeFloat lexical
    else
      match codec.handlerOf? datatype with
      | some handler => (handler.fromLexical lexical).map (.custom handler.kind)
      | none => .ok (.string lexical)

/-- The value of a literal. Without a datatype it is a text, or the null; with a datatype
that nobody registered it is a text too. -/
def decodeLiteral (codec : Codec) (lexical : String) (datatype : Option String) :
    Except Error Value :=
  match datatype with
  | none => if lexical = Vocabulary.nil then .ok .null else .ok (.string lexical)
  | some datatype => codec.decodeTyped lexical (expandDatatype datatype)

end Codec

end LinkedData
