import LinkedData.Result.Decode

/-!
# Decoding tuples

A response to a select query is a list of bindings of variables to typed values, alone or
in a document under `results` and `bindings`.
-/

namespace LinkedData

/-- The bindings of one match. -/
abbrev Row := Fields Value

namespace Row

/-- The list of bindings of a response. -/
def bindingsOf : Json → Except Error (List Json)
  | .array items => .ok items
  | .object members =>
    match (Fields.get? "results" members).bind (Json.member? "bindings") with
    | some (.array items) => .ok items
    | _ => .error (.malformed .noBindings)
  | other => .error (.malformed (.tuples other))

/-- A bound value. -/
def boundValue (codec : Codec) (bound : Json) : Except Error Value :=
  match (bound.member? "value").bind Json.string? with
  | none => .error (.malformed (.boundValue bound))
  | some lexical =>
    let literal :=
      codec.decodeLiteral lexical ((bound.member? "datatype").bind Json.string?)
    match (bound.member? "type").bind Json.string? with
    | none => literal
    | some kind =>
      if kind = "uri" then .ok (Literal.decodeLocator lexical)
      else if kind = "bnode" then .ok (.iri ("_:" ++ lexical))
      else if kind = "literal" || kind = "typed-literal" then literal
      else .error (.malformed (.boundType kind))

/-- The name of a variable, without the mark that may be in front. -/
def variableName (name : String) : String :=
  (Text.after? "?" name).getD name

/-- The bindings of a match, added to those read before. -/
def addBindings (codec : Codec) (row : Row) : List (String × Json) → Except Error Row
  | [] => .ok row
  | (name, bound) :: rest => do
    let value ← boundValue codec bound
    addBindings codec (row.set (variableName name) value) rest

/-- A match. -/
def ofBinding (codec : Codec) : Json → Except Error Row
  | .object members => addBindings codec [] members
  | other => .error (.malformed (.binding other))

/-- Decode a response. -/
def allOfJson (codec : Codec) (response : Json) : Except Error (List Row) := do
  (← bindingsOf response).mapM (ofBinding codec)

/-- The document of several rows. -/
def documentOf (rows : List Row) : Json :=
  Value.toJson (.list (rows.map .node))

end Row

end LinkedData
