import LinkedData.Json.Printer
import LinkedData.Store.Failure
import LinkedData.Value.Basic

/-!
# Errors

An error says what is wrong; the words for it are in `Error.message` and the functions
below it, and nowhere else. Handlers of custom kinds may refuse in words of their own,
which is what the `other` cases are for. Some errors repeat what another library reports
(`Libraries`).
-/

namespace LinkedData

/-- The judgement of an engine on a text: none if the text is a regular expression, and a report
otherwise. -/
abbrev RegexCheck : Type :=
  String → Option String

/-- The engine that takes every text for a regular expression. -/
def RegexCheck.lenient : RegexCheck :=
  fun _ => none

/-- What is left to other libraries. -/
structure Libraries where
  /-- which texts are regular expressions -/
  regex : RegexCheck
  /-- what is reported of a text that is no JSON document -/
  notJson : String → String

/-- The operators of filters. -/
inductive FilterOp where
  | eq | neq | lt | lte | gt | gte | not | like | oneOf | all | any
  deriving DecidableEq

/-- The name of an operator, as messages use it. -/
def FilterOp.name : FilterOp → String
  | .eq => "Eq"
  | .neq => "Neq"
  | .lt => "Lt"
  | .lte => "Lte"
  | .gt => "Gt"
  | .gte => "Gte"
  | .not => "Not"
  | .like => "Like"
  | .oneOf => "In"
  | .all => "And"
  | .any => "Or"

/-- The key of an operator that takes a list, as messages use it. -/
def FilterOp.listKey : FilterOp → String
  | .all => "$and"
  | .any => "$or"
  | _ => "$in"

/-- Why a value has no wire form where it stands. -/
inductive Unsupported where
  /-- this kind of value is no literal -/
  | noLiteralForm (kind : Value.Kind)
  /-- a list that holds nodes also holds something else -/
  | mixedNodeList (kind : Value.Kind)
  /-- flat statements do not come in threes -/
  | statementCount (count : Nat)
  /-- neither a node nor a list -/
  | topLevel (kind : Value.Kind)
  /-- a property holds a list in a list -/
  | nestedProperty (key : String)
  /-- a pattern holds a list in a list -/
  | nestedPattern
  /-- an identifier that is not a name -/
  | identifierText (text : String)
  /-- this kind of value identifies nothing -/
  | identifierKind (kind : Value.Kind)
  /-- a wildcard as a key of stored data -/
  | wildcardKey (key : String)
  /-- a wildcard whose name is not a word -/
  | variableName (name : String)
  /-- an optional branch that is not a node -/
  | optionalKind (kind : Value.Kind)
  /-- a handler's refusal, in its own words -/
  | other (message : String)

/-- The words for an unsupported value. -/
def Unsupported.message : Unsupported → String
  | .noLiteralForm kind => kind.name ++ " has no literal form"
  | .mixedNodeList kind => "a list of nodes cannot also hold a " ++ kind.name
  | .statementCount count =>
    "flat statement list has " ++ toString count ++ " values, expected a multiple of three"
  | .topLevel kind => "cannot encode a top-level " ++ kind.name
  | .nestedProperty key => "property `" ++ key ++ "` holds a nested list"
  | .nestedPattern => "nested lists are not valid in patterns"
  | .identifierText text => "`" ++ text ++ "` is not a valid identifier"
  | .identifierKind kind => "a " ++ kind.name ++ " cannot be used as an identifier"
  | .wildcardKey key => "wildcard key `" ++ key ++ "` is only valid in query patterns"
  | .variableName name => "`?" ++ name ++ "` is not a valid variable name"
  | .optionalKind kind => "$optional expects a pattern, got a " ++ kind.name
  | .other message => message

/-- Why a filter is ill formed. -/
inductive FilterFault where
  /-- not exactly one key -/
  | keyCount (count : Nat)
  /-- the key is not an operator -/
  | notOperator (key : String)
  /-- `$not` of a list -/
  | notOfList
  /-- the pattern of `$like` is not a regular expression, as the engine reports -/
  | likePattern (pattern report : String)
  /-- the pattern of `$like` is not a text -/
  | likeKind (kind : Value.Kind)
  /-- the operator needs at least one entry -/
  | emptyList (op : FilterOp)
  /-- the operator expects a list -/
  | expectsList (op : FilterOp) (kind : Value.Kind)
  /-- the operator expects filters -/
  | expectsFilters (op : FilterOp) (kind : Value.Kind)
  /-- this kind of value cannot be compared with -/
  | comparand (kind : Value.Kind)
  /-- a comparison with an operator that compares nothing -/
  | notComparison (op : FilterOp)
  /-- a filter where a whole pattern is expected -/
  | patternRoot
  /-- an operator among other keys -/
  | mixedOperator (key : String)
  /-- a filter as an optional branch -/
  | optionalFilter
  /-- a handler's refusal, in its own words -/
  | other (message : String)

/-- The words for an ill-formed filter. -/
def FilterFault.message : FilterFault → String
  | .keyCount count =>
    "a filter must have exactly one operator key, found " ++ toString count
  | .notOperator key => "`" ++ key ++ "` is not a filter operator"
  | .notOfList => "$not expects a filter or a single value"
  | .likePattern pattern report => "$like pattern `" ++ pattern ++ "`: " ++ report
  | .likeKind kind => "$like expects a text pattern, got a " ++ kind.name
  | .emptyList op => op.listKey ++ " needs at least one entry"
  | .expectsList op kind => op.listKey ++ " expects a list, got a " ++ kind.name
  | .expectsFilters op kind => op.listKey ++ " expects filters, got a " ++ kind.name
  | .comparand kind => "a comparison cannot take a " ++ kind.name
  | .notComparison op => op.name ++ " is not a comparison"
  | .patternRoot => "a filter expression cannot be a pattern root"
  | .mixedOperator key =>
    "operator `" ++ key ++ "` must be the only key of a filter expression"
  | .optionalFilter => "$optional expects a pattern, got a filter expression"
  | .other message => message

/-- Why a response of the store cannot be decoded. -/
inductive Malformed where
  /-- a literal does not have the form of its datatype -/
  | literal (lexical datatype : String)
  /-- a record is not an object -/
  | record (found : Json)
  /-- an identifier is not a text -/
  | identifier (found : Json)
  /-- `@graph` is not a list -/
  | graph (found : Json)
  /-- neither records nor a document that holds them -/
  | records (found : Json)
  /-- an object that is neither a link nor a literal -/
  | propertyObject (key : String)
  /-- a document of tuples without its list of bindings -/
  | noBindings
  /-- neither bindings nor a document that holds them -/
  | tuples (found : Json)
  /-- a binding is not an object -/
  | binding (found : Json)
  /-- a bound value without a text -/
  | boundValue (found : Json)
  /-- a bound value of an unknown type -/
  | boundType (name : String)
  /-- the response is not a JSON document, as the library that reads it reports -/
  | notJson (report : String)
  /-- a handler's refusal, in its own words -/
  | other (message : String)

/-- The words for a malformed response. -/
def Malformed.message : Malformed → String
  | .literal lexical datatype =>
    "`" ++ lexical ++ "` is not a valid <" ++ datatype ++ "> literal"
  | .record found => "expected a node record, got " ++ found.compact
  | .identifier found => "`@id` must be text, got " ++ found.compact
  | .graph found => "`@graph` must be a list, got " ++ found.compact
  | .records found => "expected node records, got " ++ found.compact
  | .propertyObject key =>
    "property `" ++ key ++ "` holds an object with neither @id nor @value"
  | .noBindings => "tuple results carry no `results.bindings` list"
  | .tuples found => "expected tuple results, got " ++ found.compact
  | .binding found => "expected a tuple binding, got " ++ found.compact
  | .boundValue found => "tuple value without a text `value`: " ++ found.compact
  | .boundType name => "unknown tuple value type `" ++ name ++ "`"
  | .notJson report => "response is not JSON: " ++ report
  | .other message => message

/-- What can go wrong while encoding, compiling, decoding or talking to the store. -/
inductive Error where
  /-- a value without a wire form where it stands -/
  | unsupported (cause : Unsupported)
  /-- an ill-formed filter -/
  | invalidFilter (fault : FilterFault)
  /-- a key with `$` or a term with `@` that has no meaning -/
  | unknownOperator (name : String)
  /-- the store refused a write on integrity grounds -/
  | rejected (message : String) (cause : Store.Failure)
  /-- any other failure of the store -/
  | store (cause : Store.Failure)
  /-- no query has been defined yet -/
  | noActiveQuery
  /-- a response that cannot be decoded -/
  | malformed (cause : Malformed)

namespace Error

/-- The text of an error. -/
def message : Error → String
  | .unsupported cause => "unsupported value kind: " ++ cause.message
  | .invalidFilter fault => "invalid filter shape: " ++ fault.message
  | .unknownOperator name => "unknown operator: " ++ name
  | .rejected message cause => message ++ ": " ++ cause.text
  | .store cause => "store error: " ++ cause.text
  | .noActiveQuery => "no query has been defined"
  | .malformed cause => "malformed response: " ++ cause.message

/-- The failure of the store behind an error, if there is one. -/
def cause? : Error → Option Store.Failure
  | .rejected _ cause => some cause
  | .store cause => some cause
  | _ => none

end Error

end LinkedData
