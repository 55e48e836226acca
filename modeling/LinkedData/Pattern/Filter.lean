import LinkedData.Literal.Codec
import LinkedData.Pattern.Key

/-!
# Filters

A filter is a node with a single key, an operator:

* `$eq`, `$neq`, `$lt`, `$lte`, `$gt` and `$gte` compare with a scalar, or with the outcome
  of a nested filter;
* `$not` negates a filter, or excludes a scalar;
* `$like` asks for a match of a regular expression, whatever the case;
* `$in` asks for one of several values;
* `$and` and `$or` join filters.

A node is read into a `Filter` before anything is rendered, so an ill-formed payload leaves
no trace. Which texts are regular expressions is left to an engine: reading takes its judgement
as an argument.
-/

namespace LinkedData

/-- A filter. -/
inductive Filter where
  /-- a comparison with a literal -/
  | compare (op : FilterOp) (value : Value)
  /-- a comparison with the outcome of a filter -/
  | compareWith (op : FilterOp) (inner : Filter)
  /-- a negation -/
  | not (inner : Filter)
  /-- a match of a regular expression -/
  | like (pattern : String)
  /-- a conjunction -/
  | all (terms : List Filter)
  /-- a disjunction -/
  | any (terms : List Filter)

namespace Filter

/-- Is the node a filter rather than a pattern? It is if its only key is an operator. -/
def isFilter (entries : Node) : Bool :=
  match entries with
  | [(key, _)] => (FilterOp.ofKey? key).isSome
  | _ => false

/-- The operator of a key that must be one. -/
def operatorOf (key : String) : Except Error FilterOp := do
  match ← PatternKey.resolve key with
  | .operator op => .ok op
  | _ => .error (.invalidFilter (.notOperator key))

/-- Why a payload is not a list with at least one element. -/
def listFault (op : FilterOp) : Value → FilterFault
  | .list _ => .emptyList op
  | other => .expectsList op other.kind

section

variable (check : RegexCheck)

/-- A match of a regular expression. -/
def ofLike : Value → Except Error Filter
  | .string pattern =>
    match check pattern with
    | none => .ok (.like pattern)
    | some report => .error (.invalidFilter (.likePattern pattern report))
  | other => .error (.invalidFilter (.likeKind other.kind))

mutual

/-- The filter of a node. -/
def ofNode : List (String × Value) → Except Error Filter
  | [(key, payload)] => do
    match ← operatorOf key with
    | .not => ofNegated payload
    | .like => ofLike check payload
    | .oneOf =>
      match payload with
      | .list (first :: rest) => do return .any (← ofCandidates (first :: rest))
      | other => .error (.invalidFilter (listFault .oneOf other))
    | .all =>
      match payload with
      | .list (first :: rest) => do return .all (← ofTerms .all (first :: rest))
      | other => .error (.invalidFilter (listFault .all other))
    | .any =>
      match payload with
      | .list (first :: rest) => do return .any (← ofTerms .any (first :: rest))
      | other => .error (.invalidFilter (listFault .any other))
    | comparison => ofComparand comparison payload
  | entries => .error (.invalidFilter (.keyCount entries.length))

/-- A comparison with a payload. -/
def ofComparand (op : FilterOp) : Value → Except Error Filter
  | .node inner => do return .compareWith op (← ofNode inner)
  | .list _ => .error (.invalidFilter (.comparand .list))
  | .wildcard _ => .error (.invalidFilter (.comparand .wildcard))
  | scalar => .ok (.compare op scalar)

/-- A negation: of a filter, or of equality with a scalar. -/
def ofNegated : Value → Except Error Filter
  | .node inner => do return .not (← ofNode inner)
  | .list _ => .error (.invalidFilter .notOfList)
  | scalar => .ok (.not (.compare .eq scalar))

/-- Equality with each of several values. -/
def ofCandidates : List Value → Except Error (List Filter)
  | [] => .ok []
  | candidate :: rest => do
    let first ← ofComparand .eq candidate
    return first :: (← ofCandidates rest)

/-- Several filters, all given as nodes. -/
def ofTerms (op : FilterOp) : List Value → Except Error (List Filter)
  | [] => .ok []
  | .node inner :: rest => do
    let first ← ofNode inner
    return first :: (← ofTerms op rest)
  | other :: _ => .error (.invalidFilter (.expectsFilters op other.kind))

end

end

mutual

/-- The text of a filter on a variable. -/
def render (codec : Codec) (token : String) : Filter → Except Error String
  | .compare op value =>
    match op.symbol? with
    | none => .error (.invalidFilter (.notComparison op))
    | some symbol => do
      let operand ← codec.encodeLiteral value
      return "(" ++ token ++ " " ++ symbol ++ " " ++ operand ++ ")"
  | .compareWith op inner =>
    match op.symbol? with
    | none => .error (.invalidFilter (.notComparison op))
    | some symbol => do
      let operand ← render codec token inner
      return "(" ++ token ++ " " ++ symbol ++ " " ++ operand ++ ")"
  | .not inner => do return "!(" ++ (← render codec token inner) ++ ")"
  | .like pattern =>
    .ok ("(regex(" ++ token ++ ",\"" ++ Literal.escape pattern ++ "\",\"i\"))")
  | .all terms => do
    return "(" ++ "&&".intercalate (← renderTerms codec token terms) ++ ")"
  | .any terms => do
    return "(" ++ "||".intercalate (← renderTerms codec token terms) ++ ")"

/-- The texts of several filters. -/
def renderTerms (codec : Codec) (token : String) :
    List Filter → Except Error (List String)
  | [] => .ok []
  | term :: rest => do
    let first ← render codec token term
    return first :: (← renderTerms codec token rest)

end

/-- The clause of a rendered filter. -/
def clauseText (body : String) : String :=
  "FILTER(" ++ body ++ ")"

end Filter

end LinkedData
