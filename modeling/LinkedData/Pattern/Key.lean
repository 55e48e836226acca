import LinkedData.Literal.Term

/-!
# Keys of patterns

A key of a pattern is classified once, before its value is looked at: the identifier, an
optional branch, an edge that is followed backwards, a filter operator, a variable in the
place of a property, or a property.
-/

namespace LinkedData

namespace FilterOp

/-- The operator of a key. -/
def ofKey? (key : String) : Option FilterOp :=
  match key with
  | "$eq" => some .eq
  | "$neq" => some .neq
  | "$lt" => some .lt
  | "$lte" => some .lte
  | "$lteq" => some .lte
  | "$gt" => some .gt
  | "$gte" => some .gte
  | "$gteq" => some .gte
  | "$not" => some .not
  | "$like" => some .like
  | "$in" => some .oneOf
  | "$and" => some .all
  | "$or" => some .any
  | _ => none

/-- The sign of a comparison; the other operators have none. -/
def symbol? : FilterOp → Option String
  | .eq => some "="
  | .neq => some "!="
  | .lt => some "<"
  | .lte => some "<="
  | .gt => some ">"
  | .gte => some ">="
  | _ => none

end FilterOp

/-- What a key of a pattern means. -/
inductive PatternKey where
  /-- `@id`: the identifier of the node -/
  | id
  /-- `$optional`: a branch that need not match -/
  | optional
  /-- `$inv_name`: an edge that leads to the node -/
  | inverse (name : String)
  /-- an operator of a filter -/
  | operator (op : FilterOp)
  /-- `?` or `?name`: the property is a variable -/
  | wildcard (name : Option String)
  /-- a property, as wire text -/
  | property (predicate : String)

namespace PatternKey

/-- The key of optional branches. -/
def optionalKey : String := "$optional"

/-- What the keys of edges that are followed backwards begin with. -/
def inverseMark : String := "$inv_"

/-- Classify a key. -/
def resolve (key : String) : Except Error PatternKey :=
  if key = Vocabulary.idKey then .ok .id
  else if key = optionalKey then .ok .optional
  else
    match Text.after? inverseMark key with
    | some name => if name.isEmpty then .error (.unknownOperator key) else .ok (.inverse name)
    | none =>
      if Text.startsWith "$" key then
        match FilterOp.ofKey? key with
        | some op => .ok (.operator op)
        | none => .error (.unknownOperator key)
      else
        match Text.after? "?" key with
        | some name => .ok (.wildcard (if name.isEmpty then none else some name))
        | none => (Literal.encodeTerm key).map .property

end PatternKey

end LinkedData
