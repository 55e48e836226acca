import LinkedData.Error
import LinkedData.Text.Affix
import LinkedData.Vocabulary

/-!
# Terms on the wire

A name of the vocabulary is written `:name`, a name in angle brackets as it is, and a few
names with `@` stand for terms of the standard vocabularies.
-/

namespace LinkedData.Literal

/-- What a name with `@` stands for. -/
def reservedTerm? (name : String) : Option String :=
  match name with
  | "@type" => some "rdf:type"
  | "@subclass" => some ("<" ++ Vocabulary.rdfs ++ "subClassOf>")
  | "@subproperty" => some ("<" ++ Vocabulary.rdfs ++ "subPropertyOf>")
  | "@domain" => some ("<" ++ Vocabulary.rdfs ++ "domain>")
  | "@range" => some ("<" ++ Vocabulary.rdfs ++ "range>")
  | "@same_as" => some ("<" ++ Vocabulary.owl ++ "sameAs>")
  | "@functional" => some ("<" ++ Vocabulary.owl ++ "FunctionalProperty>")
  | "@some" => some ("<" ++ Vocabulary.owl ++ "someValuesFrom>")
  | "@all" => some ("<" ++ Vocabulary.owl ++ "allValuesFrom>")
  | _ => none

/-- The wire text of a name used as a property or a type. -/
def encodeTerm (name : String) : Except Error String :=
  if Text.startsWith "@" name then
    match reservedTerm? name with
    | some text => .ok text
    | none => .error (.unknownOperator name)
  else if Text.startsWith "<" name && Text.endsWith ">" name then .ok name
  else .ok (":" ++ name)

end LinkedData.Literal
