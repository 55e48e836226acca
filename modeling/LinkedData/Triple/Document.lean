import LinkedData.Triple.Encode

/-!
# Statement documents

Triples as text: the declarations of the namespaces, then the statements, each ended by a
point, one a line.
-/

namespace LinkedData.Triple

/-- The declarations of the namespaces; documents of schema statements need one more. -/
def declarations (schema : Bool) : String :=
  "@prefix : <" ++ Vocabulary.terms ++ "> . @prefix rdf: <" ++ Vocabulary.rdf ++ "> . "
    ++ if schema then "@prefix rdfs: <" ++ Vocabulary.rdfs ++ "> . " else ""

/-- The document of a list of triples. -/
def document (schema : Bool) (triples : List Triple) : String :=
  if triples.isEmpty then declarations schema
  else declarations schema ++ " .\n ".intercalate (triples.map text) ++ " ."

/-- Encode a value and write it as a document; the allocator moves on. -/
def documentOf (codec : Codec) (schema : Bool) (value : Value) (allocator : IdAllocator) :
    Except Error String :=
  (Encoded.ofValue codec value allocator).1.map fun encoded => document schema encoded.triples

end LinkedData.Triple
