/-!
# Namespaces

The addressing scheme of stored graphs. Changing one of these texts makes graphs that were
stored before unreadable.
-/

namespace LinkedData.Vocabulary

/-- Property and type names (`:name`). -/
def terms : String := "http://grel.org/vocabulary#"

/-- Locators of nodes with a name of their own. -/
def ids : String := "http://grel.org/ids/id/"

/-- The datatypes of XML Schema. -/
def xsd : String := "http://www.w3.org/2001/XMLSchema#"

/-- The namespace abbreviated `rdf:`. -/
def rdf : String := "http://www.w3.org/1999/02/22-rdf-syntax-ns#"

/-- The namespace abbreviated `rdfs:`. -/
def rdfs : String := "http://www.w3.org/2000/01/rdf-schema#"

/-- The namespace of ontology terms. -/
def owl : String := "http://www.w3.org/2002/07/owl#"

/-- The namespace abbreviated `fn:`. -/
def functions : String := "http://www.w3.org/2005/xpath-functions#"

/-- What an explicit null is stored as. -/
def nil : String := "http://www.w3.org/1999/02/22-rdf-syntax-ns#nil"

/-- The datatype of whole numbers. -/
def xsdInteger : String := "http://www.w3.org/2001/XMLSchema#integer"

/-- The datatype of binary floating-point numbers. -/
def xsdFloat : String := "http://www.w3.org/2001/XMLSchema#float"

/-- The datatype of truth values. -/
def xsdBoolean : String := "http://www.w3.org/2001/XMLSchema#boolean"

/-- The datatype of timestamps. -/
def xsdDateTime : String := "http://www.w3.org/2001/XMLSchema#dateTime"

/-- The datatype of texts. -/
def xsdString : String := "http://www.w3.org/2001/XMLSchema#string"

/-- The media type of statement documents. -/
def turtleMedia : String := "text/turtle"

/-- The media type in which matched nodes are fetched for removal. -/
def rdfXmlMedia : String := "application/rdf+xml"

/-- The key under which a node holds its identifier. -/
def idKey : String := "@id"

end LinkedData.Vocabulary
