import LinkedData.Text.Affix
import LinkedData.Text.Alphanumeric
import LinkedData.Vocabulary

/-!
# References

A reference points at a node by its name, a word. It is written `@id(name)`, and the
node's full locator is the name in the namespace of identifiers.
-/

namespace LinkedData

/-- A name that points at a node. -/
structure Reference where
  /-- the name -/
  name : String
  /-- the name is a word -/
  isWord : Text.isWord name = true
  deriving DecidableEq

namespace Reference

/-- The reference with this name, if it is a word. -/
def ofName? (name : String) : Option Reference :=
  if h : Text.isWord name = true then some ⟨name, h⟩ else none

/-- Read the tagged form `@id(name)`. -/
def ofTag? (text : String) : Option Reference :=
  (Text.between? "@id(" ")" text).bind ofName?

/-- Read a name with or without its tag. -/
def normalize? (text : String) : Option Reference :=
  (ofTag? text).or (ofName? text)

/-- The tagged form. -/
def tag (r : Reference) : String :=
  "@id(" ++ r.name ++ ")"

/-- The full locator of the node. -/
def locator (r : Reference) : String :=
  Vocabulary.ids ++ r.name

/-- A locator holds word characters and what is in the namespace. -/
theorem not_mem_locator {c : Char} (hc : Text.isWordChar c = false)
    (hids : c ∉ Vocabulary.ids.toList) (r : Reference) : c ∉ r.locator.toList := by
  have hword : r.name.toList.all Text.isWordChar = true := (Bool.and_eq_true_iff.1 r.isWord).2
  rw [locator, String.toList_append, List.mem_append, not_or]
  exact ⟨hids, Text.not_mem_of_all_isWordChar hword hc⟩

theorem ofName?_name (r : Reference) : ofName? r.name = some r := by
  simp [ofName?, r.isWord]

theorem name_of_ofName? {name : String} {r : Reference} (h : ofName? name = some r) :
    r.name = name := by
  unfold ofName? at h
  split at h
  · exact (Option.some.inj h) ▸ rfl
  · contradiction

theorem ofTag?_tag (r : Reference) : ofTag? r.tag = some r := by
  have : Text.between? "@id(" ")" r.tag = some r.name := Text.between?_eq_some_iff.2 rfl
  simp [ofTag?, this, ofName?_name]

end Reference

end LinkedData
