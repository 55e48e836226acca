import LinkedData.Proofs.Json.Reading
import LinkedData.Proofs.Json.RoundTrip
import LinkedData.Proofs.Value.Conventions

/-!
# Values written and read again

A value that was read from a document is written as a document, and that document, taken as it is
or as its text, is read as the same value (`Value.conventions_round_trip`). Its text is read at
all only if it is not nested too deeply and the numbers in it are read back.
-/

namespace LinkedData

/-- The text of a written value is read back as the document that was written. -/
theorem Value.GoesRound.read? {document : Json} (h : Value.GoesRound document)
    (hdepth : document.depth ≤ Json.maxDepth)
    (hfloats : ∀ x, .float x ∈ (Value.ofJson document).toJson.numbers →
      (Json.Number.float x).ReadsBack) :
    Json.read? (Value.ofJson document).toJson.compact = some (Value.ofJson document).toJson := by
  refine Json.read?_compact h.wellFormed ?_ hfloats
  rw [h.depth]
  exact hdepth

/-- What a text stands for is written as a text that stands for the same value, if the numbers
in that text are read back. -/
theorem Value.read?_written {text : String} {document : Json}
    (h : Json.read? text = some document)
    (hfloats : ∀ x, .float x ∈ (Value.ofJson document).toJson.numbers →
      (Json.Number.float x).ReadsBack) :
    (Json.read? (Value.ofJson document).toJson.compact).map Value.ofJson =
      some (Value.ofJson document) := by
  obtain ⟨hwellFormed, hdepth⟩ := Json.wellFormed_of_read? h
  have hround := Value.goesRound hwellFormed
  rw [hround.read? hdepth hfloats, Option.map_some, hround.value]

/-- What a document stands for is written as a document that stands for the same value, in
memory and, within what can be read, as a text. A document that was itself read from a text is
within what can be read. -/
theorem Value.conventions_round_trip {document : Json} (h : document.WellFormed) :
    Value.ofJson (Value.ofJson document).toJson = Value.ofJson document ∧
      (Value.ofJson (Value.ofJson document).toJson).equals (Value.ofJson document) = true ∧
      (document.depth ≤ Json.maxDepth →
        (∀ x, .float x ∈ (Value.ofJson document).toJson.numbers →
          (Json.Number.float x).ReadsBack) →
        (Json.read? (Value.ofJson document).toJson.compact).map Value.ofJson =
          some (Value.ofJson document)) ∧
      ∀ text, Json.read? text = some document →
        (∀ x, .float x ∈ (Value.ofJson document).toJson.numbers →
          (Json.Number.float x).ReadsBack) →
        (Json.read? (Value.ofJson document).toJson.compact).map Value.ofJson =
          some (Value.ofJson document) := by
  have hround := Value.goesRound h
  refine ⟨hround.value, ?_, fun hdepth hfloats => ?_, fun text htext hfloats => ?_⟩
  · rw [hround.value]
    exact hround.proper.equals_self
  · rw [hround.read? hdepth hfloats, Option.map_some, hround.value]
  · exact Value.read?_written htext hfloats

/-! ## A document with every convention -/

/-- One half. -/
def Binary64.half : Binary64 := ⟨0x3FE0000000000000⟩

theorem length_toString_nat (n : Nat) : (toString n).length = (Nat.toDigits 10 n).length := by
  rw [← String.length_toList]
  exact congrArg List.length Nat.toList_repr

theorem Json.text_half : (Json.Number.float .half).text = "0.5" := by
  -- digits are counted as a list, which is quick where the length of a long text is not
  have hplaces : Binary64.decimalPlaces Binary64.half.interval.value = 0 := by
    simp only [Binary64.decimalPlaces, length_toString_nat]
    decide +kernel
  simp only [Json.Number.text, Binary64.FloatFormat.write, Binary64.shortest, hplaces]
  decide +kernel

deriving instance DecidableEq for Json.Number

theorem Json.readsBack_half : (Json.Number.float .half).ReadsBack := by
  apply Json.readsBack_of_readSigned?
  rw [Json.text_half]
  decide +kernel

/-- A leap second in a loose form, and texts of all the other conventions. -/
def Json.sample : Json :=
  .object [("@id", .string "@id(ada)"), ("at", .string "2016-12-31 23:59:60.250z"),
    ("of", .array [.string ":lace", .string "<urn:a>", .string "?", .string "?x", .string "x"]),
    ("is", .object [("part", .number (.float .half)), ("left", .number (.negative (-1))),
      ("not", .null)])]

theorem Json.wellFormed_sample : Json.sample.WellFormed := by
  have hfinite : Binary64.half.isFinite = true := by decide
  have hnegative : (-1 : Int64) < 0 := by decide
  exact ⟨by decide, trivial, trivial, ⟨trivial, trivial, trivial, trivial, trivial, trivial⟩,
    ⟨by decide, hfinite, hnegative, trivial, trivial⟩, trivial⟩

theorem Value.conventions_round_trip_sample :
    Json.sample.WellFormed ∧
      (Json.read? (Value.ofJson Json.sample).toJson.compact).map Value.ofJson =
        some (Value.ofJson Json.sample) := by
  have hnumbers : (Value.ofJson Json.sample).toJson.numbers =
      [.float .half, .negative (-1)] := by
    decide +kernel
  refine ⟨Json.wellFormed_sample,
    (Value.conventions_round_trip Json.wellFormed_sample).2.2.1 (by decide) ?_⟩
  rw [hnumbers]
  intro x hx
  obtain rfl : x = .half := by simpa using hx
  exact Json.readsBack_half

end LinkedData
