import LinkedData.Literal.Codec
import LinkedData.Text.Quoted

/-!
# The summary of a codec

The kinds that a codec has handlers for, for people to read.
-/

namespace LinkedData.Codec

/-- The kinds that are handled, in the order of their code points. -/
def kinds (codec : Codec) : List String :=
  (codec.handlers.map (·.kind)).mergeSort

/-- A line that names the kinds. -/
def summary (codec : Codec) : String :=
  "ValueCodec \x7b kinds: [" ++ ", ".intercalate (codec.kinds.map Text.quoted) ++ "] \x7d"

end LinkedData.Codec
