import LinkedData.Text.Hex
import LinkedData.Value.Reference

/-!
# Minted identifiers

A node that is stored without an identifier gets one: 128 bits in 32 hexadecimal digits. Where
the bits come from is left open. An allocator has a stream of them and draws one after the other,
so what it gives is determined by the stream and by how often it has been used.
-/

namespace LinkedData

/-- A source of fresh identifiers. -/
structure IdAllocator where
  /-- the bits of all identifiers, in the order in which they are drawn -/
  bits : Nat → BitVec 128
  /-- how many have been drawn -/
  drawn : Nat

namespace IdAllocator

/-- The last `count` hexadecimal digits of a number. -/
def hexDigits (value : Nat) : Nat → List Char
  | 0 => []
  | count + 1 => hexDigits (value / 16) count ++ [Text.lastHexDigit value]

theorem isWordChar_hexDigit (n : Fin 16) : Text.isWordChar (Text.hexDigit n) = true := by
  have : (Text.hexDigit n).isAlpha = true ∨ (Text.hexDigit n).isDigit = true := by
    revert n; decide
  rcases this with h | h
  · simp [Text.isWordChar, Text.isAlphanumeric, Text.isAlphabetic_of_isAlpha h]
  · simp [Text.isWordChar, Text.isAlphanumeric, Text.isNumeric_of_isDigit h]

theorem all_hexDigits (value count : Nat) :
    (hexDigits value count).all Text.isWordChar = true := by
  induction count generalizing value with
  | zero => rfl
  | succ count ih => simp [hexDigits, Text.lastHexDigit, ih, isWordChar_hexDigit]

theorem length_hexDigits (value count : Nat) : (hexDigits value count).length = count := by
  induction count generalizing value with
  | zero => rfl
  | succ count ih => simp [hexDigits, ih]

/-- The reference whose name is 32 hexadecimal digits. -/
def ofBits (value : Nat) : Reference where
  name := String.ofList (hexDigits value 32)
  isWord := by
    have h := length_hexDigits value 32
    have hne : hexDigits value 32 ≠ [] := fun hn => by simp [hn] at h
    simp [Text.isWord, hne, -List.all_eq_true, all_hexDigits]

/-- The next identifier, and the allocator after it. -/
def next (a : IdAllocator) : Reference × IdAllocator :=
  (ofBits (a.bits a.drawn).toNat, { a with drawn := a.drawn + 1 })

/-- The allocator of consecutive numbers. -/
def countingFrom (start : Nat) : IdAllocator :=
  ⟨fun i => .ofNat 128 (start + i), 0⟩

end IdAllocator

end LinkedData
