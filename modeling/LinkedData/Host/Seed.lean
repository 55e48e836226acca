import LinkedData.Triple.Identifier

/-!
# Identifiers of a seed

The program draws its identifiers from a stream of mixed 64-bit words that a seed determines, so
equal seeds give equal identifiers. The mixing function is a bijection and the state moves by an
odd constant, so the words of one stream do not repeat before all of them have been drawn.
-/

namespace LinkedData.IdAllocator

/-- How far the state moves with each word. -/
def step : UInt64 := 0x9e3779b97f4a7c15

/-- Spread a state over all bits of a word. -/
def mix (z : UInt64) : UInt64 :=
  let z := (z ^^^ (z >>> 30)) * 0xbf58476d1ce4e5b9
  let z := (z ^^^ (z >>> 27)) * 0x94d049bb133111eb
  z ^^^ (z >>> 31)

/-- The words of a seed. -/
def word (seed : UInt64) (i : Nat) : BitVec 64 :=
  (mix (seed + step * (i + 1).toUInt64)).toBitVec

/-- The allocator of a seed. An identifier takes two words. -/
def seeded (seed : UInt64) : IdAllocator :=
  ⟨fun i => word seed (2 * i) ++ word seed (2 * i + 1), 0⟩

end LinkedData.IdAllocator
