import LinkedData.Binary64.Decimal
import Mathlib.Data.List.Induction
import Mathlib.Data.List.TakeWhile
import Mathlib.Data.Nat.Digits.Defs

/-!
# Runs of digits

Readers take as many digits as they find, so what they find is known only if something follows
that is no digit (`Stops`).
-/

namespace LinkedData.Text

/-- The text does not begin with a character of the class. -/
def Stops (p : Char → Bool) (rest : List Char) : Prop :=
  ∀ c, rest.head? = some c → p c = false

theorem Stops.takeWhile_append {p : Char → Bool} {rest : List Char} (h : Stops p rest)
    (cs : List Char) : (cs ++ rest).takeWhile p = cs.takeWhile p := by
  induction cs with
  | nil =>
    cases rest with
    | nil => rfl
    | cons c rest => exact List.takeWhile_cons_of_neg (by simp [h c rfl])
  | cons c cs ih => rw [List.cons_append, List.takeWhile_cons, List.takeWhile_cons, ih]

theorem Stops.dropWhile_append {p : Char → Bool} {rest : List Char} (h : Stops p rest)
    (cs : List Char) : (cs ++ rest).dropWhile p = cs.dropWhile p ++ rest := by
  induction cs with
  | nil =>
    cases rest with
    | nil => rfl
    | cons c rest => exact List.dropWhile_cons_of_neg (by simp [h c rfl])
  | cons c cs ih =>
    rw [List.cons_append, List.dropWhile_cons, List.dropWhile_cons, ih]
    split <;> rfl

theorem takeWhile_run {p : Char → Bool} {run : List Char} (h : ∀ c ∈ run, p c = true) :
    run.takeWhile p = run :=
  List.takeWhile_eq_self_iff.2 h

theorem dropWhile_run {p : Char → Bool} {run : List Char} (h : ∀ c ∈ run, p c = true) :
    run.dropWhile p = [] :=
  List.dropWhile_eq_nil_iff.2 h

/-! ## Decimal digits -/

/-- A digit lies between `0` and `9`. -/
theorem toNat_of_isDigit {c : Char} (h : c.isDigit = true) : 48 ≤ c.toNat ∧ c.toNat ≤ 57 := by
  have h' := h
  simp only [Char.isDigit, Bool.and_eq_true, decide_eq_true_eq] at h'
  exact ⟨h'.1, h'.2⟩

theorem isDigit_toDigits {n : Nat} {c : Char} (h : c ∈ Nat.toDigits 10 n) : c.isDigit = true :=
  Nat.isDigit_of_mem_toDigits (by decide) (by decide) h

theorem toDigits_injective {m n : Nat} (h : Nat.toDigits 10 m = Nat.toDigits 10 n) : m = n := by
  rw [← Nat.ofDigitChars_ten_toDigits (n := m), h, Nat.ofDigitChars_ten_toDigits]

theorem toString_nat_injective {m n : Nat} (h : toString m = toString n) : m = n := by
  apply toDigits_injective
  rw [← Nat.toList_repr, ← Nat.toList_repr]
  exact congrArg String.toList h

/-- The digits, all of them together, denote the number. -/
structure Denotes (digits : List Char) (n : Nat) : Prop where
  /-- they are digits -/
  isDigit : ∀ c ∈ digits, c.isDigit = true
  /-- they have this value -/
  value : Binary64.ofDigits digits = n

theorem denotes_toDigits (n : Nat) : Denotes (Nat.toDigits 10 n) n :=
  ⟨fun _ => isDigit_toDigits, Nat.ofDigitChars_ten_toDigits⟩

/-- Zeros in front do not count. -/
theorem Denotes.zeros {digits : List Char} {n : Nat} (h : Denotes digits n) (zeros : Nat) :
    Denotes (List.replicate zeros '0' ++ digits) n where
  isDigit := by
    intro c hc
    rcases List.mem_append.1 hc with hc | hc
    · rw [List.eq_of_mem_replicate hc]
      rfl
    · exact h.isDigit c hc
  value := by
    rw [← h.value]
    induction zeros with
    | zero => rfl
    | succ zeros ih => exact ih

/-- The decimal text of a whole number: digits, behind a minus if it is negative. -/
theorem toList_toString_int (n : Int) :
    (toString n).toList = Nat.toDigits 10 n.natAbs ∧ 0 ≤ n ∨
      (toString n).toList = '-' :: Nat.toDigits 10 n.natAbs ∧ n < 0 := by
  rw [Int.toString_eq_repr, Int.repr_eq_if]
  by_cases h : 0 ≤ n
  · left
    rw [if_pos h, Nat.toList_repr, show n.toNat = n.natAbs by omega]
    exact ⟨rfl, h⟩
  · right
    rw [if_neg h, String.toList_append, Nat.toList_repr, show (-n).toNat = n.natAbs by omega]
    exact ⟨rfl, by omega⟩

theorem digitValue_lt {c : Char} (h : c.isDigit = true) : Binary64.digitValue c < 10 := by
  have hle := (toNat_of_isDigit h).2
  have hzero : '0'.toNat = 48 := rfl
  rw [Binary64.digitValue, hzero]
  omega

/-- A number is smaller than the power of ten with as many zeros as it has digits. -/
theorem Denotes.lt {digits : List Char} {n : Nat} (h : Denotes digits n) :
    n < 10 ^ digits.length := by
  obtain ⟨hdigits, rfl⟩ := h
  induction digits using List.reverseRecOn with
  | nil => decide
  | append_singleton digits c ih =>
    have hc := digitValue_lt (hdigits c (by simp))
    have hbefore := ih fun d hd => hdigits d (List.mem_append_left _ hd)
    have hvalue : Binary64.ofDigits (digits ++ [c]) =
        10 * Binary64.ofDigits digits + Binary64.digitValue c := by
      simp [Binary64.ofDigits]
    rw [hvalue, List.length_append, List.length_singleton, Nat.pow_succ]
    omega

end LinkedData.Text
