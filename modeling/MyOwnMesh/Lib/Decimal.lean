import MyOwnMesh.Lib.Text

/-!
# Decimal numbers

`str::parse` for the unsigned types: digits, after a plus sign perhaps, of a number that the type
holds.
-/

namespace Lib.Text

/-- The type holds the numbers below `bound`. -/
def parseDecimal (bound : Nat) (cs : List Char) : Option Nat :=
  let digits := (afterChars ['+'] cs).getD cs
  if digits.isEmpty || !digits.all Char.isDigit then none
  else if Nat.ofDigitChars 10 digits 0 < bound then some (Nat.ofDigitChars 10 digits 0)
  else none

/-- Digits are read as their number where the type holds it. -/
theorem parseDecimal_digits {bound : Nat} {digits : List Char} (hne : digits ≠ [])
    (hdigit : ∀ c ∈ digits, c.isDigit = true) (hlt : Nat.ofDigitChars 10 digits 0 < bound) :
    parseDecimal bound digits = some (Nat.ofDigitChars 10 digits 0) := by
  have hplus : afterChars ['+'] digits = none := by
    apply afterChars_singleton_of_ne
    intro h
    exact absurd (hdigit '+' (List.mem_of_mem_head? h)) (by decide)
  have hall : digits.all Char.isDigit = true := List.all_eq_true.mpr hdigit
  have hempty : digits.isEmpty = false := List.isEmpty_eq_false_iff.mpr hne
  unfold parseDecimal
  simp only [hplus, Option.getD_none, hempty, hall, Bool.not_true, Bool.or_self,
    Bool.false_eq_true, if_false, hlt, if_true]

end Lib.Text
