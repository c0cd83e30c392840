import DateReviver.Double

/-!
# JSON numerals

A numeral stands for the double nearest to it as far as its leading digits tell: those that fit
into 64 bits, times a power of ten. A numeral whose double would be infinite has no value.
-/

namespace DateReviver.Json

/-- A numeral without its sign: the digits before the point, those after it, and the exponent. -/
structure Numeral where
  whole : List Nat
  fraction : List Nat
  exponent : Int

/-- The nearest number with at most 53 significant binary digits; of two, the even one. -/
def roundTo53 (n : Nat) : Nat :=
  let unit := Nat.pow 2 (n.log2 + 1 - 53)
  let below := n / unit
  let rest := n % unit
  let rounded := if 2 * rest < unit ∨ (2 * rest = unit ∧ below % 2 = 0) then below else below + 1
  rounded * unit

/-- A significand of 64 bits and the power of ten that goes with it. -/
structure Scaled where
  significand : Nat
  exponent : Int

/-- Append a digit if the significand stays within 64 bits. -/
def Scaled.append? (s : Scaled) (digit : Nat) : Option Nat :=
  let longer := s.significand * 10 + digit
  if longer < Nat.pow 2 64 then some longer else none

/-- Take in the digits before the point: from the first that does not fit, each raises the power. -/
def Scaled.takeWhole (s : Scaled) : List Nat → Scaled
  | [] => s
  | digit :: rest =>
      match s.append? digit with
      | some longer => takeWhole ⟨longer, s.exponent⟩ rest
      | none => ⟨s.significand, s.exponent + 1 + rest.length⟩

/-- Take in the digits after the point, up to the first that does not fit. -/
def Scaled.takeFraction (s : Scaled) : List Nat → Scaled
  | [] => s
  | digit :: rest =>
      match s.append? digit with
      | some longer => takeFraction ⟨longer, s.exponent - 1⟩ rest
      | none => s

/-- The leading digits of a numeral and its power of ten. -/
def Numeral.scaled (n : Numeral) : Scaled :=
  let digits := ((Scaled.mk 0 0).takeWhole n.whole).takeFraction n.fraction
  ⟨digits.significand, digits.exponent + n.exponent⟩

/-- Whether the double that a numeral stands for is finite. The largest power of ten that is a
finite double is the 308th. -/
def Numeral.isFinite (n : Numeral) : Bool :=
  let s := n.scaled
  if s.significand = 0 ∨ s.exponent < 0 then true
  else if 308 < s.exponent then false
  else roundTo53 s.significand * roundTo53 (Nat.pow 10 s.exponent.toNat) < leastInfinite

end DateReviver.Json
