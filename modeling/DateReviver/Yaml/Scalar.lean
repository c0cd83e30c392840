import DateReviver.Double
import DateReviver.Text.Digits
import DateReviver.Text.Hex

/-!
# What plain scalars mean

A scalar without quotes may write a null, a truth value or a number. Integers are decimal or have
a base of two, eight or sixteen; a decimal one has no needless zeros in front. A number with a
fraction or an exponent is one only as far as it is finite.
-/

namespace DateReviver.Yaml

def isNull (text : String) : Bool :=
  text == "~" || text == "null" || text == "Null" || text == "NULL"

def bool? (text : String) : Option Bool :=
  if text = "true" ∨ text = "True" ∨ text = "TRUE" then some true
  else if text = "false" ∨ text = "False" ∨ text = "FALSE" then some false
  else none

def naturalInBase? (base : Nat) (digits : List Char) : Option Nat :=
  if digits.isEmpty then none
  else
    digits.foldlM
      (fun n c => do
        let digit ← Text.hexValue? c
        if digit < base then some (base * n + digit) else none) 0

/-- The natural number that a text without a sign writes. -/
def natural? : List Char → Option Nat
  | '0' :: 'x' :: digits => naturalInBase? 16 digits
  | '0' :: 'o' :: digits => naturalInBase? 8 digits
  | '0' :: 'b' :: digits => naturalInBase? 2 digits
  | '0' :: _ :: _ => none
  | digits => naturalInBase? 10 digits

/-- An integer with the sign that it is written with. -/
structure Signed where
  negative : Bool
  magnitude : Nat

def integer? (text : String) : Option Signed :=
  match text.toList with
  | '-' :: rest => (natural? rest).map (⟨true, ·⟩)
  | '+' :: rest => (natural? rest).map (⟨false, ·⟩)
  | rest => (natural? rest).map (⟨false, ·⟩)

/-- What is left after a sign, if there is one. -/
def dropSign : List Char → List Char
  | '-' :: rest => rest
  | '+' :: rest => rest
  | rest => rest

/-- Whether a text consists of digits with a needless zero in front. -/
def hasNeedlessZero (text : String) : Bool :=
  match dropSign text.toList with
  | '0' :: c :: rest => (c :: rest).all Char.isDigit
  | _ => false

/-- A decimal number without its sign: its digits, and the power of ten that goes with them. -/
structure Decimal where
  digits : List Nat
  exponent : Int

/-- The exponent of a decimal number, which may be missing. Nothing follows it. -/
def exponent? : List Char → Option Int
  | [] => some 0
  | c :: rest =>
      if c = 'e' ∨ c = 'E' then
        match Text.takeDigits (dropSign rest) with
        | (digit :: digits, []) =>
            let n : Int := Text.ofDigits (digit :: digits)
            some (if rest.head? = some '-' then -n else n)
        | _ => none
      else none

/-- The decimal number that a text without a sign writes. It needs a digit on one side of the
point, which may be missing. -/
def decimal? (s : List Char) : Option Decimal :=
  let (whole, rest) := Text.takeDigits s
  let (fraction, rest) :=
    match rest with
    | '.' :: rest => Text.takeDigits rest
    | rest => ([], rest)
  if whole.isEmpty && fraction.isEmpty then none
  else (exponent? rest).map fun exponent => ⟨whole ++ fraction, exponent - fraction.length⟩

/-- Whether the double nearest to a decimal number is finite. The largest double has 309 digits
before the point. -/
def Decimal.isFinite (d : Decimal) : Bool :=
  let digits := d.digits.dropWhile (· == 0)
  let places := digits.length + d.exponent
  if digits.isEmpty || places < 309 then true
  else if 309 < places then false
  else
    let n := Text.ofDigits digits
    if d.exponent < 0 then n < leastInfinite * Nat.pow 10 (-d.exponent).toNat
    else n * Nat.pow 10 d.exponent.toNat < leastInfinite

/-- Whether a text writes a number with a fraction, an exponent, or none at all: infinite, or
outside of all order. -/
def isFloat (text : String) : Bool :=
  let unsigned :=
    match text.toList with
    | '+' :: '+' :: _ | '+' :: '-' :: _ => []
    | rest => dropSign rest
  let word := String.ofList unsigned
  word == ".inf" || word == ".Inf" || word == ".INF" ||
    text == ".nan" || text == ".NaN" || text == ".NAN" ||
    (decimal? unsigned).any Decimal.isFinite

end DateReviver.Yaml
