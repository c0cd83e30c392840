/-!
# Digits in base sixteen

Both cases of letters are read, and lower case is written.
-/

namespace DateReviver.Text

def hexValue? (c : Char) : Option Nat :=
  if '0' ≤ c ∧ c ≤ '9' then some (c.toNat - 48)
  else if 'a' ≤ c ∧ c ≤ 'f' then some (c.toNat - 87)
  else if 'A' ≤ c ∧ c ≤ 'F' then some (c.toNat - 55)
  else none

def hexNumber? (digits : List Char) : Option Nat :=
  (digits.mapM hexValue?).map fun values => values.foldl (fun n digit => 16 * n + digit) 0

def hexChar? (digits : List Char) : Option Char :=
  (hexNumber? digits).bind fun code => if code.isValidChar then some (Char.ofNat code) else none

def hexDigits (n : Nat) : List Char :=
  Nat.toDigits 16 n

end DateReviver.Text
