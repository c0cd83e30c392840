/-!
# Decimal digits

Runs of digits at the front of a text, and the numbers that they write.
-/

namespace DateReviver.Text

def takeDigits (s : List Char) : List Nat × List Char :=
  ((s.takeWhile Char.isDigit).map fun c => c.toNat - 48, s.dropWhile Char.isDigit)

def ofDigits (digits : List Nat) : Nat :=
  digits.foldl (fun n digit => 10 * n + digit) 0

theorem length_takeDigits_le (s : List Char) : (takeDigits s).2.length ≤ s.length :=
  (List.dropWhile_sublist Char.isDigit).length_le

theorem length_takeDigits_lt {s rest : List Char} {digits : List Nat}
    (h : takeDigits s = (digits, rest)) (hne : digits ≠ []) : rest.length < s.length := by
  cases s with
  | nil =>
      simp only [takeDigits, List.takeWhile_nil, List.map_nil, Prod.mk.injEq] at h
      exact absurd h.1.symm hne
  | cons c tail =>
      unfold takeDigits at h
      by_cases hc : c.isDigit
      · simp only [List.takeWhile_cons, List.dropWhile_cons, hc, if_true, Prod.mk.injEq] at h
        rw [← h.2]
        exact Nat.lt_succ_of_le (List.dropWhile_sublist Char.isDigit).length_le
      · simp only [List.takeWhile_cons, hc, Bool.false_eq_true, if_false, List.map_nil,
          Prod.mk.injEq] at h
        exact absurd h.1.symm hne

end DateReviver.Text
