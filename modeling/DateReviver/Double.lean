/-!
# The range of doubles

A number in a text stands for the double nearest to it, which may be infinite.
-/

namespace DateReviver

/-- The least number whose double is infinite: it lies halfway between the largest double and the
next power of two. -/
def leastInfinite : Nat :=
  Nat.pow 2 1024 - Nat.pow 2 970

end DateReviver
