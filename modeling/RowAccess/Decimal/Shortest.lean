/-
RowAccess.Decimal.Shortest — the fewest digits that identify a float.

The search tries ever finer decimal grids, beginning with the one whose
spacing is the place of the leading digit. On each grid only the two
neighbours of the value can read back if any point does; the first grid with a
hit wins, of two hits the nearer is taken, and an exact tie goes by `Tie`.

* `Binary.shortest` — that decimal, without trailing zeros.
-/
import RowAccess.Decimal.Binary

namespace RowAccess.Decimal

/-- Which of two equally near decimals is taken. -/
inductive Tie where
  /-- The one whose last digit is even. -/
  | toEven
  /-- The greater one. -/
  | up
  deriving DecidableEq

/-- An exponent `k` with `x < 10^k`, the least one for a positive float. It
is estimated from the binary logarithm, which is at most two too low. -/
def Binary.decade (x : Binary) : Int :=
  let guess := (x.significand.log2 + x.exponent) * 30103 / 100000
  let reaches (k : Int) : Bool :=
    (Decimal.mk 1 k).compareTo x.significand x.exponent == .gt
  if reaches guess then guess
  else if reaches (guess + 1) then guess + 1
  else guess + 2

/-- The greatest multiple of `10^k` that is at most `x`, as a number of steps. -/
def Binary.stepsBelow (x : Binary) (k : Int) : Nat :=
  (x.significand * Nat.pow 2 x.exponent.toNat * Nat.pow 10 (-k).toNat) /
    (Nat.pow 2 (-x.exponent).toNat * Nat.pow 10 k.toNat)

/-- Of two neighbours on the grid `10^k` that both read back, the nearer. -/
def Binary.nearer (x : Binary) (tie : Tie) (k : Int) (n : Nat) : Nat :=
  match (Decimal.mk (2 * n + 1) k).compareTo (2 * x.significand) x.exponent with
  | .lt => n + 1
  | .gt => n
  | .eq =>
    match tie with
    | .up => n + 1
    | .toEven => if n % 2 = 0 then n else n + 1

/-- The point of the grid `10^k` that stands for `x`, if one reads back. -/
def Binary.onGrid? (x : Binary) (tie : Tie) (k : Int) : Option Decimal :=
  let n := x.stepsBelow k
  match x.readsBack ⟨n, k⟩, x.readsBack ⟨n + 1, k⟩ with
  | true, true => some ⟨x.nearer tie k n, k⟩
  | true, false => some ⟨n, k⟩
  | false, true => some ⟨n + 1, k⟩
  | false, false => none

/-- The value itself as a decimal: every binary fraction has one. -/
def Binary.exact (x : Binary) : Decimal :=
  if 0 ≤ x.exponent then ⟨x.significand * Nat.pow 2 x.exponent.toNat, 0⟩
  else ⟨x.significand * Nat.pow 5 (-x.exponent).toNat, x.exponent⟩

/-- The same decimal without trailing zeros; zero is `0 · 10^0`. -/
def strip (d : Decimal) : Decimal :=
  if h : d.digits = 0 then ⟨0, 0⟩
  else if h' : d.digits % 10 = 0 then strip ⟨d.digits / 10, d.exponent + 1⟩
  else d
termination_by d.digits
decreasing_by exact Nat.div_lt_self (Nat.pos_of_ne_zero h) (by decide)

/-- The shortest decimal that reads back to `x`, nearest to `x` among those of
its length. Seventeen digits suffice for every float. -/
def Binary.shortest (x : Binary) (tie : Tie) : Decimal :=
  let k := x.decade
  let found := (List.range 17).findSome? fun i => x.onGrid? tie (k - (i + 1 : Nat))
  (found.getD x.exact).strip

end RowAccess.Decimal
