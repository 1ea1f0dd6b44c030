import RemoteCall.Floating.Rounding

/-!
# Shortest decimal digits

The decimal text of a floating-point number needs only so many digits that the
number is the nearest to it.  `shortest` looks for them by the definition: on
the grids of one digit, two digits and so on it tests the two neighbours of the
value, and the first grid with a neighbour that reads back wins.
-/

namespace RemoteCall

/-- The decimal number `digits · 10^exponent`. -/
structure Decimal where
  digits : Nat
  exponent : Int
  deriving DecidableEq, Repr

namespace Decimal

/-- What happens when two candidates are equally near. -/
inductive Tie where
  /-- The one with the even last digit is taken. -/
  | toEven
  /-- The greater one is taken. -/
  | up
  deriving DecidableEq

/-- Without zeros at the end of the digits; `fuel` bounds their number. -/
def stripZeros : (fuel : Nat) → Decimal → Decimal
  | 0, d => d
  | fuel + 1, d =>
    if d.digits ≠ 0 ∧ d.digits % 10 = 0 then stripZeros fuel ⟨d.digits / 10, d.exponent + 1⟩ else d

/-- A positive value with the interval of the reals that round to it, all over
one denominator.  The interval holds its ends if `closed`. -/
structure Neighbourhood where
  low : Nat
  value : Nat
  high : Nat
  den : Nat
  closed : Bool

/-- The reals that round to a finite, non-zero number.  Below the least
significand of an exponent the gap to the neighbour is half as wide. -/
def Neighbourhood.of {F : FloatFormat} (x : Floating F) : Neighbourhood :=
  let (m, q) := x.significand
  let narrow := m = Nat.pow 2 F.fractionBits ∧ F.leastExponent < q
  let up := Nat.pow 2 q.toNat
  { low := (4 * m - if narrow then 1 else 2) * up
    value := 4 * m * up
    high := (4 * m + 2) * up
    den := 4 * Nat.pow 2 (-q).toNat
    closed := m % 2 = 0 }

/-- The greatest `k` with `10^k ≤ num / den`, for positive `num` and `den`. -/
def floorLog10 (num den : Nat) : Int :=
  let reaches (k : Int) : Bool := den * Nat.pow 10 k.toNat ≤ num * Nat.pow 10 (-k).toNat
  let k := Floating.floorLog2 num den * 30103 / 100000
  if reaches (k + 1) then k + 1 else if reaches k then k else k - 1

namespace Neighbourhood

variable (n : Neighbourhood)

/-- Whether `count · num` over the common denominator times `den` lies in the interval. -/
def holds (num den count : Nat) : Bool :=
  let point := count * num
  if n.closed then n.low * den ≤ point && point ≤ n.high * den
  else n.low * den < point && point < n.high * den

/-- The number of grid units taken on the grid of `10^exponent`: the neighbour
of the value that reads back, or the nearer one if both do. -/
def onGrid? (tie : Tie) (exponent : Int) : Option Nat :=
  let num := Nat.pow 10 exponent.toNat * n.den
  let den := Nat.pow 10 (-exponent).toNat
  let scaled := n.value * den
  let below := scaled / num
  let twice := 2 * (scaled % num)
  let above := below + 1
  match n.holds num den below, n.holds num den above with
  | false, false => none
  | true, false => some below
  | false, true => some above
  | true, true =>
    if twice < num then some below
    else if num < twice then some above
    else match tie with
      | .toEven => some (if below % 2 = 0 then below else above)
      | .up => some above

/-- Tries `more` grids, from the given one to ever finer ones, then the one after them. -/
def search (tie : Tie) : (more : Nat) → (exponent : Int) → Decimal
  | 0, exponent =>
    ⟨n.value * Nat.pow 10 (-exponent).toNat / (Nat.pow 10 exponent.toNat * n.den), exponent⟩
  | more + 1, exponent =>
    match n.onGrid? tie exponent with
    | some digits => ⟨digits, exponent⟩
    | none => search tie more (exponent - 1)

end Neighbourhood

/-- The fewest decimal digits whose nearest number of the format is `x`, which
is finite; its sign is left out.  Seventeen digits always suffice for the
formats of at most 64 bits. -/
def shortest {F : FloatFormat} (tie : Tie) (x : Floating F) : Decimal :=
  if x.isZero then ⟨0, 0⟩
  else
    let n := Neighbourhood.of x
    stripZeros 20 (n.search tie 18 (floorLog10 n.value n.den))

end Decimal

end RemoteCall
