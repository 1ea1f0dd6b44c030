import RemoteCall.Floating.Basic

/-!
# Rounding to a floating-point format

Every conversion and every operation on floating-point numbers is an exact
quotient of natural numbers, rounded once: to the nearest value of the format,
a half going to the even neighbour, and to infinity from half a unit above the
greatest finite value on.
-/

namespace RemoteCall.Floating

/-- The natural number nearest to a quotient; of two, the even one. -/
def roundHalfEven (num den : Nat) : Nat :=
  let quotient := num / den
  let twice := 2 * (num % den)
  if twice < den then quotient
  else if den < twice then quotient + 1
  else quotient + quotient % 2

/-- The greatest `k` with `2^k ≤ num / den`, for positive `num` and `den`. -/
def floorLog2 (num den : Nat) : Int :=
  let k : Int := num.log2 - den.log2
  if den * Nat.pow 2 k.toNat ≤ num * Nat.pow 2 (-k).toNat then k else k - 1

variable {F : FloatFormat}

/-- The magnitude nearest to a quotient.  A significand that rounds up to the
next power of two carries into the exponent field by itself. -/
def nearestMagnitude (F : FloatFormat) (num den : Nat) : Nat :=
  if num = 0 then 0
  else
    let q := max F.leastExponent (floorLog2 num den - F.fractionBits)
    let m := roundHalfEven (num * Nat.pow 2 (-q).toNat) (den * Nat.pow 2 q.toNat)
    min F.infinity (m + (q - F.leastExponent).toNat * Nat.pow 2 F.fractionBits)

/-- The number nearest to a quotient of the given sign. -/
def ofRatio (negative : Bool) (num den : Nat) : Floating F :=
  ⟨negative, ⟨min F.infinity (nearestMagnitude F num den),
    Nat.lt_of_le_of_lt (Nat.min_le_left ..) F.infinity_lt⟩⟩

/-- The number nearest to an integer. -/
def ofInt (n : Int) : Floating F :=
  ofRatio (n < 0) n.natAbs 1

/-- A finite number times a positive quotient. -/
def scale (x : Floating F) (num den : Nat) : Floating F :=
  let (a, b) := x.ratio
  ofRatio x.negative (a * num) (b * den)

/-- The number of another format nearest to this one; what is no number stays none. -/
def convert {G : FloatFormat} (x : Floating F) : Floating G :=
  if x.IsFinite then
    let (a, b) := x.ratio
    ofRatio x.negative a b
  else if x.isNaN then { (nan : Floating G) with negative := x.negative }
  else infinite x.negative

end RemoteCall.Floating
