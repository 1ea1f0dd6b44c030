/-!
# Binary floating-point numbers

A floating-point number is a sign and a magnitude: exponent field and fraction
field read as one number.  Within a sign that number orders the values, the
infinity comes after all finite ones, and what lies beyond it is not a number.

`ofBits_toBits` says that nothing is lost between a number and its bits.
-/

namespace RemoteCall

/-- A binary interchange format, by the widths of its fields. -/
structure FloatFormat where
  exponentBits : Nat
  fractionBits : Nat

namespace FloatFormat

/-- The 64-bit format. -/
def double : FloatFormat := ⟨11, 52⟩

/-- The 32-bit format. -/
def single : FloatFormat := ⟨8, 23⟩

/-- Bits other than the sign. -/
def magnitudeBits (F : FloatFormat) : Nat :=
  F.exponentBits + F.fractionBits

/-- The magnitude of infinity: exponent field full, fraction field empty. -/
def infinity (F : FloatFormat) : Nat :=
  (Nat.pow 2 F.exponentBits - 1) * Nat.pow 2 F.fractionBits

/-- The least positive value is two to this power. -/
def leastExponent (F : FloatFormat) : Int :=
  2 - (Nat.pow 2 (F.exponentBits - 1) : Nat) - F.fractionBits

theorem infinity_lt (F : FloatFormat) : F.infinity < Nat.pow 2 F.magnitudeBits := by
  have fraction : 0 < Nat.pow 2 F.fractionBits := Nat.two_pow_pos _
  have exponent : 0 < Nat.pow 2 F.exponentBits := Nat.two_pow_pos _
  have product : Nat.pow 2 F.magnitudeBits = Nat.pow 2 F.exponentBits * Nat.pow 2 F.fractionBits :=
    Nat.pow_add 2 F.exponentBits F.fractionBits
  rw [infinity, product]
  exact Nat.mul_lt_mul_of_pos_right (by omega) fraction

end FloatFormat

/-- A number of the format `F`, which may be infinite or not a number. -/
structure Floating (F : FloatFormat) where
  negative : Bool
  magnitude : Fin (Nat.pow 2 F.magnitudeBits)
  deriving DecidableEq

/-- A 64-bit floating-point number. -/
abbrev Double := Floating .double

/-- A 32-bit floating-point number. -/
abbrev Single := Floating .single

namespace Floating

variable {F : FloatFormat}

/-- Positive or negative zero. -/
def zero (negative : Bool) : Floating F :=
  ⟨negative, ⟨0, Nat.two_pow_pos _⟩⟩

instance : Inhabited (Floating F) :=
  ⟨zero false⟩

/-- Neither infinite nor undefined. -/
def IsFinite (x : Floating F) : Prop :=
  x.magnitude.val < F.infinity

instance (x : Floating F) : Decidable x.IsFinite :=
  inferInstanceAs (Decidable (_ < _))

/-- Not a number. -/
def isNaN (x : Floating F) : Bool :=
  F.infinity < x.magnitude.val

/-- Zero of either sign. -/
def isZero (x : Floating F) : Bool :=
  x.magnitude.val == 0

/-- The number of the other sign. -/
def neg (x : Floating F) : Floating F :=
  { x with negative := !x.negative }

/-- Not a number, positive and with the topmost fraction bit alone. -/
def nan : Floating F :=
  ⟨false, ⟨(F.infinity + Nat.pow 2 (F.fractionBits - 1)) % Nat.pow 2 F.magnitudeBits,
    Nat.mod_lt _ (Nat.two_pow_pos _)⟩⟩

/-- Infinity of either sign. -/
def infinite (negative : Bool) : Floating F :=
  ⟨negative, ⟨F.infinity, F.infinity_lt⟩⟩

/-! ## Bits -/

/-- The bits: the sign above the magnitude. -/
def toBits (x : Floating F) : Nat :=
  (if x.negative then Nat.pow 2 F.magnitudeBits else 0) + x.magnitude.val

/-- The number with these bits; those above the sign are ignored. -/
def ofBits (bits : Nat) : Floating F :=
  ⟨bits.testBit F.magnitudeBits,
    ⟨bits % Nat.pow 2 F.magnitudeBits, Nat.mod_lt _ (Nat.two_pow_pos _)⟩⟩

theorem toBits_lt (x : Floating F) : x.toBits < Nat.pow 2 (F.magnitudeBits + 1) := by
  have bound := x.magnitude.isLt
  have double : Nat.pow 2 (F.magnitudeBits + 1) = Nat.pow 2 F.magnitudeBits * 2 :=
    Nat.pow_succ 2 F.magnitudeBits
  rw [toBits, double]
  split <;> omega

/-- Bits keep the number. -/
@[simp]
theorem ofBits_toBits (x : Floating F) : ofBits x.toBits = x := by
  obtain ⟨negative, magnitude, bound⟩ := x
  have noSign : magnitude.testBit F.magnitudeBits = false := Nat.testBit_lt_two_pow bound
  have low : magnitude % Nat.pow 2 F.magnitudeBits = magnitude := Nat.mod_eq_of_lt bound
  cases negative with
  | false => simp only [ofBits, toBits, Bool.false_eq_true, if_false, Nat.zero_add, noSign, low]
  | true =>
    have sign : (Nat.pow 2 F.magnitudeBits + magnitude).testBit F.magnitudeBits = true := by
      rw [Nat.pow_eq, Nat.testBit_two_pow_add_eq, noSign]
      rfl
    simp only [ofBits, toBits, if_true, sign, Nat.add_mod_left, low]

/-! ## Values -/

/-- The significand `m` and the exponent `q` of the value `m · 2^q` of a finite magnitude. -/
def significand (x : Floating F) : Nat × Int :=
  let field := x.magnitude.val / Nat.pow 2 F.fractionBits
  let fraction := x.magnitude.val % Nat.pow 2 F.fractionBits
  if field = 0 then (fraction, F.leastExponent)
  else (Nat.pow 2 F.fractionBits + fraction, F.leastExponent + (field - 1 : Nat))

/-- The absolute value of a finite number, as numerator and denominator. -/
def ratio (x : Floating F) : Nat × Nat :=
  let (m, q) := x.significand
  (m * Nat.pow 2 q.toNat, Nat.pow 2 (-q).toNat)

end Floating

end RemoteCall
