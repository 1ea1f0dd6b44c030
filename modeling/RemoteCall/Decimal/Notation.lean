import RemoteCall.Decimal.Shortest

/-!
# Decimal notation

How the digits of a decimal number are laid out: with the point among them, or
one digit before the point and an exponent after them.  A `Notation` gathers the
choices of one output format.
-/

namespace RemoteCall.Decimal

/-- The decimal digits of a natural number. -/
def natDigits (n : Nat) : List Char :=
  Nat.toDigits 10 n

/-- The digits and sign of an integer. -/
def intText (n : Int) : String :=
  String.ofList (if n < 0 then '-' :: natDigits n.natAbs else natDigits n.natAbs)

/-- The choices of an output format for floating-point numbers. -/
structure Notation where
  /-- Whether a number whose first digit stands for this power of ten is written
  without an exponent. -/
  positional : Int → Bool
  /-- Which of two equally near digit strings is taken. -/
  tie : Tie
  /-- The text of what is no number. -/
  nan : String
  /-- The text of positive infinity. -/
  infinity : String

/-- The digits with the point where it belongs and a digit on either side of it. -/
def positionalDigits (d : Decimal) : List Char :=
  let digits := natDigits d.digits
  if 0 ≤ d.exponent then digits ++ List.replicate d.exponent.toNat '0' ++ ['.', '0']
  else
    let places := (-d.exponent).toNat
    if places < digits.length then
      digits.take (digits.length - places) ++ '.' :: digits.drop (digits.length - places)
    else '0' :: '.' :: List.replicate (places - digits.length) '0' ++ digits

/-- One digit before the point, the others after it, and the power of ten with its sign. -/
def exponentDigits (d : Decimal) : List Char :=
  let digits := natDigits d.digits
  let power := d.exponent + (digits.length - 1 : Nat)
  digits.take 1 ++ (if digits.length = 1 then [] else '.' :: digits.drop 1)
    ++ ['e', if power < 0 then '-' else '+'] ++ natDigits power.natAbs

/-- The text of a floating-point number. -/
def Notation.write {F : FloatFormat} (format : Notation) (x : Floating F) : String :=
  let sign := if x.negative then ['-'] else []
  if x.IsFinite then
    let d := shortest format.tie x
    let power := d.exponent + ((natDigits d.digits).length - 1 : Nat)
    String.ofList (sign ++ if format.positional power then positionalDigits d else exponentDigits d)
  else if x.isNaN then format.nan
  else String.ofList (sign ++ format.infinity.toList)

end RemoteCall.Decimal
