import RemoteCall.Ascii
import RemoteCall.Json.Error

/-!
# JSON numbers

A numeral is cut into its parts first and evaluated afterwards.  Without
fraction and exponent it denotes an integer, if one of 64 bits; otherwise a
floating-point number that is computed in a few steps, each rounded: the digits
that fit a 64-bit significand, then one power of ten.
-/

namespace RemoteCall.Json

open Ascii

/-- The parts of a numeral. -/
structure Numeral where
  negative : Bool
  /-- The digits before the point. -/
  whole : Bytes
  /-- The digits after the point, if there is one. -/
  fraction : Option Bytes
  /-- Whether the exponent is negative, and its digits. -/
  exponent : Option (Bool × Bytes)

namespace Numeral

/-! ## Cutting -/

/-- The digits before the point; `ended` is the cause if there is nothing. -/
def readWhole (ended : Cause) : Read Bytes
  | [] => .error (.here ended [])
  | byte :: rest =>
    if byte = zero then
      match rest with
      | [] => .ok ([zero], [])
      | after :: _ =>
        if isDigit after then .error (.next .invalidNumber rest) else .ok ([zero], rest)
    else if isDigit byte then
      let (digits, rest) := rest.span isDigit
      .ok (byte :: digits, rest)
    else .error (.here .invalidNumber rest)

/-- The point and the digits after it, if there is a point. -/
def readFraction (ended : Cause) : Read (Option Bytes)
  | [] => .ok (none, [])
  | byte :: rest =>
    if byte = point then
      match rest.span isDigit with
      | ([], []) => .error (.next ended [])
      | ([], rest) => .error (.next .invalidNumber rest)
      | (digits, rest) => .ok (some digits, rest)
    else .ok (none, byte :: rest)

/-- The digits of an exponent, after its sign. -/
def readPower (ended : Cause) : Read Bytes
  | [] => .error (.here ended [])
  | byte :: rest =>
    if isDigit byte then
      let (digits, rest) := rest.span isDigit
      .ok (byte :: digits, rest)
    else .error (.here .invalidNumber rest)

/-- The exponent, if there is one. -/
def readExponent (ended : Cause) : Read (Option (Bool × Bytes))
  | [] => .ok (none, [])
  | byte :: rest =>
    if byte = lowerE ∨ byte = upperE then do
      let (negative, rest) := match rest with
        | plus :: rest => (false, rest)
        | minus :: rest => (true, rest)
        | rest => (false, rest)
      let (digits, rest) ← readPower ended rest
      .ok (some (negative, digits), rest)
    else .ok (none, byte :: rest)

/-- A numeral; `ended` is the cause where a digit is due and the text ends. -/
def read (ended : Cause) : Read Numeral := fun s => do
  let (negative, s) := match s with
    | minus :: rest => (true, rest)
    | s => (false, s)
  let (whole, s) ← readWhole ended s
  let (fraction, s) ← readFraction ended s
  let (exponent, s) ← readExponent ended s
  .ok (⟨negative, whole, fraction, exponent⟩, s)

/-! ## Evaluating -/

/-- Appends digits to a significand while it fits 64 bits; the count of those
that were not appended comes with it. -/
def gather (significand : Nat) : Bytes → Nat × Nat
  | [] => (significand, 0)
  | digit :: rest =>
    let more := 10 * significand + digitValue digit
    if more < 0x10000000000000000 then gather more rest else (significand, rest.length + 1)

/-- The digits of an exponent as a number below `2^31`, or how many digits
follow the one that makes it too great. -/
def gatherPower (power : Nat) : Bytes → Except Nat Nat
  | [] => .ok power
  | digit :: rest =>
    let more := 10 * power + digitValue digit
    if more < 0x80000000 then gatherPower more rest else .error rest.length

/-- A number of the 64-bit format, times a power of ten of that format. -/
def timesPower (x : Double) (power : Nat) : Double :=
  let (num, den) := (Floating.ofRatio (F := .double) false (Nat.pow 10 power) 1).ratio
  x.scale num den

/-- A number of the 64-bit format, over a power of ten of that format. -/
def overPower (x : Double) (power : Nat) : Double :=
  let (num, den) := (Floating.ofRatio (F := .double) false (Nat.pow 10 power) 1).ratio
  x.scale den num

/-- The number times a power of ten, none if it is too great.  Powers below
`10^-308` take several divisions; `fuel` bounds their number. -/
def scaled : (fuel : Nat) → Double → Int → Option Double
  | 0, x, _ => some x
  | fuel + 1, x, power =>
    if power.natAbs ≤ 308 then
      if 0 ≤ power then
        let y := timesPower x power.natAbs
        if y.IsFinite then some y else none
      else some (overPower x power.natAbs)
    else if x.isZero then some x
    else if 0 ≤ power then none
    else scaled fuel (overPower x 308) (power + 308)

/-- The value that a numeral denotes, or the place, seen from its end, where it
turns out to be too great. -/
def value (numeral : Numeral) : Except Place Value := do
  let (significand, excess) := gather 0 numeral.whole
  match excess, numeral.fraction, numeral.exponent with
  | 0, none, none =>
    if numeral.negative && significand == 0 then .ok (.ofDouble (.zero true))
    else
      let n : Int := if numeral.negative then -significand else significand
      match Integer.ofInt? n with
      | some n => .ok (.integer n)
      | none => .ok (.ofDouble (.ofInt n))
  | _, _, _ =>
    let fraction := numeral.fraction.getD []
    let (significand, dropped) := gather significand fraction
    let start : Int := excess - (fraction.length - dropped : Nat)
    let finish (power : Int) : Except Place Value :=
      match scaled power.natAbs.succ (.ofInt significand) power with
      | some x => .ok (.ofDouble { x with negative := numeral.negative })
      | none => .error .here
    match numeral.exponent with
    | none => finish start
    | some (negative, digits) =>
      match gatherPower 0 digits with
      | .ok power =>
        let power := if negative then start - power else start + power
        finish (max (-0x80000000) (min 0x7fffffff power))
      | .error left =>
        if significand ≠ 0 ∧ !negative then .error (.back left)
        else .ok (.ofDouble (.zero numeral.negative))

end Numeral

/-- A number, from its sign or first digit on. -/
def number : Read Value := fun s => do
  let (numeral, rest) ← Numeral.read .endInValue s
  match numeral.value with
  | .ok v => .ok (v, rest)
  | .error place => .error ⟨.numberOutOfRange, place, rest⟩

/-- What follows a number whose value does not matter. -/
def passNumber (s : Bytes) : Except Fault Bytes := do
  let (_, rest) ← Numeral.read .invalidNumber s
  .ok rest

end RemoteCall.Json
