import RemoteCall.Ascii
import RemoteCall.Json.Error
import RemoteCall.Text.Utf8

/-!
# JSON strings

A string is written between quotes, with an escape for the quote, the backslash
and every octet below `0x20`; all other octets stand for themselves.  Reading
goes through the octets one by one, and checks at the end that what the string
denotes is UTF-8.  Escapes of UTF-16 units must pair up.
-/

namespace RemoteCall.Json

open Ascii

/-! ## Reading -/

/-- The octet that a one-letter escape denotes. -/
def shortEscape? (letter : UInt8) : Option UInt8 :=
  if letter = quote ∨ letter = backslash ∨ letter = slash then some letter
  else if letter = lowerB then some 0x08
  else if letter = lowerF then some 0x0c
  else if letter = lowerN then some newline
  else if letter = lowerR then some carriageReturn
  else if letter = lowerT then some tab
  else none

/-- The number that hexadecimal digits of either case denote. -/
def hexNumber? (digits : Bytes) : Option Nat :=
  digits.foldlM (fun n digit => (hexValue? digit).map (16 * n + ·)) 0

/-- Whether a UTF-16 unit is the first of a pair. -/
def isLeading (unit : Nat) : Bool :=
  0xd800 ≤ unit && unit ≤ 0xdbff

/-- Whether a UTF-16 unit is the second of a pair. -/
def isTrailing (unit : Nat) : Bool :=
  0xdc00 ≤ unit && unit ≤ 0xdfff

/-- What the reader of a string is in the middle of. -/
inductive Inside where
  | plain
  /-- After a backslash. -/
  | escape
  /-- After `\u` and some of its digits, latest first; `leading` is the unit to pair with. -/
  | digits (leading : Option Nat) (seen : Bytes)
  /-- After a leading unit: a backslash is due. -/
  | pairBackslash (leading : Nat)
  /-- After a leading unit and a backslash: the letter `u` is due. -/
  | pairLetter (leading : Nat)

/-- The octets of a code point, latest first. -/
def codeOctets (code : Nat) : Bytes :=
  (String.utf8EncodeChar (Char.ofNat code)).reverse

/-- The content of a string behind what is already `taken`, latest octet first;
the closing quote is read too. -/
def content : Inside → (taken : Bytes) → Read Bytes
  | _, _, [] => .error (.here .endInString [])
  | .plain, taken, byte :: rest =>
    if byte = quote then .ok (taken.reverse, rest)
    else if byte = backslash then content .escape taken rest
    else if byte < 0x20 then .error (.here .controlCharacter rest)
    else content .plain (byte :: taken) rest
  | .escape, taken, letter :: rest =>
    if letter = lowerU then content (.digits none []) taken rest
    else match shortEscape? letter with
      | some byte => content .plain (byte :: taken) rest
      | none => .error (.here .invalidEscape rest)
  | .digits leading seen, taken, digit :: rest =>
    if seen.length < 3 then content (.digits leading (digit :: seen)) taken rest
    else match hexNumber? (digit :: seen).reverse, leading with
      | none, _ => .error (.here .invalidEscape rest)
      | some unit, none =>
        if isTrailing unit then .error (.here .loneSurrogate rest)
        else if isLeading unit then content (.pairBackslash unit) taken rest
        else content .plain (codeOctets unit ++ taken) rest
      | some unit, some first =>
        if isTrailing unit then
          content .plain
            (codeOctets (0x10000 + 0x400 * (first - 0xd800) + (unit - 0xdc00)) ++ taken) rest
        else .error (.here .loneSurrogate rest)
  | .pairBackslash first, taken, byte :: rest =>
    if byte = backslash then content (.pairLetter first) taken rest
    else .error (.here .unpairedSurrogate rest)
  | .pairLetter first, taken, byte :: rest =>
    if byte = lowerU then content (.digits (some first) []) taken rest
    else .error (.here .unpairedSurrogate rest)

/-- A string after its opening quote. -/
def text : Read String := fun s => do
  let (octets, rest) ← content .plain [] s
  match Utf8.decode octets with
  | .ok chars => .ok (chars, rest)
  | .error fault => .error ⟨.invalidText, .back (octets.length - fault.validUpTo), rest⟩

/-! ## Passing over -/

/-- What the reader that passes over a string is in the middle of. -/
inductive Passing where
  | plain
  | escape
  /-- After `\u` and some of its digits, latest first. -/
  | digits (seen : Bytes)

/-- What follows a string whose content does not matter: escapes must be well
formed, but need not pair up, and octets need not be UTF-8. -/
def passString : Passing → Bytes → Except Fault Bytes
  | _, [] => .error (.here .endInString [])
  | .plain, byte :: rest =>
    if byte = quote then .ok rest
    else if byte = backslash then passString .escape rest
    else if byte < 0x20 then .error (.here .controlCharacter (byte :: rest))
    else passString .plain rest
  | .escape, letter :: rest =>
    if letter = lowerU then passString (.digits []) rest
    else if (shortEscape? letter).isSome then passString .plain rest
    else .error (.here .invalidEscape rest)
  | .digits seen, digit :: rest =>
    if seen.length < 3 then passString (.digits (digit :: seen)) rest
    else if (hexNumber? (digit :: seen)).isSome then passString .plain rest
    else .error (.here .invalidEscape rest)

/-! ## Writing -/

/-- An octet as it stands in a string. -/
def escaped (byte : UInt8) : Bytes :=
  if byte = quote then [backslash, quote]
  else if byte = backslash then [backslash, backslash]
  else if 0x20 ≤ byte then [byte]
  else if byte = 0x08 then [backslash, lowerB]
  else if byte = 0x0c then [backslash, lowerF]
  else if byte = newline then [backslash, lowerN]
  else if byte = carriageReturn then [backslash, lowerR]
  else if byte = tab then [backslash, lowerT]
  else [backslash, lowerU, zero, zero, ofHexDigit (byte.toNat / 16), ofHexDigit (byte.toNat % 16)]

/-- A text as a JSON string. -/
def literal (chars : String) : Bytes :=
  quote :: ((Utf8.encode chars).flatMap escaped ++ [quote])

end RemoteCall.Json
