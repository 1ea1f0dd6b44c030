import RemoteCall.Data.Datum

/-!
# Faults in JSON texts

A reader reports what is wrong and where.  Inside a reader the place is given
by what is left to read; `Fault.locate` turns it into a line and a column once
the whole text is at hand.  Lines are counted from one, columns are octets.
-/

namespace RemoteCall.Json

/-- What is wrong. -/
inductive Cause where
  | endInList
  | endInObject
  | endInString
  | endInValue
  | expectedColon
  | expectedCommaOrBracket
  | expectedCommaOrBrace
  | expectedWord
  | expectedValue
  | invalidEscape
  | invalidNumber
  | numberOutOfRange
  | invalidText
  | controlCharacter
  | keyNotText
  | loneSurrogate
  | unpairedSurrogate
  | trailingComma
  | trailingCharacters
  | tooDeep
  /-- Well-formed data of a type that is not wanted. -/
  | mismatch (mismatch : Mismatch)

/-- The text of a cause. -/
def Cause.message : Cause → String
  | endInList => "EOF while parsing a list"
  | endInObject => "EOF while parsing an object"
  | endInString => "EOF while parsing a string"
  | endInValue => "EOF while parsing a value"
  | expectedColon => "expected `:`"
  | expectedCommaOrBracket => "expected `,` or `]`"
  | expectedCommaOrBrace => "expected `,` or `\x7d`"
  | expectedWord => "expected ident"
  | expectedValue => "expected value"
  | invalidEscape => "invalid escape"
  | invalidNumber => "invalid number"
  | numberOutOfRange => "number out of range"
  | invalidText => "invalid unicode code point"
  | controlCharacter => "control character (\\u0000-\\u001F) found while parsing a string"
  | keyNotText => "key must be a string"
  | loneSurrogate => "lone leading surrogate in hex escape"
  | unpairedSurrogate => "unexpected end of hex escape"
  | trailingComma => "trailing comma"
  | trailingCharacters => "trailing characters"
  | tooDeep => "recursion limit exceeded"
  | mismatch m => m.message .json

/-- Where something is wrong, seen from what is left to read. -/
inductive Place where
  /-- After the last octet read. -/
  | here
  /-- After the first octet left, if there is one. -/
  | next
  /-- Some octets before `here`. -/
  | back (octets : Nat)

/-- Why reading stopped. -/
structure Fault where
  cause : Cause
  place : Place
  /-- What was left to read. -/
  rest : Bytes

/-- A reader takes what it reads from the front of the octets. -/
abbrev Read (α : Type) := Bytes → Except Fault (α × Bytes)

/-- A fault after the last octet read. -/
def Fault.here (cause : Cause) (rest : Bytes) : Fault := ⟨cause, .here, rest⟩

/-- A fault at the first octet left. -/
def Fault.next (cause : Cause) (rest : Bytes) : Fault := ⟨cause, .next, rest⟩

/-! ## Positions -/

/-- A position in a text. -/
structure Position where
  line : Nat
  column : Nat
  deriving DecidableEq, Repr

/-- The position after one more octet. -/
def Position.advance (p : Position) (byte : UInt8) : Position :=
  if byte = 0x0a then ⟨p.line + 1, 0⟩ else ⟨p.line, p.column + 1⟩

/-- The position after some octets from the start. -/
def Position.after (octets : Bytes) : Position :=
  octets.foldl advance ⟨1, 0⟩

/-- Why a text, a value or a datum could not be read or written. -/
inductive Error where
  /-- A fault in a text. -/
  | text (cause : Cause) (position : Position)
  /-- A value that is not of the wanted type. -/
  | data (mismatch : Mismatch)
  /-- A datum without a JSON form. -/
  | refusal (reason : Refusal)

/-- The fault as an error in the whole text. -/
def Fault.locate (fault : Fault) (whole : Bytes) : Error :=
  let taken := whole.length - fault.rest.length
  let index := match fault.place with
    | .here => taken
    | .next => min (taken + 1) whole.length
    | .back octets => taken - octets
  .text fault.cause (Position.after (whole.take index))

/-- The text of an error. -/
def Error.message : Error → String
  | .text cause position =>
    s!"{cause.message} at line {position.line} column {position.column}"
  | .data mismatch => mismatch.message .json
  | .refusal reason => reason.message

end RemoteCall.Json
