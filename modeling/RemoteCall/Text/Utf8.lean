import RemoteCall.Bytes

/-!
# UTF-8

Texts are written as UTF-8 and read back strictly, or leniently with U+FFFD in
place of every maximal ill-formed sequence.  When strict reading fails, the
fault says how many octets were well-formed and how long the sequence is that
broke the rule; a text that merely stops inside a character has no such length.

`decode_encode` says that reading a written text gives the text.
-/

namespace RemoteCall.Utf8

/-- The octets of a text. -/
def encode (text : String) : Bytes :=
  text.toByteArray.data.toList

/-- The text with exactly these octets, if there is one. -/
def decode? (bytes : Bytes) : Option String :=
  String.fromUTF8? bytes.toByteArray

/-! ## Finding what is ill-formed -/

/-- A maximal part of an octet string: a character, octets that cannot be
continued to one, or a character that the end of the text cuts off. -/
inductive Piece where
  | char (value : Char) (width : Nat)
  | broken (width : Nat)
  | cut (width : Nat)
  deriving DecidableEq, Repr

/-- A character of which some octets have been seen and some are due. -/
structure Begun where
  /-- Octets seen so far. -/
  seen : Nat
  /-- Octets still due. -/
  due : Nat
  /-- The least octet that may come next. -/
  low : UInt8
  /-- The greatest octet that may come next. -/
  high : UInt8
  /-- The code point as far as it is known. -/
  value : Nat

/-- What an octet means at the start of a character. -/
inductive Lead where
  | alone (value : Char)
  | begins (begun : Begun)
  | stray

/-- Longer forms than necessary, surrogates and code points above U+10FFFF are
excluded by the range allowed for the second octet. -/
def lead (byte : UInt8) : Lead :=
  let begins (due : Nat) (low high mask : UInt8) : Lead :=
    .begins ⟨1, due, low, high, (byte &&& mask).toNat⟩
  if byte < 0x80 then .alone (Char.ofNat byte.toNat)
  else if byte < 0xc2 then .stray
  else if byte < 0xe0 then begins 1 0x80 0xbf 0x1f
  else if byte = 0xe0 then begins 2 0xa0 0xbf 0x0f
  else if byte = 0xed then begins 2 0x80 0x9f 0x0f
  else if byte < 0xf0 then begins 2 0x80 0xbf 0x0f
  else if byte = 0xf0 then begins 3 0x90 0xbf 0x07
  else if byte < 0xf4 then begins 3 0x80 0xbf 0x07
  else if byte = 0xf4 then begins 3 0x80 0x8f 0x07
  else .stray

/-- Where a scan stands: the character begun, and the pieces found, latest first. -/
structure Scan where
  begun : Option Begun := none
  pieces : List Piece := []

namespace Scan

/-- An octet at the start of a character. -/
def start (pieces : List Piece) (byte : UInt8) : Scan :=
  match lead byte with
  | .alone value => ⟨none, .char value 1 :: pieces⟩
  | .begins begun => ⟨some begun, pieces⟩
  | .stray => ⟨none, .broken 1 :: pieces⟩

/-- An octet that does not continue the character begun starts the next one. -/
def feed (scan : Scan) (byte : UInt8) : Scan :=
  match scan.begun with
  | none => start scan.pieces byte
  | some begun =>
    if begun.low ≤ byte ∧ byte ≤ begun.high then
      let value := 64 * begun.value + (byte &&& 0x3f).toNat
      if begun.due ≤ 1 then ⟨none, .char (Char.ofNat value) (begun.seen + 1) :: scan.pieces⟩
      else ⟨some ⟨begun.seen + 1, begun.due - 1, 0x80, 0xbf, value⟩, scan.pieces⟩
    else start (.broken begun.seen :: scan.pieces) byte

/-- The pieces in order, once the octets have ended. -/
def finish (scan : Scan) : List Piece :=
  match scan.begun with
  | none => scan.pieces.reverse
  | some begun => (.cut begun.seen :: scan.pieces).reverse

end Scan

/-- The maximal pieces of an octet string, in order. -/
def pieces (bytes : Bytes) : List Piece :=
  (bytes.foldl Scan.feed {}).finish

/-- Lenient reading: what is ill-formed becomes U+FFFD, one for each piece. -/
def decodeLossy (bytes : Bytes) : String :=
  String.ofList <| (pieces bytes).map fun
    | .char value _ => value
    | .broken _ | .cut _ => '\uFFFD'

/-! ## Strict reading -/

/-- Why octets are not a text. -/
structure Fault where
  /-- How many octets in front are well-formed. -/
  validUpTo : Nat
  /-- The length of the ill-formed sequence; none if the text only stops too early. -/
  width : Option Nat
  deriving DecidableEq, Repr

/-- The text of a fault. -/
def Fault.message (fault : Fault) : String :=
  match fault.width with
  | some width => s!"invalid utf-8 sequence of {width} bytes from index {fault.validUpTo}"
  | none => s!"incomplete utf-8 byte sequence from index {fault.validUpTo}"

/-- The first fault in a list of pieces that starts `index` octets into the text. -/
def firstFault (index : Nat) : List Piece → Fault
  | .char _ width :: rest => firstFault (index + width) rest
  | .broken width :: _ => ⟨index, some width⟩
  | .cut _ :: _ | [] => ⟨index, none⟩

/-- Strict reading. -/
def decode (bytes : Bytes) : Except Fault String :=
  match decode? bytes with
  | some text => .ok text
  | none => .error (firstFault 0 (pieces bytes))

/-! ## Laws -/

@[simp]
theorem toByteArray_encode (text : String) : (encode text).toByteArray = text.toByteArray := by
  apply ByteArray.ext
  rw [List.data_toByteArray, encode, Array.toArray_toList]

@[simp]
theorem decode?_encode (text : String) : decode? (encode text) = some text := by
  have valid : text.toByteArray.IsValidUTF8 := text.isValidUTF8
  simp [decode?, String.fromUTF8?, valid, String.fromUTF8]

/-- Reading a written text gives the text. -/
@[simp]
theorem decode_encode (text : String) : decode (encode text) = .ok text := by
  simp [decode]

end RemoteCall.Utf8
