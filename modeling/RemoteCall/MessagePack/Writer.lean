import RemoteCall.MessagePack.Error

/-!
# Writing MessagePack data

Every number, length and count takes the fewest octets; an integer that is not
below zero is stored without a sign.  Records are maps from their field names,
a 128-bit integer is a byte string of sixteen octets.  Output is gathered in a
buffer, latest octet first.
-/

namespace RemoteCall.MessagePack

/-- The buffer with a marker and a number of so many octets. -/
def store (marker : UInt8) (width n : Nat) (out : Bytes) : Bytes :=
  (Bytes.ofNat width n).reverseAux (marker :: out)

/-- Puts a natural number below `2^64` into the buffer. -/
def putNatural (n : Nat) (out : Bytes) : Bytes :=
  if n < 0x80 then UInt8.ofNat n :: out
  else if n < 0x100 then store 0xcc 1 n out
  else if n < 0x10000 then store 0xcd 2 n out
  else if n < 0x100000000 then store 0xce 4 n out
  else store 0xcf 8 n out

/-- The two's complement of an integer in so many octets. -/
def twosComplement (width : Nat) (n : Int) : Nat :=
  (n % (Nat.pow 2 (8 * width) : Nat)).toNat

/-- Puts an integer into the buffer. -/
def putInteger (n : Int) (out : Bytes) : Bytes :=
  if 0 ≤ n then putNatural n.toNat out
  else if -0x20 ≤ n then UInt8.ofNat (twosComplement 1 n) :: out
  else if -0x80 ≤ n then store 0xd0 1 (twosComplement 1 n) out
  else if -0x8000 ≤ n then store 0xd1 2 (twosComplement 2 n) out
  else if -0x80000000 ≤ n then store 0xd2 4 (twosComplement 4 n) out
  else store 0xd3 8 (twosComplement 8 n) out

/-- Puts the length of a text into the buffer. -/
def putTextLength (n : Nat) (out : Bytes) : Bytes :=
  if n < 0x20 then UInt8.ofNat (0xa0 + n) :: out
  else if n < 0x100 then store 0xd9 1 n out
  else if n < 0x10000 then store 0xda 2 n out
  else store 0xdb 4 n out

/-- Puts a text into the buffer. -/
def putText (chars : String) (out : Bytes) : Bytes :=
  let octets := Utf8.encode chars
  octets.reverseAux (putTextLength octets.length out)

/-- Puts a byte string into the buffer. -/
def putBytes (octets : Bytes) (out : Bytes) : Bytes :=
  let n := octets.length
  octets.reverseAux <|
    if n < 0x100 then store 0xc4 1 n out
    else if n < 0x10000 then store 0xc5 2 n out
    else store 0xc6 4 n out

/-- Puts the count of an array into the buffer. -/
def putArrayCount (n : Nat) (out : Bytes) : Bytes :=
  if n < 0x10 then UInt8.ofNat (0x90 + n) :: out
  else if n < 0x10000 then store 0xdc 2 n out
  else store 0xdd 4 n out

/-- Puts the count of a map into the buffer. -/
def putMapCount (n : Nat) (out : Bytes) : Bytes :=
  if n < 0x10 then UInt8.ofNat (0x80 + n) :: out
  else if n < 0x10000 then store 0xde 2 n out
  else store 0xdf 4 n out

/-- Puts a 64-bit floating-point number into the buffer. -/
def putDouble (x : Double) (out : Bytes) : Bytes :=
  store 0xcb 8 x.toBits out

mutual

/-- Puts a value into the buffer. -/
def putValue : Value → Bytes → Bytes
  | .null, out => 0xc0 :: out
  | .bool false, out => 0xc2 :: out
  | .bool true, out => 0xc3 :: out
  | .integer n, out => putInteger n.val out
  | .float x _, out => putDouble x out
  | .string chars, out => putText chars out
  | .array items, out => putItems items (putArrayCount items.length out)
  | .object members, out => putMembers members (putMapCount members.length out)

/-- Puts items into the buffer. -/
def putItems : List Value → Bytes → Bytes
  | [], out => out
  | item :: rest, out => putItems rest (putValue item out)

/-- Puts members into the buffer. -/
def putMembers : List (String × Value) → Bytes → Bytes
  | [], out => out
  | (name, v) :: rest, out => putMembers rest (putValue v (putText name out))

end

mutual

/-- Puts a datum into the buffer. -/
def putDatum : Datum → Bytes → Except Refusal Bytes
  | .unit, out | .none, out => .ok (0xc0 :: out)
  | .some content, out | .wrapped content, out => putDatum content out
  | .bool false, out => .ok (0xc2 :: out)
  | .bool true, out => .ok (0xc3 :: out)
  | .integer n, out => .ok (putInteger n.val out)
  | .wide n, out => .ok (putBytes (Bytes.ofNat 16 (twosComplement 16 n)) out)
  | .double x, out => .ok (putDouble x out)
  | .single x, out => .ok (store 0xca 4 x.toBits out)
  | .char c, out => .ok (putText (String.singleton c) out)
  | .string chars, out => .ok (putText chars out)
  | .bytes octets, out => .ok (putBytes octets out)
  | .sequence items, out => putData items (putArrayCount items.length out)
  | .map entries, out => putEntries entries (putMapCount entries.length out)
  | .record fields, out => putFields fields (putMapCount fields.length out)
  | .unitRecord, out => .ok (putArrayCount 0 out)
  | .unitVariant name, out => .ok (putText name out)
  | .variant name content, out => putDatum content (putText name (putMapCount 1 out))
  | .value v, out => .ok (putValue v out)
  | .refuse message, _ => .error (.refused message)

/-- Puts data into the buffer. -/
def putData : List Datum → Bytes → Except Refusal Bytes
  | [], out => .ok out
  | item :: rest, out => do putData rest (← putDatum item out)

/-- Puts the entries of a map into the buffer. -/
def putEntries : List (Datum × Datum) → Bytes → Except Refusal Bytes
  | [], out => .ok out
  | (key, content) :: rest, out => do putEntries rest (← putDatum content (← putDatum key out))

/-- Puts the fields of a record into the buffer. -/
def putFields : List (String × Datum) → Bytes → Except Refusal Bytes
  | [], out => .ok out
  | (name, content) :: rest, out => do putFields rest (← putDatum content (putText name out))

end

/-- The octets of a value. -/
def writeValue (v : Value) : Bytes :=
  (putValue v []).reverse

/-- The octets of a datum. -/
def writeDatum (d : Datum) : Except Error Bytes :=
  match putDatum d [] with
  | .ok out => .ok out.reverse
  | .error reason => .error (.refusal reason)

end RemoteCall.MessagePack
