import RemoteCall.Json.Literal

/-!
# Writing JSON

Texts are compact: no blanks, members in the order in which they are given,
characters beyond ASCII as they are.  Output is gathered in a buffer, latest
octet first, so that the cost of writing does not depend on the nesting.
-/

namespace RemoteCall.Json

open Ascii

/-- The buffer with more octets. -/
def push (octets : Bytes) (out : Bytes) : Bytes :=
  octets.reverseAux out

/-- The octets of a floating-point number. -/
def floatOctets {F : FloatFormat} (x : Floating F) : Bytes :=
  if x.IsFinite then octets (Wording.jsonFloat.write x) else octets "null"

/-- The buffer with a comma, if an item came before. -/
def separate (after : Bool) (out : Bytes) : Bytes :=
  if after then comma :: out else out

mutual

/-- Puts a value into the buffer. -/
def putValue : Value → Bytes → Bytes
  | .null, out => push (octets "null") out
  | .bool true, out => push (octets "true") out
  | .bool false, out => push (octets "false") out
  | .integer n, out => push (octets (Decimal.intText n.val)) out
  | .float x _, out => push (floatOctets x) out
  | .string chars, out => push (literal chars) out
  | .array items, out => closeBracket :: putItems false items (openBracket :: out)
  | .object members, out => closeBrace :: putMembers false members (openBrace :: out)

/-- Puts items into the buffer. -/
def putItems (after : Bool) : List Value → Bytes → Bytes
  | [], out => out
  | item :: rest, out => putItems true rest (putValue item (separate after out))

/-- Puts members into the buffer. -/
def putMembers (after : Bool) : List (String × Value) → Bytes → Bytes
  | [], out => out
  | (name, v) :: rest, out =>
    putMembers true rest (putValue v (colon :: push (literal name) (separate after out)))

end

/-- The text of a value. -/
def writeValue (v : Value) : Bytes :=
  (putValue v []).reverse

/-- The text of a value, as characters. -/
def valueText (v : Value) : String :=
  (Utf8.decode? (writeValue v)).getD ""

/-! ## Data -/

mutual

/-- Puts a datum into the buffer. -/
def putDatum : Datum → Bytes → Except Refusal Bytes
  | .unit, out | .none, out | .unitRecord, out => .ok (push (octets "null") out)
  | .some content, out | .wrapped content, out => putDatum content out
  | .bool true, out => .ok (push (octets "true") out)
  | .bool false, out => .ok (push (octets "false") out)
  | .integer n, out => .ok (push (octets (Decimal.intText n.val)) out)
  | .wide n, out => .ok (push (octets (Decimal.intText n)) out)
  | .double x, out => .ok (push (floatOctets x) out)
  | .single x, out => .ok (push (floatOctets x) out)
  | .char c, out => .ok (push (literal (String.singleton c)) out)
  | .string chars, out => .ok (push (literal chars) out)
  | .bytes octets, out => .ok (putValue (.array (octets.map Datum.octetValue)) out)
  | .sequence items, out => do .ok (closeBracket :: (← putData false items (openBracket :: out)))
  | .map entries, out => do .ok (closeBrace :: (← putEntries false entries (openBrace :: out)))
  | .record fields, out => do .ok (closeBrace :: (← putFields false fields (openBrace :: out)))
  | .unitVariant name, out => .ok (push (literal name) out)
  | .variant name content, out => do
    .ok (closeBrace :: (← putDatum content (colon :: push (literal name) (openBrace :: out))))
  | .value v, out => .ok (putValue v out)
  | .refuse message, _ => .error (.refused message)

/-- Puts data into the buffer as items. -/
def putData (after : Bool) : List Datum → Bytes → Except Refusal Bytes
  | [], out => .ok out
  | item :: rest, out => do putData true rest (← putDatum item (separate after out))

/-- Puts the entries of a map into the buffer. -/
def putEntries (after : Bool) : List (Datum × Datum) → Bytes → Except Refusal Bytes
  | [], out => .ok out
  | (key, content) :: rest, out => do
    let name ← key.keyText
    putEntries true rest (← putDatum content (colon :: push (literal name) (separate after out)))

/-- Puts the fields of a record into the buffer. -/
def putFields (after : Bool) : List (String × Datum) → Bytes → Except Refusal Bytes
  | [], out => .ok out
  | (name, content) :: rest, out => do
    putFields true rest (← putDatum content (colon :: push (literal name) (separate after out)))

end

/-- The text of a datum. -/
def writeDatum (d : Datum) : Except Error Bytes :=
  match putDatum d [] with
  | .ok out => .ok out.reverse
  | .error reason => .error (.refusal reason)

end RemoteCall.Json
