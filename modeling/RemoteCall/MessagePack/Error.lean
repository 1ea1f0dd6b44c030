import RemoteCall.Data.Datum
import RemoteCall.MessagePack.Marker
import RemoteCall.Text.Utf8

/-!
# Faults in MessagePack data

Positions play no part here: a fault says what was due and what was there.
-/

namespace RemoteCall.MessagePack

/-- Why data could not be read or written. -/
inductive Error where
  /-- The data ends where an item is due. -/
  | endBeforeItem
  /-- The data ends inside a number, a length or a count. -/
  | endInNumber
  /-- The data ends inside a text or a byte string. -/
  | endInContent
  /-- An item of a kind that cannot be wanted here. -/
  | wrongMarker (marker : Marker)
  /-- An array of which only so many items were wanted. -/
  | wrongLength (wanted : Nat)
  /-- A text that is not UTF-8. -/
  | invalidText (fault : Utf8.Fault)
  /-- Too many arrays, maps and extensions inside one another. -/
  | tooDeep
  /-- Well-formed data of a type that is not wanted. -/
  | mismatch (mismatch : Mismatch)
  /-- A datum that cannot be written. -/
  | refusal (reason : Refusal)

/-- The text of an error. -/
def Error.message : Error → String
  | endBeforeItem => "IO error while reading marker: failed to fill whole buffer"
  | endInNumber => "IO error while reading data: failed to fill whole buffer"
  | endInContent => "IO error while reading data: unexpected end of file"
  | wrongMarker marker => s!"wrong msgpack marker {marker.name}"
  | wrongLength wanted => s!"array had incorrect length, expected {wanted}"
  | invalidText fault => s!"string found to be invalid utf8: {fault.message}"
  | tooDeep => "depth limit exceeded"
  | mismatch m => m.message .messagePack
  | refusal reason => reason.message

/-- A reader takes what it reads from the front of the octets. -/
abbrev Read (α : Type) := Bytes → Except Error (α × Bytes)

end RemoteCall.MessagePack
