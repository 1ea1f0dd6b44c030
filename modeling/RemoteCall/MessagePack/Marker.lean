import RemoteCall.Bytes

/-!
# MessagePack markers

The first octet of a MessagePack item says of what kind the item is and how its
number, length or count is stored.  Every octet is a marker; one of them is
reserved and begins no item.
-/

namespace RemoteCall.MessagePack

/-- How a length or a count is stored. -/
inductive Size where
  /-- In the marker. -/
  | inMarker (n : Nat)
  /-- In so many octets after it. -/
  | after (width : Nat)
  deriving DecidableEq, Repr

/-- What the first octet of an item says. -/
inductive Marker where
  | nil
  | reserved
  | bool (b : Bool)
  /-- A small number that the marker holds. -/
  | positive (n : Nat)
  /-- A small number below zero that the marker holds. -/
  | negative (n : Int)
  | unsigned (width : Nat)
  | signed (width : Nat)
  | single
  | double
  | text (size : Size)
  | bytes (width : Nat)
  | array (size : Size)
  | map (size : Size)
  | extension (size : Size)
  deriving DecidableEq, Repr

namespace Marker

/-- The marker that an octet is. -/
def ofByte (byte : UInt8) : Marker :=
  let n := byte.toNat
  if n < 0x80 then .positive n
  else if n < 0x90 then .map (.inMarker (n - 0x80))
  else if n < 0xa0 then .array (.inMarker (n - 0x90))
  else if n < 0xc0 then .text (.inMarker (n - 0xa0))
  else if 0xe0 ≤ n then .negative (n - 0x100)
  else match n with
    | 0xc0 => .nil
    | 0xc1 => .reserved
    | 0xc2 => .bool false
    | 0xc3 => .bool true
    | 0xc4 => .bytes 1
    | 0xc5 => .bytes 2
    | 0xc6 => .bytes 4
    | 0xc7 => .extension (.after 1)
    | 0xc8 => .extension (.after 2)
    | 0xc9 => .extension (.after 4)
    | 0xca => .single
    | 0xcb => .double
    | 0xcc => .unsigned 1
    | 0xcd => .unsigned 2
    | 0xce => .unsigned 4
    | 0xcf => .unsigned 8
    | 0xd0 => .signed 1
    | 0xd1 => .signed 2
    | 0xd2 => .signed 4
    | 0xd3 => .signed 8
    | 0xd4 => .extension (.inMarker 1)
    | 0xd5 => .extension (.inMarker 2)
    | 0xd6 => .extension (.inMarker 4)
    | 0xd7 => .extension (.inMarker 8)
    | 0xd8 => .extension (.inMarker 16)
    | 0xd9 => .text (.after 1)
    | 0xda => .text (.after 2)
    | 0xdb => .text (.after 4)
    | 0xdc => .array (.after 2)
    | 0xdd => .array (.after 4)
    | 0xde => .map (.after 2)
    | _ => .map (.after 4)

/-- The number of bits in so many octets. -/
def bits (width : Nat) : String :=
  Nat.repr (8 * width)

/-- The name of a marker, in messages. -/
def name : Marker → String
  | nil => "Null"
  | reserved => "Reserved"
  | bool true => "True"
  | bool false => "False"
  | positive n => s!"FixPos({n})"
  | negative n => s!"FixNeg({n})"
  | unsigned width => "U" ++ bits width
  | signed width => "I" ++ bits width
  | single => "F32"
  | double => "F64"
  | text (.inMarker n) => s!"FixStr({n})"
  | text (.after width) => "Str" ++ bits width
  | bytes width => "Bin" ++ bits width
  | array (.inMarker n) => s!"FixArray({n})"
  | array (.after width) => "Array" ++ bits width
  | map (.inMarker n) => s!"FixMap({n})"
  | map (.after width) => "Map" ++ bits width
  | extension (.inMarker n) => s!"FixExt{n}"
  | extension (.after width) => "Ext" ++ bits width

end Marker

end RemoteCall.MessagePack
