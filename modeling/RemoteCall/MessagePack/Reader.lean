import RemoteCall.Floating.Rounding
import RemoteCall.MessagePack.Error

/-!
# Reading MessagePack values

An `Item` is what a marker announces, read as far as its extent is known: a
number, the octets of a text, or the count of an array.  `value` reads the
neutral form; arrays, maps and extensions may be nested to a fixed depth, of
which `room` is left.  `pass` reads any item and forgets it.
-/

namespace RemoteCall.MessagePack

/-- The front of what is to be read. -/
inductive Item where
  | nil
  | bool (b : Bool)
  /-- A number that is stored without a sign. -/
  | unsigned (n : Nat)
  /-- A number that is stored with a sign. -/
  | signed (n : Int)
  | single (x : Single)
  | double (x : Double)
  | text (octets : Bytes)
  | bytes (octets : Bytes)
  /-- So many items follow. -/
  | array (count : Nat)
  /-- So many pairs of items follow. -/
  | map (count : Nat)
  /-- A tag and so many octets follow. -/
  | extension (length : Nat)

/-! ## Items -/

/-- The marker in front. -/
def marker : Read Marker
  | [] => .error .endBeforeItem
  | byte :: rest => .ok (.ofByte byte, rest)

/-- A number of so many octets. -/
def natural (width : Nat) : Read Nat := fun s =>
  match Bytes.takeExact width s with
  | some (octets, rest) => .ok (Bytes.toNat octets, rest)
  | none => .error .endInNumber

/-- The integer whose two's complement in so many octets is the given number. -/
def ofTwosComplement (width n : Nat) : Int :=
  if n < Nat.pow 2 (8 * width - 1) then n else (n : Int) - (Nat.pow 2 (8 * width) : Nat)

/-- A length or a count. -/
def size : Size → Read Nat
  | .inMarker n, s => .ok (n, s)
  | .after width, s => natural width s

/-- The content of a text or a byte string. -/
def content (length : Nat) : Read Bytes := fun s =>
  match Bytes.takeExact length s with
  | some (octets, rest) => .ok (octets, rest)
  | none => .error .endInContent

/-- What a marker announces. -/
def itemOf : Marker → Read Item
  | .nil, s => .ok (.nil, s)
  | .reserved, _ => .error (.wrongMarker .reserved)
  | .bool b, s => .ok (.bool b, s)
  | .positive n, s => .ok (.unsigned n, s)
  | .negative n, s => .ok (.signed n, s)
  | .unsigned width, s => do
    let (n, s) ← natural width s
    .ok (.unsigned n, s)
  | .signed width, s => do
    let (n, s) ← natural width s
    .ok (.signed (ofTwosComplement width n), s)
  | .single, s => do
    let (n, s) ← natural 4 s
    .ok (.single (.ofBits n), s)
  | .double, s => do
    let (n, s) ← natural 8 s
    .ok (.double (.ofBits n), s)
  | .text length, s => do
    let (length, s) ← size length s
    let (octets, s) ← content length s
    .ok (.text octets, s)
  | .bytes width, s => do
    let (length, s) ← natural width s
    let (octets, s) ← content length s
    .ok (.bytes octets, s)
  | .array count, s => do
    let (count, s) ← size count s
    .ok (.array count, s)
  | .map count, s => do
    let (count, s) ← size count s
    .ok (.map count, s)
  | .extension length, s => do
    let (length, s) ← size length s
    .ok (.extension length, s)

/-- The item in front. -/
def item : Read Item := fun s => do
  let (m, s) ← marker s
  itemOf m s

/-- The text that octets are. -/
def textOf (octets : Bytes) : Except Error String :=
  match Utf8.decode octets with
  | .ok chars => .ok chars
  | .error fault => .error (.invalidText fault)

/-- Refuses an item that is not what was expected; `room` is the depth left. -/
def mistyped {α : Type} (room : Nat) (expected : String) (it : Item) : Except Error α :=
  let refuse (found : Found) : Except Error α := .error (.mismatch (.type found expected))
  let enter (found : Found) : Except Error α :=
    if room = 0 then .error .tooDeep else refuse found
  match it with
  | .nil => refuse .unit
  | .bool b => refuse (.bool b)
  | .unsigned n => refuse (.integer n)
  | .signed n => refuse (.integer n)
  | .single x => refuse (.float x.convert)
  | .double x => refuse (.float x)
  | .text octets => do refuse (.string (← textOf octets))
  | .bytes _ => refuse .bytes
  | .array _ => enter .sequence
  | .map _ => enter .map
  | .extension _ => enter .newtypeStruct

/-! ## Values -/

/-- An integer as a value.  Every integer that an item can hold fits. -/
def integerValue (n : Int) : Value :=
  match Integer.ofInt? n with
  | some n => .integer n
  | none => .null

/-- So many items, behind those already `done`, latest first. -/
def items {α : Type} (read : Read α) : (count : Nat) → (done : List α) → Read (List α)
  | 0, done, s => .ok (done.reverse, s)
  | count + 1, done, s => do
    let (v, s) ← read s
    items read count (v :: done) s

/-- The key of a map's first entry: a text. -/
def firstKey (room : Nat) : Read String := fun s => do
  let (it, s) ← item s
  match it with
  | .text octets => .ok (← textOf octets, s)
  | it => mistyped room "a string key" it

/-- A text, which may also be given as a byte string. -/
def text (room : Nat) : Read String := fun s => do
  let (it, s) ← item s
  match it with
  | .text octets => .ok (← textOf octets, s)
  | .bytes octets =>
    match Utf8.decode? octets with
    | some chars => .ok (chars, s)
    | none => .error (.mismatch (.value .bytes "a string"))
  | it => mistyped room "a string" it

/-- So many entries, the first of which has a key of its own reader, behind those
already `done`, latest first. -/
def entries {α : Type} (room : Nat) (read : Read α) (key : Read String) :
    (count : Nat) → (done : List (String × α)) → Read (List (String × α))
  | 0, done, s => .ok (done.reverse, s)
  | count + 1, done, s => do
    let (name, s) ← key s
    let (v, s) ← read s
    entries room read (text room) count ((name, v) :: done) s

/-- A value, given the reader of values inside it and the room they have, if there is any. -/
def valueWith (inner : Option (Nat × Read Value)) : Read Value := fun s => do
  let (it, s) ← item s
  match it, inner with
  | .nil, _ => .ok (.null, s)
  | .bool b, _ => .ok (.bool b, s)
  | .unsigned n, _ => .ok (integerValue n, s)
  | .signed n, _ => .ok (integerValue n, s)
  | .single x, _ => .ok (.ofDouble x.convert, s)
  | .double x, _ => .ok (.ofDouble x, s)
  | .text octets, _ => .ok (.string (← textOf octets), s)
  | .array _, none | .map _, none => .error .tooDeep
  | .array count, some (_, read) => do
    let (vs, s) ← items read count [] s
    .ok (.array vs, s)
  | .map count, some (room, read) => do
    let (ms, s) ← entries room read (firstKey room) count [] s
    .ok (.ofMembers ms, s)
  | it, none => mistyped 0 "any valid JSON value" it
  | it, some _ => mistyped 1 "any valid JSON value" it

/-- A value with at most `room` arrays, maps and extensions inside one another. -/
def value : (room : Nat) → Read Value
  | 0 => valueWith none
  | room + 1 => valueWith (some (room, value room))

/-- How many arrays, maps and extensions may stand inside one another. -/
def deepest : Nat := 1023

/-! ## Items that nobody wants -/

/-- What follows so many items. -/
def passItems (pass : Bytes → Except Error Bytes) : (count : Nat) → Bytes → Except Error Bytes
  | 0, s => .ok s
  | count + 1, s => do passItems pass count (← pass s)

/-- What follows an item, given how to pass over the items inside it, if there may be any. -/
def passWith (inner : Option (Bytes → Except Error Bytes)) (s : Bytes) : Except Error Bytes := do
  let (it, s) ← item s
  match it, inner with
  | .array _, none | .map _, none | .extension _, none => .error .tooDeep
  | .array count, some pass => passItems pass count s
  | .map count, some pass => passItems pass (2 * count) s
  | .extension length, some _ => do
    let (_, s) ← natural 1 s
    let (_, s) ← content length s
    .ok s
  | _, _ => .ok s

/-- What follows an item of any kind with at most `room` others around one another. -/
def pass : (room : Nat) → Bytes → Except Error Bytes
  | 0 => passWith none
  | room + 1 => passWith (some (pass room))

end RemoteCall.MessagePack
