import RemoteCall.Data.Schema
import RemoteCall.MessagePack.Record

/-!
# Reading MessagePack data by a schema

Numbers and truth values are read from items of those kinds alone, and an item
of a kind that holds neither is refused by its marker.  Lists, like records,
may be given as byte strings.  A variant of a choice is its name alone, or a
map of one entry from its name to its content.
-/

namespace RemoteCall

/-- A reader of MessagePack data that is told the depth left. -/
abbrev Schema.OfPack := (room : Nat) → MessagePack.Read Datum

namespace MessagePack

open Schema (OfPack)

/-- An item of a scalar kind; any other is refused by its marker. -/
def scalar : Read Item := fun s => do
  let (m, s) ← marker s
  match m with
  | .text _ | .bytes _ | .array _ | .map _ | .extension _ => .error (.wrongMarker m)
  | m => itemOf m s

/-- A datum made of a scalar item, if it is of the right type. -/
def fromScalar (read : Item → Except Error Datum) : Read Datum := fun s => do
  let (it, s) ← scalar s
  .ok (← read it, s)

/-- An integer of a kind. -/
def integerOf (kind : IntegerKind) : Item → Except Error Datum
  | .unsigned n => ofInt n
  | .signed n => ofInt n
  | it => mistyped 1 kind.name it
where
  /-- The integer, if the kind has it. -/
  ofInt (n : Int) : Except Error Datum :=
    match Integer.ofInt? n with
    | some m => if kind.Holds n then .ok (.integer m) else outside n
    | none => outside n
  /-- Refuses an integer that the kind has not. -/
  outside (n : Int) : Except Error Datum :=
    .error (.mismatch (.value (.integer n) kind.name))

/-- A truth value. -/
def boolOf : Item → Except Error Datum
  | .bool b => .ok (.bool b)
  | it => mistyped 1 "a boolean" it

/-- A 64-bit floating-point number. -/
def doubleOf : Item → Except Error Datum
  | .unsigned n => .ok (.double (.ofInt n))
  | .signed n => .ok (.double (.ofInt n))
  | .single x => .ok (.double x.convert)
  | .double x => .ok (.double x)
  | it => mistyped 1 "f64" it

/-- A 32-bit floating-point number. -/
def singleOf : Item → Except Error Datum
  | .unsigned n => .ok (.single (.ofInt n))
  | .signed n => .ok (.single (.ofInt n))
  | .single x => .ok (.single x)
  | .double x => .ok (.single x.convert)
  | it => mistyped 1 "f32" it

/-- Nothing. -/
def unit (room : Nat) : Read Datum := fun s => do
  let (it, s) ← item s
  match it with
  | .nil => .ok (.unit, s)
  | it => mistyped room "unit" it

/-- What stands in front, unless nothing does. -/
def optional (read : Read Datum) : Read Datum := fun s => do
  let (m, rest) ← marker s
  match m with
  | .nil => .ok (.none, rest)
  | _ => do
    let (d, s) ← read s
    .ok (.some d, s)

/-- A list, given the reader of its items. -/
def list (read : OfPack) (room : Nat) : Read Datum := fun s => do
  let (it, s) ← item s
  match it, room with
  | .array _, 0 => .error .tooDeep
  | .array count, room + 1 => do
    let (ds, s) ← items (read room) count [] s
    .ok (.sequence ds, s)
  | .bytes octets, room => do
    let ds ← octets.mapM fun octet => front (read room) [0xcc, octet]
    .ok (.sequence ds, s)
  | it, room => mistyped room "a sequence" it

/-- The fields of a record, read into one place for each. -/
def recordFields (expectation : String) (strict : Bool) (slots : List (Slot OfPack)) (room : Nat) :
    Fields Nat (List (Option Datum)) :=
  { expectation
    order := List.range slots.length
    name := fun index => (slots[index]?.map (·.name)).getD ""
    strict
    has := fun found index => (found[index]?.join).isSome
    fill := fun index found s =>
      match slots[index]? with
      | none => .ok (found, s)
      | some slot => do
        let (d, s) ← slot.read room s
        .ok (found.set index (some d), s) }

/-- The fields of a record read in order: those found, then what stands in for the others. -/
def finishOrdered (expectation : String) :
    (index : Nat) → List (Slot OfPack) → List (Option Datum) →
      Except Mismatch (List (String × Datum))
  | _, [], _ => .ok []
  | index, slot :: slots, some d :: found => do
    .ok ((slot.name, d) :: (← finishOrdered expectation (index + 1) slots found))
  | index, slots, _ => Slot.finishSequence expectation index slots

/-- A record of the given fields. -/
def record (what : String) (strict : Bool) (slots : List (Slot OfPack)) (room : Nat) :
    Read (List (String × Datum)) :=
  (recordFields what strict slots (room - 1)).record room (slots.map fun _ => none)
    (Slot.finishNamed slots) (finishOrdered (Slot.expectation what slots) 0 slots)

/-! ## Choices -/

/-- How the content of a variant is read. -/
inductive Variant where
  | nothing
  | one (read : OfPack)
  | fields (slots : List (Slot OfPack))

/-- A variant, by its name or its place. -/
def variantKey (room : Nat) (variants : List (String × Variant)) :
    Read (String × Variant) := fun s => do
  let names := variants.map Prod.fst
  let named (name : String) : Except Error (String × Variant) :=
    match variants.find? (·.1 = name) with
    | some variant => .ok variant
    | none => .error (.mismatch (.unknownVariant name names))
  let (it, s) ← item s
  match it with
  | .unsigned n =>
    match variants[n]? with
    | some variant => .ok (variant, s)
    | none =>
      .error (.mismatch (.value (.integer n) s!"variant index 0 <= i < {variants.length}"))
  | .text octets => do .ok (← named (← textOf octets), s)
  | .bytes octets => do .ok (← named (Utf8.decodeLossy octets), s)
  | it => mistyped room "variant identifier" it

/-- The content of a variant. -/
def variantContent (choice name : String) (room : Nat) : Variant → Read Datum
  | .nothing, s => do
    let (m, s) ← marker s
    match m with
    | .nil => .ok (.unitVariant name, s)
    | m => .error (.wrongMarker m)
  | .one read, s => do
    let (d, s) ← read room s
    .ok (.variant name d, s)
  | .fields slots, s => do
    let (fields, s) ← record s!"struct variant {choice}::{name}" false slots room s
    .ok (.variant name (.record fields), s)

/-- A variant of which only the name is given. -/
def bareVariant (name : String) : Variant → Except Error Datum
  | .nothing => .ok (.unitVariant name)
  | .one _ => .error (.mismatch (.type .unitVariant "newtype variant"))
  | .fields _ => .error (.mismatch (.type .unitVariant "struct variant"))

/-- A choice among variants. -/
def choice (name : String) (variants : List (String × Variant)) (room : Nat) :
    Read Datum := fun s => do
  let (m, rest) ← marker s
  match m with
  | .map count => do
    let (count, s) ← size count rest
    if count = 1 then
      let ((variant, content), s) ← variantKey room variants s
      variantContent name variant room content s
    else .error (.wrongLength count)
  | _ => do
    let ((variant, content), s) ← variantKey room variants s
    .ok (← bareVariant variant content, s)

end MessagePack

/-! ## Schemas -/

namespace Schema

open MessagePack

mutual

/-- Reads data as a datum of the type. -/
def ofPack : Schema → OfPack
  | any, room => fun s => do
    let (v, s) ← MessagePack.value room s
    .ok (.value v, s)
  | bool, _ => fromScalar boolOf
  | text, room => fun s => do
    let (chars, s) ← MessagePack.text room s
    .ok (.string chars, s)
  | unit, room => MessagePack.unit room
  | integer kind, _ => fromScalar (integerOf kind)
  | double, _ => fromScalar doubleOf
  | single, _ => fromScalar singleOf
  | option content, room => optional (content.ofPack room)
  | list content, room => MessagePack.list content.ofPack room
  | record name strict fields, room => fun s => do
    let (found, s) ← MessagePack.record ("struct " ++ name) strict (slotsOfPack fields) room s
    .ok (.record found, s)
  | choice name variants, room => MessagePack.choice name (variantsOfPack variants) room

/-- The readers of fields. -/
def slotsOfPack : List Field → List (Slot OfPack)
  | [] => []
  | .mk name schema fallback :: rest =>
    .ofField name schema fallback schema.ofPack :: slotsOfPack rest

/-- The readers of variants. -/
def variantsOfPack : List (String × Content) → List (String × MessagePack.Variant)
  | [] => []
  | (name, content) :: rest => (name, contentOfPack content) :: variantsOfPack rest

/-- The reader of a variant's content. -/
def contentOfPack : Content → MessagePack.Variant
  | .nothing => .nothing
  | .one schema => .one schema.ofPack
  | .fields fields => .fields (slotsOfPack fields)

end

/-- The datum of the type in front of the octets. -/
def readPack (schema : Schema) (s : Bytes) : Except MessagePack.Error Datum :=
  front (schema.ofPack deepest) s

end Schema

end RemoteCall
