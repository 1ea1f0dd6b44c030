import RemoteCall.Data.Datum

/-!
# Schemas

A schema describes a type of an application: what may be read as it, and which
datum that gives.  Reading a value by a schema is defined here; other formats
read by the same schemas.

Records may be read from named members or from a sequence in declared order.
A field that is not there gets its fallback, if it has one.  A named field of
an optional type needs none; in a sequence it does.
-/

namespace RemoteCall

mutual

/-- A type of an application. -/
inductive Schema where
  /-- Any value. -/
  | any
  | bool
  | text
  | unit
  | integer (kind : IntegerKind)
  | double
  | single
  | option (content : Schema)
  | list (item : Schema)
  /-- A record; a strict one admits no other members than its fields. -/
  | record (name : String) (strict : Bool) (fields : List Field)
  /-- A choice among named variants. -/
  | choice (name : String) (variants : List (String × Content))

/-- A field of a record, with what stands in for it when it is absent. -/
inductive Field where
  | mk (name : String) (schema : Schema) (fallback : Option Datum)

/-- What a variant of a choice carries. -/
inductive Content where
  | nothing
  | one (schema : Schema)
  | fields (fields : List Field)

end

/-- A field as a reader meets it: `ρ` is whatever reads its content. -/
structure Slot (ρ : Type) where
  name : String
  read : ρ
  /-- What stands in for the field in a record of named members. -/
  unnamed : Option Datum
  /-- What stands in for the field in a sequence that ends before it. -/
  beyond : Option Datum

namespace Slot

variable {ρ : Type}

/-- The slot of a field, given the reader of its content. -/
def ofField (name : String) (schema : Schema) (fallback : Option Datum) (read : ρ) : Slot ρ :=
  { name, read
    unnamed := match fallback, schema with
      | some datum, _ => some datum
      | none, .option _ => some .none
      | none, _ => none
    beyond := fallback }

/-- The fields of a record of named members: what was found, or what stands in for it. -/
def finishNamed : List (Slot ρ) → List (Option Datum) → Except Mismatch (List (String × Datum))
  | [], _ => .ok []
  | slot :: slots, found => do
    match found.head?.join.or slot.unnamed with
    | none => .error (.missingField slot.name)
    | some datum => .ok ((slot.name, datum) :: (← finishNamed slots found.tail))

/-- The fields of a record read in declared order, once the sequence has ended
before the given slots; `index` counts the items there were. -/
def finishSequence (expected : String) (index : Nat) :
    List (Slot ρ) → Except Mismatch (List (String × Datum))
  | [] => .ok []
  | slot :: slots =>
    match slot.beyond with
    | none => .error (.length index expected)
    | some datum => do .ok ((slot.name, datum) :: (← finishSequence expected (index + 1) slots))

/-- What a sequence for a record of these slots should have held. -/
def expectation (what : String) (slots : List (Slot ρ)) : String :=
  s!"{what} with {slots.length} element" ++ if slots.length = 1 then "" else "s"

end Slot

namespace Schema

/-- A reader of values. -/
abbrev OfValue := Value → Except Mismatch Datum

/-- Reads the fields of a record from members; `strict` admits no others. -/
def fieldsOfMembers (strict : Bool) (slots : List (Slot OfValue)) :
    List (Option Datum) → List (String × Value) → Except Mismatch (List (String × Datum))
  | found, [] => Slot.finishNamed slots found
  | found, (name, v) :: rest =>
    match slots.findIdx? (·.name = name) with
    | none =>
      if strict then .error (.unknownField name (slots.map (·.name)))
      else fieldsOfMembers strict slots found rest
    | some index =>
      match slots[index]? with
      | none => fieldsOfMembers strict slots found rest
      | some slot =>
        if (found[index]?.join).isSome then .error (.duplicateField name)
        else do
          let datum ← slot.read v
          fieldsOfMembers strict slots (found.set index (some datum)) rest

/-- Reads the fields of a record in declared order from the items of an array;
`index` counts the items read and `expected` says what they are read as. -/
def fieldsOfItems (expected : String) (index : Nat) :
    List (Slot OfValue) → List Value → Except Mismatch (List (String × Datum))
  | [], [] => .ok []
  | [], rest => .error (.length (index + rest.length) "fewer elements in array")
  | slots, [] => Slot.finishSequence expected index slots
  | slot :: slots, v :: rest => do
    let datum ← slot.read v
    .ok ((slot.name, datum) :: (← fieldsOfItems expected (index + 1) slots rest))

/-- Reads the fields of a record from an object. -/
def fieldsOfObject (strict : Bool) (slots : List (Slot OfValue))
    (members : List (String × Value)) : Except Mismatch (List (String × Datum)) :=
  fieldsOfMembers strict slots (slots.map fun _ => none) members

/-- What can be read as a variant of a choice: its name alone, or its content. -/
inductive Variant where
  | nothing
  | one (read : OfValue)
  | fields (slots : List (Slot OfValue))

namespace Variant

/-- A variant of which only the name is given. -/
def ofName (name : String) : Variant → Except Mismatch Datum
  | nothing => .ok (.unitVariant name)
  | one _ => .error (.type .unitVariant "newtype variant")
  | fields _ => .error (.type .unitVariant "struct variant")

/-- A variant of which the content is given. -/
def ofContent (name : String) (v : Value) : Variant → Except Mismatch Datum
  | nothing => if v.isNull then .ok (.unitVariant name) else v.mistyped "unit"
  | one read => do .ok (.variant name (← read v))
  | fields slots =>
    match v with
    | .object members => do .ok (.variant name (.record (← fieldsOfObject false slots members)))
    | v => v.mistyped "struct variant"

end Variant

/-- The variant of that name. -/
def variantNamed {α : Type} (name : String) (variants : List (String × α)) : Except Mismatch α :=
  match variants.lookup name with
  | some variant => .ok variant
  | none => .error (.unknownVariant name (variants.map Prod.fst))

/-- Reads a choice: the name of a variant, or an object of one member. -/
def choiceOfValue (variants : List (String × Variant)) : OfValue
  | .string name => do (← variantNamed name variants).ofName name
  | .object [(name, v)] => do (← variantNamed name variants).ofContent name v
  | .object _ => .error (.value .map "map with a single key")
  | v => v.mistyped "string or map"

/-- Reads an integer of a kind. -/
def integerOfValue (kind : IntegerKind) : OfValue
  | .integer n =>
    if kind.Holds n.val then .ok (.integer n) else .error (.value (.integer n.val) kind.name)
  | v => v.mistyped kind.name

mutual

/-- Reads a value as a datum of the type. -/
def ofValue : Schema → OfValue
  | any, v => .ok (.value v)
  | bool, v =>
    match v with
    | .bool b => .ok (.bool b)
    | v => v.mistyped "a boolean"
  | text, v =>
    match v with
    | .string chars => .ok (.string chars)
    | v => v.mistyped "a string"
  | unit, v => if v.isNull then .ok .unit else v.mistyped "unit"
  | integer kind, v => integerOfValue kind v
  | double, v =>
    match v with
    | .integer n => .ok (.double (.ofInt n.val))
    | .float x _ => .ok (.double x)
    | v => v.mistyped "f64"
  | single, v =>
    match v with
    | .integer n => .ok (.single (.ofInt n.val))
    | .float x _ => .ok (.single x.convert)
    | v => v.mistyped "f32"
  | option content, v => if v.isNull then .ok .none else do .ok (.some (← content.ofValue v))
  | list item, v =>
    match v with
    | .array items => do .ok (.sequence (← items.mapM item.ofValue))
    | v => v.mistyped "a sequence"
  | record name strict fields, v =>
    let slots := slotsOfValue fields
    let what := "struct " ++ name
    match v with
    | .object members => do .ok (.record (← fieldsOfObject strict slots members))
    | .array items => do .ok (.record (← fieldsOfItems (Slot.expectation what slots) 0 slots items))
    | v => v.mistyped what
  | choice _ variants, v => choiceOfValue (variantsOfValue variants) v

/-- The readers of fields. -/
def slotsOfValue : List Field → List (Slot OfValue)
  | [] => []
  | .mk name schema fallback :: rest =>
    .ofField name schema fallback schema.ofValue :: slotsOfValue rest

/-- The readers of variants. -/
def variantsOfValue : List (String × Content) → List (String × Variant)
  | [] => []
  | (name, content) :: rest => (name, contentOfValue content) :: variantsOfValue rest

/-- The reader of a variant's content. -/
def contentOfValue : Content → Variant
  | .nothing => .nothing
  | .one schema => .one schema.ofValue
  | .fields fields => .fields (slotsOfValue fields)

end

end Schema

end RemoteCall
