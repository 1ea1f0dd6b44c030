import RemoteCall.Envelope.Basic
import RemoteCall.MessagePack.Reader

/-!
# Reading records from MessagePack data

A record is a map from its fields, an array of them in declared order, or a
byte string that stands for the array of its octets.  Keys of the map are field
names, as texts or as byte strings, or the places of fields counted from zero.
What the fields are and what reading one does to the record under way is a
`Fields`; envelopes and the records of a schema are read through it alike.
-/

namespace RemoteCall.MessagePack

/-- The fields `ι` of a record that is read into a state `σ`. -/
structure Fields (ι σ : Type) where
  /-- What is expected where a record is due. -/
  expectation : String
  /-- The fields in declared order. -/
  order : List ι
  name : ι → String
  /-- Whether members that are no fields are refused. -/
  strict : Bool
  /-- Whether a field has been read. -/
  has : σ → ι → Bool
  /-- Reads a field. -/
  fill : ι → σ → Read σ

namespace Fields

variable {ι σ : Type} (F : Fields ι σ)

/-- The field of that name. -/
def named? (name : String) : Option ι :=
  F.order.find? fun field => F.name field = name

/-- The names of all fields. -/
def names : List String :=
  F.order.map F.name

/-- A key of the map: the field that it denotes, or none to pass over. -/
def key (room : Nat) : Read (Option ι) := fun s => do
  let (it, s) ← item s
  match it with
  | .unsigned n =>
    match F.order[n]? with
    | some field => .ok (some field, s)
    | none =>
      if F.strict then
        .error (.mismatch (.value (.integer n) s!"field index 0 <= i < {F.order.length}"))
      else .ok (none, s)
  | .text octets =>
    match Utf8.decode octets with
    | .ok chars =>
      match F.named? chars with
      | some field => .ok (some field, s)
      | none =>
        if F.strict then .error (.mismatch (.unknownField chars F.names)) else .ok (none, s)
    | .error fault => if F.strict then .error (.invalidText fault) else .ok (none, s)
  | .bytes octets =>
    match (Utf8.decode? octets).bind F.named? with
    | some field => .ok (some field, s)
    | none =>
      if F.strict then .error (.mismatch (.unknownField (Utf8.decodeLossy octets) F.names))
      else .ok (none, s)
  | it => mistyped room "field identifier" it

/-- So many entries of a map. -/
def named (room : Nat) : (count : Nat) → σ → Read σ
  | 0, state, s => .ok (state, s)
  | count + 1, state, s => do
    let (field?, s) ← F.key room s
    match field? with
    | none => do named room count state (← pass room s)
    | some field =>
      if F.has state field then .error (.mismatch (.duplicateField (F.name field)))
      else do
        let (state, s) ← F.fill field state s
        named room count state s

/-- So many items of an array, for the given fields. -/
def ordered : List ι → (count : Nat) → σ → Read σ
  | _, 0, state, s => .ok (state, s)
  | [], _ + 1, _, _ => .error (.wrongLength F.order.length)
  | field :: fields, count + 1, state, s => do
    let (state, s) ← F.fill field state s
    ordered fields count state s

/-- Octets for the given fields; those beyond the last field play no part. -/
def fromOctets : List ι → Bytes → σ → Except Error σ
  | field :: fields, octet :: octets, state => do
    let (state, _) ← F.fill field state [0xcc, octet]
    fromOctets fields octets state
  | _, _, state => .ok state

/-- A record, made by one of the two endings from the state after its fields:
`finishNamed` if they came with keys, `finishOrdered` if they came in order.
`room` is the depth left around the record; the fields know the depth left
inside it. -/
def record {α : Type} (room : Nat) (start : σ) (finishNamed finishOrdered : σ → Except Mismatch α) :
    Read α := fun s => do
  let (it, s) ← item s
  let finish (result : Except Mismatch α) (s : Bytes) : Except Error (α × Bytes) :=
    match result with
    | .ok v => .ok (v, s)
    | .error m => .error (.mismatch m)
  match it, room with
  | .map _, 0 | .array _, 0 => .error .tooDeep
  | .map count, room + 1 => do
    let (state, s) ← F.named room count start s
    finish (finishNamed state) s
  | .array count, _ + 1 => do
    if count ≤ F.order.length then
      let (state, s) ← F.ordered F.order count start s
      finish (finishOrdered state) s
    else
      let (_, _) ← F.ordered F.order F.order.length start s
      .error (.wrongLength F.order.length)
  | .bytes octets, _ => do
    let state ← F.fromOctets F.order octets start
    finish (finishOrdered state) s
  | it, room => mistyped room F.expectation it

end Fields

/-! ## Envelopes -/

section Envelopes

open Envelope

variable {α : Type}

/-- The members of an envelope, given the readers of its first and its other members. -/
def envelopeFields (layout : Layout α) (head : Read α) (other : Read Value) :
    Fields Member (Draft α) :=
  { expectation := layout.expectation
    order := [.head, .body, .id]
    name := layout.nameOf
    strict := false
    has := Draft.has
    fill := fun
      | .head, draft, s => do
        let (v, s) ← head s
        .ok ({ draft with head := some v }, s)
      | .body, draft, s => do
        let (v, s) ← other s
        .ok ({ draft with body := some v }, s)
      | .id, draft, s => do
        let (v, s) ← other s
        .ok ({ draft with id := some v }, s) }

/-- An envelope. -/
def envelope (layout : Layout α) (head : Read α) (other : Read Value) : Read (Envelope α) :=
  (envelopeFields layout head other).record deepest {} (·.finishNamed layout)
    (·.finishSequence layout)

/-- What `read` finds in front of the octets; what follows plays no part. -/
def front (read : Read α) (s : Bytes) : Except Error α :=
  (read s).map Prod.fst

/-- The call in front of the octets. -/
def readCall (s : Bytes) : Except Error Call :=
  front (envelope callLayout (text (deepest - 1)) (value (deepest - 1))) s

/-- The answer in front of the octets. -/
def readAnswer (s : Bytes) : Except Error Answer :=
  front (envelope answerLayout (value (deepest - 1)) (value (deepest - 1))) s

/-- The value in front of the octets. -/
def readValue (s : Bytes) : Except Error Value :=
  front (value deepest) s

end Envelopes

end RemoteCall.MessagePack
