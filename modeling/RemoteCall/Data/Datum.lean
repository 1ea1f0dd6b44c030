import RemoteCall.Data.Value
import RemoteCall.Data.Mismatch
import RemoteCall.Bytes

/-!
# Data

A `Datum` is what an application offers for writing: richer than a `Value`, it
keeps records apart from maps, 32-bit numbers from 64-bit ones, byte strings
from texts, and it may refuse to be written at all.  `Datum.toValue` brings it
into the neutral form, which not every datum has: a key has to be a text or
something with an evident text, and an integer has to fit 64 bits.
-/

namespace RemoteCall

/-- What an application offers for writing. -/
inductive Datum where
  | unit
  | none
  | some (content : Datum)
  | bool (b : Bool)
  | integer (n : Integer)
  /-- An integer of a 128-bit type. -/
  | wide (n : Int)
  | double (x : Double)
  | single (x : Single)
  | char (c : Char)
  | string (text : String)
  | bytes (octets : Bytes)
  | sequence (items : List Datum)
  | map (entries : List (Datum × Datum))
  /-- A record with named fields, in declared order. -/
  | record (fields : List (String × Datum))
  /-- A record of a single unnamed field, as good as its content. -/
  | wrapped (content : Datum)
  /-- A record without fields. -/
  | unitRecord
  /-- A variant of a choice, by its name alone. -/
  | unitVariant (name : String)
  /-- A variant of a choice, with its content. -/
  | variant (name : String) (content : Datum)
  /-- A value that is neutral already. -/
  | value (v : Value)
  /-- A datum that cannot be written, and why. -/
  | refuse (message : String)

/-- Why a datum cannot be written. -/
inductive Refusal where
  | keyNotText
  | keyNotFinite
  | numberOutOfRange
  | refused (message : String)
  deriving DecidableEq, Repr

/-- The text of a refusal. -/
def Refusal.message : Refusal → String
  | .keyNotText => "key must be a string"
  | .keyNotFinite => "float key must be finite (got NaN or +/-inf)"
  | .numberOutOfRange => "number out of range"
  | .refused message => message

namespace Datum

instance : Inhabited Datum :=
  ⟨unit⟩

/-- The key that a floating-point number makes. -/
def floatKey {F : FloatFormat} (x : Floating F) : Except Refusal String :=
  if x.IsFinite then .ok (Wording.jsonFloat.write x) else .error .keyNotFinite

/-- The text of a datum that stands as a key where keys are texts. -/
def keyText : Datum → Except Refusal String
  | bool true => .ok "true"
  | bool false => .ok "false"
  | integer n => .ok (Decimal.intText n.val)
  | wide n => .ok (Decimal.intText n)
  | double x => floatKey x
  | single x => floatKey x
  | char c => .ok (String.singleton c)
  | string text => .ok text
  | wrapped content => content.keyText
  | unitVariant name => .ok name
  | value (.bool true) => .ok "true"
  | value (.bool false) => .ok "false"
  | value (.integer n) => .ok (Decimal.intText n.val)
  | value (.float x _) => floatKey x
  | value (.string text) => .ok text
  | refuse message => .error (.refused message)
  | _ => .error .keyNotText

/-- An octet as a value. -/
def octetValue (byte : UInt8) : Value :=
  .integer ⟨byte.toNat, by omega, by have := byte.toNat_lt; omega⟩

mutual

/-- The neutral form of a datum. -/
def toValue : Datum → Except Refusal Value
  | unit | none | unitRecord => .ok .null
  | some content | wrapped content => content.toValue
  | bool b => .ok (.bool b)
  | integer n => .ok (.integer n)
  | wide n =>
    match Integer.ofInt? n with
    | .some n => .ok (.integer n)
    | .none => .error .numberOutOfRange
  | double x => .ok (.ofDouble x)
  | single x => .ok (.ofDouble x.convert)
  | char c => .ok (.string (String.singleton c))
  | string text => .ok (.string text)
  | bytes octets => .ok (.array (octets.map octetValue))
  | sequence items => do .ok (.array (← itemsToValues [] items))
  | map entries => do .ok (.ofMembers (← entriesToMembers [] entries))
  | record fields => do .ok (.ofMembers (← fieldsToMembers [] fields))
  | unitVariant name => .ok (.string name)
  | variant name content => do .ok (.object [(name, ← content.toValue)])
  | value v => .ok v
  | refuse message => .error (.refused message)

/-- The neutral forms of data, behind those already `done`, latest first. -/
def itemsToValues (done : List Value) : List Datum → Except Refusal (List Value)
  | [] => .ok done.reverse
  | item :: rest => do itemsToValues ((← item.toValue) :: done) rest

/-- The members that entries make, behind those already `done`, latest first. -/
def entriesToMembers (done : List (String × Value)) :
    List (Datum × Datum) → Except Refusal (List (String × Value))
  | [] => .ok done.reverse
  | (key, content) :: rest => do
    let name ← key.keyText
    entriesToMembers ((name, ← content.toValue) :: done) rest

/-- The members that fields make, behind those already `done`, latest first. -/
def fieldsToMembers (done : List (String × Value)) :
    List (String × Datum) → Except Refusal (List (String × Value))
  | [] => .ok done.reverse
  | (name, content) :: rest => do fieldsToMembers ((name, ← content.toValue) :: done) rest

end

end Datum

end RemoteCall
