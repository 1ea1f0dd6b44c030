import RemoteCall.Data.Value
import RemoteCall.Decimal.Notation
import RemoteCall.Text.Quoted

/-!
# Mismatches

A mismatch says why well-formed data is not data of the wanted type.  Formats
differ in how they call an absent value and how they write a floating-point
number; a `Wording` holds both choices.
-/

namespace RemoteCall

/-- What was met in place of what was wanted. -/
inductive Found where
  | unit
  | bool (b : Bool)
  | integer (n : Int)
  | float (x : Double)
  | string (text : String)
  | bytes
  | sequence
  | map
  | newtypeStruct
  | unitVariant

/-- Why data is not of the wanted type. -/
inductive Mismatch where
  /-- Data of another kind. -/
  | type (found : Found) (expected : String)
  /-- Data of the right kind that the type does not hold. -/
  | value (found : Found) (expected : String)
  /-- A sequence with the wrong number of items. -/
  | length (count : Nat) (expected : String)
  | missingField (name : String)
  | duplicateField (name : String)
  | unknownField (name : String) (known : List String)
  | unknownVariant (name : String) (known : List String)

namespace Value

/-- How a mismatch calls a value. -/
def found : Value → Found
  | null => .unit
  | bool b => .bool b
  | integer n => .integer n.val
  | float x _ => .float x
  | string text => .string text
  | array _ => .sequence
  | object _ => .map

/-- A value of another kind than expected. -/
def mistyped {α : Type} (v : Value) (expected : String) : Except Mismatch α :=
  .error (.type v.found expected)

end Value

/-- What a format calls its own. -/
structure Wording where
  /-- The name of the absent value. -/
  unit : String
  /-- The layout of floating-point numbers. -/
  float : Decimal.Notation

namespace Wording

/-- The notation of floating-point numbers in JSON texts: an exponent below
`10^-5` and from `10^16` on, and null for what is not finite. -/
def jsonFloat : Decimal.Notation :=
  { positional := fun power => -5 ≤ power && power ≤ 15
    tie := .toEven
    nan := "null"
    infinity := "null" }

/-- The notation of floating-point numbers in other messages: never an exponent. -/
def plainFloat : Decimal.Notation :=
  { positional := fun _ => true
    tie := .up
    nan := "NaN"
    infinity := "inf" }

/-- Messages about JSON data and about values. -/
def json : Wording := ⟨"null", jsonFloat⟩

/-- Messages about MessagePack data. -/
def messagePack : Wording := ⟨"unit value", plainFloat⟩

end Wording

/-- A word between grave accents. -/
def marked (word : String) : String :=
  "`" ++ word ++ "`"

/-- What was met, in the words of a format. -/
def Found.text (wording : Wording) : Found → String
  | .unit => wording.unit
  | .bool true => "boolean `true`"
  | .bool false => "boolean `false`"
  | .integer n => s!"integer {marked (Decimal.intText n)}"
  | .float x => s!"floating point {marked (wording.float.write x)}"
  | .string text => s!"string {Text.quoted text}"
  | .bytes => "byte array"
  | .sequence => "sequence"
  | .map => "map"
  | .newtypeStruct => "newtype struct"
  | .unitVariant => "unit variant"

/-- The names that would have been known, as the end of a sentence; `nothing` says that there
are none. -/
def oneOf (nothing : String) : List String → String
  | [] => nothing
  | [a] => s!"expected {marked a}"
  | [a, b] => s!"expected {marked a} or {marked b}"
  | names => "expected one of " ++ ", ".intercalate (names.map marked)

/-- The text of a mismatch, in the words of a format. -/
def Mismatch.message (wording : Wording) : Mismatch → String
  | .type found expected => s!"invalid type: {found.text wording}, expected {expected}"
  | .value found expected => s!"invalid value: {found.text wording}, expected {expected}"
  | .length count expected => s!"invalid length {count}, expected {expected}"
  | .missingField name => s!"missing field {marked name}"
  | .duplicateField name => s!"duplicate field {marked name}"
  | .unknownField name known =>
    s!"unknown field {marked name}, " ++ oneOf "there are no fields" known
  | .unknownVariant name known =>
    s!"unknown variant {marked name}, " ++ oneOf "there are no variants" known

end RemoteCall
