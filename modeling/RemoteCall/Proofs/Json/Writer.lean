import RemoteCall.Json.Writer
import RemoteCall.Proofs.Data.Portable

/-!
# What the JSON writer writes

The writer gathers its output back to front.  `spelling` is the same text front
to back, by recursion on the value, and the writer puts nothing else into the
buffer, be it for a value or for a portable datum.
-/

namespace RemoteCall.Json

open Ascii

/-! ## Spelling -/

/-- The comma in front of an item, if another item came before. -/
def separator (after : Bool) : Bytes :=
  if after then [comma] else []

mutual

/-- The text of a value. -/
def spelling : Value → Bytes
  | .null => octets "null"
  | .bool true => octets "true"
  | .bool false => octets "false"
  | .integer n => octets (Decimal.intText n.val)
  | .float x _ => floatOctets x
  | .string chars => literal chars
  | .array items => openBracket :: (spellItems false items ++ [closeBracket])
  | .object members => openBrace :: (spellMembers false members ++ [closeBrace])

/-- The text of items. -/
def spellItems (after : Bool) : List Value → Bytes
  | [] => []
  | item :: rest => separator after ++ spelling item ++ spellItems true rest

/-- The text of members. -/
def spellMembers (after : Bool) : List (String × Value) → Bytes
  | [] => []
  | (name, v) :: rest =>
    separator after ++ literal name ++ colon :: (spelling v ++ spellMembers true rest)

end

/-! ## The buffer -/

theorem push_eq (octets out : Bytes) : push octets out = octets.reverse ++ out :=
  List.reverseAux_eq

theorem separate_eq (after : Bool) (out : Bytes) :
    separate after out = (separator after).reverse ++ out := by
  cases after <;> rfl

theorem putItems_eq {items : List Value}
    (each : ∀ item ∈ items, ∀ out, putValue item out = (spelling item).reverse ++ out)
    (after : Bool) (out : Bytes) :
    putItems after items out = (spellItems after items).reverse ++ out := by
  induction items generalizing after out with
  | nil => rfl
  | cons item rest ih =>
      have first := each item List.mem_cons_self
      have others := ih fun other mem => each other (List.mem_cons_of_mem _ mem)
      rw [putItems, others, first, separate_eq, spellItems]
      simp

theorem putMembers_eq {members : List (String × Value)}
    (each : ∀ member ∈ members, ∀ out,
      putValue member.2 out = (spelling member.2).reverse ++ out)
    (after : Bool) (out : Bytes) :
    putMembers after members out = (spellMembers after members).reverse ++ out := by
  induction members generalizing after out with
  | nil => rfl
  | cons member rest ih =>
      rcases member with ⟨name, v⟩
      have first : ∀ out, putValue v out = (spelling v).reverse ++ out :=
        each (name, v) List.mem_cons_self
      have others := ih fun other mem => each other (List.mem_cons_of_mem _ mem)
      rw [putMembers, others, first, push_eq, separate_eq, spellMembers]
      simp

/-- Writing a value puts its spelling into the buffer, latest octet first. -/
theorem putValue_eq (v : Value) (out : Bytes) : putValue v out = (spelling v).reverse ++ out := by
  induction v using Value.inductionOn generalizing out with
  | null | integer | float | string => exact push_eq _ out
  | bool b => cases b <;> exact push_eq _ out
  | array items ih =>
      rw [putValue, putItems_eq ih, spelling]
      simp
  | object members ih =>
      rw [putValue, putMembers_eq ih, spelling]
      simp

theorem writeValue_eq (v : Value) : writeValue v = spelling v := by
  rw [writeValue, putValue_eq]
  simp

/-! ## Data -/

open Datum

theorem putData_eq {items : List Datum}
    (each : ∀ item ∈ items, ∀ out, putDatum item out = .ok (putValue item.asWritten out))
    (after : Bool) (out : Bytes) :
    putData after items out = .ok (putItems after (itemsAsWritten items) out) := by
  induction items generalizing after out with
  | nil => rfl
  | cons item rest ih =>
      have first := each item List.mem_cons_self
      have others := ih fun other mem => each other (List.mem_cons_of_mem _ mem)
      rw [putData, first, itemsAsWritten, putItems]
      exact others _ _

theorem putFields_eq {fields : List (String × Datum)}
    (each : ∀ field ∈ fields, ∀ out, putDatum field.2 out = .ok (putValue field.2.asWritten out))
    (after : Bool) (out : Bytes) :
    putFields after fields out = .ok (putMembers after (fieldsAsWritten fields) out) := by
  induction fields generalizing after out with
  | nil => rfl
  | cons field rest ih =>
      rcases field with ⟨name, content⟩
      have first : ∀ out, putDatum content out = .ok (putValue content.asWritten out) :=
        each (name, content) List.mem_cons_self
      have others := ih fun other mem => each other (List.mem_cons_of_mem _ mem)
      rw [putFields, first, fieldsAsWritten, putMembers]
      exact others _ _

theorem putEntries_eq {entries : List (Datum × Datum)}
    (keys : ∀ entry ∈ entries, entry.1.textKey?.isSome)
    (each : ∀ entry ∈ entries, ∀ out, putDatum entry.2 out = .ok (putValue entry.2.asWritten out))
    (after : Bool) (out : Bytes) :
    putEntries after entries out = .ok (putMembers after (entriesAsWritten entries) out) := by
  induction entries generalizing after out with
  | nil => rfl
  | cons entry rest ih =>
      rcases entry with ⟨key, content⟩
      have name : key.keyText = .ok (key.textKey?.getD "") :=
        keyText_of_textKey (keys (key, content) List.mem_cons_self)
      have first : ∀ out, putDatum content out = .ok (putValue content.asWritten out) :=
        each (key, content) List.mem_cons_self
      have others := ih (fun other mem => keys other (List.mem_cons_of_mem _ mem))
        fun other mem => each other (List.mem_cons_of_mem _ mem)
      rw [putEntries, name, entriesAsWritten, putMembers]
      simp only [bind, Except.bind, first]
      exact others _ _

/-- A portable datum is written like the value as which it is written. -/
theorem putDatum_eq {d : Datum} (portable : d.Portable) (out : Bytes) :
    putDatum d out = .ok (putValue d.asWritten out) := by
  induction portable generalizing out with
  | unit | none | integer | char | string | unitVariant | value => rfl
  | bool b => cases b <;> rfl
  | some _ ih => rw [putDatum, ih, asWritten]
  | wrapped _ ih => rw [putDatum, ih, asWritten]
  | sequence _ ih =>
      rw [putDatum, putData_eq ih, asWritten, putValue]
      rfl
  | map keys _ ih =>
      rw [putDatum, putEntries_eq keys ih, asWritten, putValue]
      rfl
  | record _ ih =>
      rw [putDatum, putFields_eq ih, asWritten, putValue]
      rfl
  | variant name _ ih =>
      rw [putDatum, ih, asWritten]
      rfl

/-- The text of a portable datum is that of the value as which it is written. -/
theorem writeDatum_eq {d : Datum} (portable : d.Portable) :
    writeDatum d = .ok (spelling d.asWritten) := by
  rw [writeDatum, putDatum_eq portable, ← writeValue_eq]
  rfl

/-- A record of contents that can be written is written as an object. -/
theorem writeDatum_record {fields : List (String × Datum)}
    (each : ∀ field ∈ fields, ∀ out, putDatum field.2 out = .ok (putValue field.2.asWritten out)) :
    writeDatum (.record fields) = .ok (spelling (.object (fieldsAsWritten fields))) := by
  rw [writeDatum, putDatum, putFields_eq each, ← writeValue_eq, writeValue, putValue]
  rfl

end RemoteCall.Json
