import RemoteCall.Data.Datum
import RemoteCall.Proofs.Data.Value

/-!
# Portable data

A portable datum is one that every format writes as it writes a value: it holds
no byte strings, no numbers of 128 bits, no floating-point numbers outside of
values and no records without fields, and its keys are texts or characters.

That value is `Datum.asWritten`.  Its members stand in the order of writing, and
a key may occur twice, so it need not be the neutral form, but its normal form is.
-/

namespace RemoteCall.Datum

/-- The text of a key that every format writes as a text. -/
def textKey? : Datum → Option String
  | char c => .some (String.singleton c)
  | string text => .some text
  | _ => .none

/-- Whether every format writes the datum as it writes a value. -/
inductive Portable : Datum → Prop where
  | unit : Portable unit
  | none : Portable none
  | some {content : Datum} : Portable content → Portable (some content)
  | bool (b : Bool) : Portable (bool b)
  | integer (n : Integer) : Portable (integer n)
  | char (c : Char) : Portable (char c)
  | string (text : String) : Portable (string text)
  | sequence {items : List Datum} : (∀ item ∈ items, Portable item) → Portable (sequence items)
  | map {entries : List (Datum × Datum)} :
      (∀ entry ∈ entries, entry.1.textKey?.isSome) → (∀ entry ∈ entries, Portable entry.2) →
        Portable (map entries)
  | record {fields : List (String × Datum)} :
      (∀ field ∈ fields, Portable field.2) → Portable (record fields)
  | wrapped {content : Datum} : Portable content → Portable (wrapped content)
  | unitVariant (name : String) : Portable (unitVariant name)
  | variant (name : String) {content : Datum} :
      Portable content → Portable (variant name content)
  | value {v : Value} : v.Ordered → Portable (value v)

mutual

/-- The value as which a portable datum is written. -/
def asWritten : Datum → Value
  | bool b => .bool b
  | integer n => .integer n
  | char c => .string (String.singleton c)
  | string text | unitVariant text => .string text
  | some content | wrapped content => content.asWritten
  | sequence items => .array (itemsAsWritten items)
  | map entries => .object (entriesAsWritten entries)
  | record fields => .object (fieldsAsWritten fields)
  | variant name content => .object [(name, content.asWritten)]
  | value v => v
  | _ => .null

/-- The values as which items are written. -/
def itemsAsWritten : List Datum → List Value
  | [] => []
  | item :: rest => item.asWritten :: itemsAsWritten rest

/-- The members as which entries are written. -/
def entriesAsWritten : List (Datum × Datum) → List (String × Value)
  | [] => []
  | (key, content) :: rest =>
    (key.textKey?.getD "", content.asWritten) :: entriesAsWritten rest

/-- The members as which fields are written. -/
def fieldsAsWritten : List (String × Datum) → List (String × Value)
  | [] => []
  | (name, content) :: rest => (name, content.asWritten) :: fieldsAsWritten rest

end

theorem itemsAsWritten_eq_map (items : List Datum) :
    itemsAsWritten items = items.map asWritten := by
  induction items with
  | nil => rfl
  | cons item rest ih => rw [itemsAsWritten, ih, List.map_cons]

theorem entriesAsWritten_eq_map (entries : List (Datum × Datum)) :
    entriesAsWritten entries
      = entries.map fun entry => (entry.1.textKey?.getD "", entry.2.asWritten) := by
  induction entries with
  | nil => rfl
  | cons entry rest ih => rw [entriesAsWritten, ih, List.map_cons]

theorem fieldsAsWritten_eq_map (fields : List (String × Datum)) :
    fieldsAsWritten fields = fields.map fun field => (field.1, field.2.asWritten) := by
  induction fields with
  | nil => rfl
  | cons field rest ih => rw [fieldsAsWritten, ih, List.map_cons]

/-! ## The neutral form -/

theorem keyText_of_textKey {key : Datum} (isText : key.textKey?.isSome) :
    key.keyText = .ok (key.textKey?.getD "") := by
  cases key with
  | char | string => rfl
  | _ => cases isText

theorem itemsToValues_eq {items : List Datum}
    (each : ∀ item ∈ items, item.toValue = .ok item.asWritten.normal) (done : List Value) :
    itemsToValues done items
      = .ok (done.reverse ++ (itemsAsWritten items).map Value.normal) := by
  induction items generalizing done with
  | nil => simp [itemsToValues, itemsAsWritten]
  | cons item rest ih =>
      have first : item.toValue = .ok item.asWritten.normal := each item List.mem_cons_self
      have others := ih (fun other mem => each other (List.mem_cons_of_mem _ mem))
        (item.asWritten.normal :: done)
      simp only [itemsToValues, first, itemsAsWritten, List.map_cons]
      exact others.trans (by simp)

theorem fieldsToMembers_eq {fields : List (String × Datum)}
    (each : ∀ field ∈ fields, field.2.toValue = .ok field.2.asWritten.normal)
    (done : List (String × Value)) :
    fieldsToMembers done fields
      = .ok (done.reverse ++
          (fieldsAsWritten fields).map fun member => (member.1, member.2.normal)) := by
  induction fields generalizing done with
  | nil => simp [fieldsToMembers, fieldsAsWritten]
  | cons field rest ih =>
      rcases field with ⟨name, content⟩
      have first : content.toValue = .ok content.asWritten.normal :=
        each (name, content) List.mem_cons_self
      have others := ih (fun other mem => each other (List.mem_cons_of_mem _ mem))
        ((name, content.asWritten.normal) :: done)
      simp only [fieldsToMembers, first, fieldsAsWritten, List.map_cons]
      exact others.trans (by simp)

theorem entriesToMembers_eq {entries : List (Datum × Datum)}
    (keys : ∀ entry ∈ entries, entry.1.textKey?.isSome)
    (each : ∀ entry ∈ entries, entry.2.toValue = .ok entry.2.asWritten.normal)
    (done : List (String × Value)) :
    entriesToMembers done entries
      = .ok (done.reverse ++
          (entriesAsWritten entries).map fun member => (member.1, member.2.normal)) := by
  induction entries generalizing done with
  | nil => simp [entriesToMembers, entriesAsWritten]
  | cons entry rest ih =>
      rcases entry with ⟨key, content⟩
      have name : key.keyText = .ok (key.textKey?.getD "") :=
        keyText_of_textKey (keys (key, content) List.mem_cons_self)
      have first : content.toValue = .ok content.asWritten.normal :=
        each (key, content) List.mem_cons_self
      have others := ih (fun other mem => keys other (List.mem_cons_of_mem _ mem))
        (fun other mem => each other (List.mem_cons_of_mem _ mem))
        ((key.textKey?.getD "", content.asWritten.normal) :: done)
      simp only [entriesToMembers, name, first, entriesAsWritten, List.map_cons]
      exact others.trans (by simp)

/-- The neutral form of a portable datum is the normal form of what is written. -/
theorem Portable.toValue_eq {d : Datum} (portable : d.Portable) :
    d.toValue = .ok d.asWritten.normal := by
  induction portable with
  | unit | none | bool | integer | char | string | unitVariant => rfl
  | some _ ih => rw [toValue, ih, asWritten]
  | wrapped _ ih => rw [toValue, ih, asWritten]
  | sequence _ ih =>
      rw [toValue, itemsToValues_eq ih []]
      simp [asWritten, Value.normal_array]
      rfl
  | map keys _ ih =>
      rw [toValue, entriesToMembers_eq keys ih []]
      rw [asWritten, Value.normal_object]
      rfl
  | record _ ih =>
      rw [toValue, fieldsToMembers_eq ih []]
      rw [asWritten, Value.normal_object]
      rfl
  | variant name _ ih =>
      rw [toValue, ih, asWritten, Value.normal_object]
      rw [Value.ofMembers_of_ascending (by simp)]
      rfl
  | value ordered => rw [toValue, asWritten, Value.normal_of_ordered ordered]

end RemoteCall.Datum
