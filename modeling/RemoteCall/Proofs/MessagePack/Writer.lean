import RemoteCall.MessagePack.Writer
import RemoteCall.Proofs.Data.Portable

/-!
# What the MessagePack writer writes

The writer gathers its output back to front.  `packing` is the same octets front
to back, by recursion on the value, and the writer puts nothing else into the
buffer, be it for a value or for a portable datum.
-/

namespace RemoteCall.MessagePack

/-! ## The buffer -/

theorem store_append (marker : UInt8) (width n : Nat) (out : Bytes) :
    store marker width n out = store marker width n [] ++ out := by
  simp [store, List.reverseAux_eq]

theorem putNatural_append (n : Nat) (out : Bytes) : putNatural n out = putNatural n [] ++ out := by
  unfold putNatural
  split
  · rfl
  repeat
    split
    · exact store_append _ _ _ out
  exact store_append _ _ _ out

theorem putInteger_append (n : Int) (out : Bytes) : putInteger n out = putInteger n [] ++ out := by
  unfold putInteger
  split
  · exact putNatural_append n.toNat out
  split
  · rfl
  repeat
    split
    · exact store_append _ _ _ out
  exact store_append _ _ _ out

theorem putTextLength_append (n : Nat) (out : Bytes) :
    putTextLength n out = putTextLength n [] ++ out := by
  unfold putTextLength
  split
  · rfl
  repeat
    split
    · exact store_append _ _ _ out
  exact store_append _ _ _ out

theorem putText_append (chars : String) (out : Bytes) :
    putText chars out = putText chars [] ++ out := by
  simp only [putText, List.reverseAux_eq]
  rw [putTextLength_append, List.append_assoc]

theorem putArrayCount_append (n : Nat) (out : Bytes) :
    putArrayCount n out = putArrayCount n [] ++ out := by
  unfold putArrayCount
  split
  · rfl
  repeat
    split
    · exact store_append _ _ _ out
  exact store_append _ _ _ out

theorem putMapCount_append (n : Nat) (out : Bytes) :
    putMapCount n out = putMapCount n [] ++ out := by
  unfold putMapCount
  split
  · rfl
  repeat
    split
    · exact store_append _ _ _ out
  exact store_append _ _ _ out

/-! ## Packing -/

mutual

/-- The octets of a value. -/
def packing : Value → Bytes
  | .null => [0xc0]
  | .bool false => [0xc2]
  | .bool true => [0xc3]
  | .integer n => (putInteger n.val []).reverse
  | .float x _ => (putDouble x []).reverse
  | .string chars => (putText chars []).reverse
  | .array items => (putArrayCount items.length []).reverse ++ packItems items
  | .object members => (putMapCount members.length []).reverse ++ packMembers members

/-- The octets of items. -/
def packItems : List Value → Bytes
  | [] => []
  | item :: rest => packing item ++ packItems rest

/-- The octets of members. -/
def packMembers : List (String × Value) → Bytes
  | [] => []
  | (name, v) :: rest => (putText name []).reverse ++ (packing v ++ packMembers rest)

end

theorem putItems_eq {items : List Value}
    (each : ∀ item ∈ items, ∀ out, putValue item out = (packing item).reverse ++ out)
    (out : Bytes) : putItems items out = (packItems items).reverse ++ out := by
  induction items generalizing out with
  | nil => rfl
  | cons item rest ih =>
      have first := each item List.mem_cons_self
      have others := ih fun other mem => each other (List.mem_cons_of_mem _ mem)
      rw [putItems, others, first, packItems]
      simp

theorem putMembers_eq {members : List (String × Value)}
    (each : ∀ member ∈ members, ∀ out,
      putValue member.2 out = (packing member.2).reverse ++ out)
    (out : Bytes) : putMembers members out = (packMembers members).reverse ++ out := by
  induction members generalizing out with
  | nil => rfl
  | cons member rest ih =>
      rcases member with ⟨name, v⟩
      have first : ∀ out, putValue v out = (packing v).reverse ++ out :=
        each (name, v) List.mem_cons_self
      have others := ih fun other mem => each other (List.mem_cons_of_mem _ mem)
      rw [putMembers, others, first, putText_append, packMembers]
      simp

/-- Writing a value puts its packing into the buffer, latest octet first. -/
theorem putValue_eq (v : Value) (out : Bytes) : putValue v out = (packing v).reverse ++ out := by
  induction v using Value.inductionOn generalizing out with
  | null => rfl
  | bool b => cases b <;> rfl
  | integer n =>
      rw [putValue, putInteger_append, packing, List.reverse_reverse]
  | float x finite =>
      rw [putValue, packing, List.reverse_reverse]
      exact store_append _ _ _ out
  | string chars =>
      rw [putValue, putText_append, packing, List.reverse_reverse]
  | array items ih =>
      rw [putValue, putItems_eq ih, putArrayCount_append, packing]
      simp
  | object members ih =>
      rw [putValue, putMembers_eq ih, putMapCount_append, packing]
      simp

/-! ## Data -/

open Datum

theorem putData_eq {items : List Datum}
    (each : ∀ item ∈ items, ∀ out, putDatum item out = .ok (putValue item.asWritten out))
    (out : Bytes) : putData items out = .ok (putItems (itemsAsWritten items) out) := by
  induction items generalizing out with
  | nil => rfl
  | cons item rest ih =>
      have first := each item List.mem_cons_self
      have others := ih fun other mem => each other (List.mem_cons_of_mem _ mem)
      rw [putData, first, itemsAsWritten, putItems]
      exact others _

theorem putFields_eq {fields : List (String × Datum)}
    (each : ∀ field ∈ fields, ∀ out, putDatum field.2 out = .ok (putValue field.2.asWritten out))
    (out : Bytes) : putFields fields out = .ok (putMembers (fieldsAsWritten fields) out) := by
  induction fields generalizing out with
  | nil => rfl
  | cons field rest ih =>
      rcases field with ⟨name, content⟩
      have first : ∀ out, putDatum content out = .ok (putValue content.asWritten out) :=
        each (name, content) List.mem_cons_self
      have others := ih fun other mem => each other (List.mem_cons_of_mem _ mem)
      rw [putFields, first, fieldsAsWritten, putMembers]
      exact others _

/-- A key that is a text for every format is written as that text. -/
theorem putDatum_of_textKey {key : Datum} (isText : key.textKey?.isSome) (out : Bytes) :
    putDatum key out = .ok (putText (key.textKey?.getD "") out) := by
  cases key with
  | char | string => rfl
  | _ => cases isText

theorem putEntries_eq {entries : List (Datum × Datum)}
    (keys : ∀ entry ∈ entries, entry.1.textKey?.isSome)
    (each : ∀ entry ∈ entries, ∀ out, putDatum entry.2 out = .ok (putValue entry.2.asWritten out))
    (out : Bytes) : putEntries entries out = .ok (putMembers (entriesAsWritten entries) out) := by
  induction entries generalizing out with
  | nil => rfl
  | cons entry rest ih =>
      rcases entry with ⟨key, content⟩
      have name := putDatum_of_textKey (keys (key, content) List.mem_cons_self) out
      have first : ∀ out, putDatum content out = .ok (putValue content.asWritten out) :=
        each (key, content) List.mem_cons_self
      have others := ih (fun other mem => keys other (List.mem_cons_of_mem _ mem))
        fun other mem => each other (List.mem_cons_of_mem _ mem)
      rw [putEntries, entriesAsWritten, putMembers]
      simp only [name, bind, Except.bind, first]
      exact others _

/-- A portable datum is written like the value as which it is written. -/
theorem putDatum_eq {d : Datum} (portable : d.Portable) (out : Bytes) :
    putDatum d out = .ok (putValue d.asWritten out) := by
  induction portable generalizing out with
  | unit | none | integer | char | string | unitVariant | value => rfl
  | bool b => cases b <;> rfl
  | some _ ih => rw [putDatum, ih, asWritten]
  | wrapped _ ih => rw [putDatum, ih, asWritten]
  | sequence _ ih =>
      rw [putDatum, putData_eq ih, asWritten, putValue, itemsAsWritten_eq_map, List.length_map]
  | map keys _ ih =>
      rw [putDatum, putEntries_eq keys ih, asWritten, putValue, entriesAsWritten_eq_map,
        List.length_map]
  | record _ ih =>
      rw [putDatum, putFields_eq ih, asWritten, putValue, fieldsAsWritten_eq_map, List.length_map]
  | variant name _ ih =>
      rw [putDatum, ih, asWritten]
      rfl

/-- The octets of a portable datum are those of the value as which it is written. -/
theorem writeDatum_eq {d : Datum} (portable : d.Portable) :
    writeDatum d = .ok (packing d.asWritten) := by
  rw [writeDatum, putDatum_eq portable, putValue_eq]
  simp

/-- A record of contents that can be written is written as a map. -/
theorem writeDatum_record {fields : List (String × Datum)}
    (each : ∀ field ∈ fields, ∀ out, putDatum field.2 out = .ok (putValue field.2.asWritten out)) :
    writeDatum (.record fields) = .ok (packing (.object (fieldsAsWritten fields))) := by
  have put : putDatum (.record fields) [] =
      .ok (putValue (.object (fieldsAsWritten fields)) []) := by
    rw [putDatum, putFields_eq each, putValue, fieldsAsWritten_eq_map, List.length_map]
  rw [writeDatum, put, putValue_eq]
  simp

end RemoteCall.MessagePack
