import RemoteCall.Data.Datum
import RemoteCall.Proofs.Data.Value

/-!
# Output

A writer gathers its output in a buffer, latest octet first, and never takes back
what is in it.  What it appends can so be described without regard to what was
there before, and the parts of a datum by what is written for each.
-/

namespace RemoteCall

/-! ## Buffers -/

/-- Whether a writer, if it writes at all, appends octets of that kind to its buffer. -/
def Appends (kind : Bytes → Prop) (put : Bytes → Except Refusal Bytes) : Prop :=
  ∀ out after, put out = .ok after → ∃ octets, after = octets.reverse ++ out ∧ kind octets

namespace Appends

variable {kind first second : Bytes → Prop}

theorem ok (octets : Bytes) {put : Bytes → Bytes} (same : ∀ out, put out = octets.reverse ++ out)
    (isKind : kind octets) : Appends kind fun out => .ok (put out) := by
  intro out after written
  obtain rfl := Except.ok.inj written
  exact ⟨octets, same out, isKind⟩

theorem error (reason : Refusal) : Appends kind fun _ => .error reason := by
  rintro out after ⟨⟩

theorem mono {put : Bytes → Except Refusal Bytes} (appends : Appends first put)
    (implies : ∀ octets, first octets → kind octets) : Appends kind put := by
  intro out after written
  obtain ⟨octets, same, isFirst⟩ := appends out after written
  exact ⟨octets, same, implies octets isFirst⟩

/-- One writer after another. -/
theorem bind {put next : Bytes → Except Refusal Bytes} (one : Appends first put)
    (other : Appends second next)
    (join : ∀ front back, first front → second back → kind (front ++ back)) :
    Appends kind fun out => put out >>= next := by
  intro out after written
  cases begun : put out with
  | error =>
      simp only [begun, Bind.bind, Except.bind] at written
      cases written
  | ok middle =>
      simp only [begun, Bind.bind, Except.bind] at written
      obtain ⟨front, rfl, isFirst⟩ := one out middle begun
      obtain ⟨back, rfl, isSecond⟩ := other _ after written
      exact ⟨front ++ back, by simp, join front back isFirst isSecond⟩

/-- A writer after octets that are always the same. -/
theorem behind (front : Bytes) {put : Bytes → Bytes} {next : Bytes → Except Refusal Bytes}
    (same : ∀ out, put out = front.reverse ++ out) (other : Appends second next)
    (join : ∀ back, second back → kind (front ++ back)) :
    Appends kind fun out => next (put out) := by
  intro out after written
  obtain ⟨back, rfl, isSecond⟩ := other _ after written
  exact ⟨front ++ back, by simp [same], join back isSecond⟩

/-- A writer and then octets that are always the same. -/
theorem before {back : Bytes} {put : Bytes → Except Refusal Bytes} {next : Bytes → Bytes}
    (one : Appends first put) (same : ∀ out, next out = back.reverse ++ out)
    (join : ∀ front, first front → kind (front ++ back)) :
    Appends kind fun out => put out >>= fun filled => .ok (next filled) := by
  have always : Appends (· = back) fun filled => .ok (next filled) := .ok back same rfl
  exact one.bind always fun front _ isFirst isBack => isBack ▸ join front isFirst

theorem nothing (isKind : kind []) : Appends kind .ok :=
  .ok [] (fun _ => rfl) isKind

end Appends

/-! ## Short data -/

/-- Whether all texts, byte strings, sequences, maps and records are short enough for a
length of four octets. -/
inductive Datum.Short : Datum → Prop where
  | unit : Short unit
  | none : Short none
  | some {content : Datum} : Short content → Short (some content)
  | bool (b : Bool) : Short (bool b)
  | integer (n : Integer) : Short (integer n)
  | wide (n : Int) : Short (wide n)
  | double (x : Double) : Short (double x)
  | single (x : Single) : Short (single x)
  | char (c : Char) : Short (char c)
  | string {text : String} : (Utf8.encode text).length < Value.lengthBound → Short (string text)
  | bytes {octets : Bytes} : octets.length < Value.lengthBound → Short (bytes octets)
  | sequence {items : List Datum} :
      items.length < Value.lengthBound → (∀ item ∈ items, Short item) → Short (sequence items)
  | map {entries : List (Datum × Datum)} :
      entries.length < Value.lengthBound → (∀ entry ∈ entries, Short entry.1) →
        (∀ entry ∈ entries, Short entry.2) → Short (map entries)
  | record {fields : List (String × Datum)} :
      fields.length < Value.lengthBound →
        (∀ field ∈ fields, (Utf8.encode field.1).length < Value.lengthBound) →
          (∀ field ∈ fields, Short field.2) → Short (record fields)
  | wrapped {content : Datum} : Short content → Short (wrapped content)
  | unitRecord : Short unitRecord
  | unitVariant {name : String} :
      (Utf8.encode name).length < Value.lengthBound → Short (unitVariant name)
  | variant {name : String} {content : Datum} :
      (Utf8.encode name).length < Value.lengthBound → Short content → Short (variant name content)
  | value {v : Value} : v.Short → Short (value v)
  | refuse (message : String) : Short (refuse message)

end RemoteCall
