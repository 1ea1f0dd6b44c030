import RemoteCall.Proofs.Codec.Answer
import RemoteCall.Proofs.Codec.Projection
import RemoteCall.Proofs.Json.Legibility

/-!
# Answers as the values of their bodies

A client reads the body of a response as an answer, takes the members as they come,
and then decides between a result and an error.  Both are settled by the value that
the body denotes: an error that is false, zero or empty is an error all the same, and
null is not a result, even where the client expects a type that null belongs to.
-/

namespace RemoteCall

/-! ## Answers -/

/-- The answer that a value is: an object, or an array of three items at most. -/
def Value.answer? : Value → Option Answer
  | .object members =>
    some ⟨(members.lookup "result").getD .null, (members.lookup "error").getD .null,
      (members.lookup "id").getD .null⟩
  | .array items =>
    if items.length ≤ 3 then
      some ⟨items[0]?.getD .null, items[1]?.getD .null, items[2]?.getD .null⟩
    else none
  | _ => none

theorem Envelope.answerLayout_ofValue? (v : Value) :
    answerLayout.ofValue? some v = v.answer? := by
  cases v with
  | object members =>
      simp only [Layout.ofValue?, Layout.assemble, Layout.nameOf, answerLayout, Value.answer?]
      cases members.lookup "result" <;> rfl
  | array items =>
      simp only [Layout.ofValue?, Layout.assemble, Member.place, answerLayout, Value.answer?]
      cases items[0]? <;> rfl
  | _ => rfl

/-! ## Verdicts -/

/-- What a client that reads results by `read` makes of a result and an error. -/
inductive Verdict {α : Type} (read : Value → Except Mismatch α) :
    Value → Value → Except RpcError α → Prop where
  | message (result : Value) (text : String) :
      Verdict read result (.string text) (.error (.remote text))
  /-- An error that is no text is told by its JSON. -/
  | other {result error : Value} {text : String} :
      error ≠ .null → (∀ message, error ≠ .string message) →
      WireFormat.json.write (.value error) = .ok (Utf8.encode text) →
      Verdict read result error (.error (.remote text))
  /-- Null is not even asked whether it can be read. -/
  | nothing : Verdict read .null .null (.error .nullResult)
  | reply {result : Value} {a : α} :
      result ≠ .null → read result = .ok a → Verdict read result .null (.ok a)
  | mistyped {result : Value} {mismatch : Mismatch} :
      result ≠ .null → read result = .error mismatch →
      Verdict read result .null (.error (.json (.data mismatch)))

namespace Verdict

variable {α : Type} {read : Value → Except Mismatch α}

/-- A success is a result that was read, without an error beside it. -/
theorem ok_iff {result error : Value} {a : α} :
    Verdict read result error (.ok a) ↔ error = .null ∧ result ≠ .null ∧ read result = .ok a := by
  constructor
  · rintro ⟨⟩
    next present wasRead => exact ⟨rfl, present, wasRead⟩
  · rintro ⟨rfl, present, wasRead⟩
    exact .reply present wasRead

theorem of_no_error (read : Value → Except Mismatch α) (result id : Value) :
    Verdict read result .null (Answer.outcome ⟨result, .null, id⟩ read) := by
  by_cases absent : result = .null
  · subst absent
    exact .nothing
  · have present : result.isNull = false := Value.isNull_eq_false_iff.2 absent
    cases wasRead : read result with
    | ok a =>
        have outcome : Answer.outcome ⟨result, .null, id⟩ read = .ok a := by
          simp [Answer.outcome, present, wasRead, Except.mapError]
        exact outcome ▸ .reply absent wasRead
    | error mismatch =>
        have outcome :
            Answer.outcome ⟨result, .null, id⟩ read = .error (.json (.data mismatch)) := by
          simp [Answer.outcome, present, wasRead, Except.mapError]
        exact outcome ▸ .mistyped absent wasRead

/-- The verdict of a client on an answer. -/
theorem of_answer (read : Value → Except Mismatch α) (answer : Answer) :
    Verdict read answer.head answer.body (answer.outcome read) := by
  rcases answer with ⟨result, error, id⟩
  have told (v : Value) :
      WireFormat.json.write (.value v) = .ok (Utf8.encode (Json.valueText v)) := by
    rw [Json.encode_valueText, ← Json.writeValue_eq]
    rfl
  cases error with
  | null => exact of_no_error read result id
  | string text => exact .message result text
  | _ => exact .other (by simp) (by simp) (told _)

end Verdict

namespace Format

/-- A body that denotes a value is read as the answer that this value is. -/
theorem readAnswer_toOption (format : Format) {body : Bytes} {v : Value}
    (denotes : format.wire.readValue body = .ok v)
    (once : ∀ name ∈ ["result", "error", "id"], (format.memberNames body).count name ≤ 1) :
    (format.wire.readAnswer body).toOption = v.answer? := by
  have named : ∀ member,
      (format.memberNames body).count (Envelope.answerLayout.nameOf member) ≤ 1 :=
    fun member => once _ (Envelope.answerLayout.nameOf_mem member)
  rw [← Envelope.answerLayout_ofValue?]
  have found := toOption_eq_some_iff.2 denotes
  cases format with
  | json =>
      simp only [wire, WireFormat.json, toOption_mapError] at found ⊢
      exact Json.readAnswer_toOption (toOption_eq_some_iff.1 found) named
  | messagePack =>
      simp only [wire, WireFormat.messagePack, toOption_mapError] at found ⊢
      exact MessagePack.readAnswer_toOption (toOption_eq_some_iff.1 found) named

theorem decodeAnswer_of_readAnswer {F : WireFormat} {body : Bytes} {answer : Answer}
    (readable : F.readAnswer body = .ok answer) {α : Type} (read : Value → Except Mismatch α) :
    decodeAnswer F read body = answer.outcome read := by
  simp only [decodeAnswer, readable, bind, Except.bind]

/-- The value of a response body settles what a client makes of it.  If the value is an
answer, there is a verdict on its result and its error; if not, the body is refused.
So a success is a result that is there, without an error. -/
theorem answers_settled_by_value (format : Format) {body : Bytes} {v : Value}
    (denotes : format.wire.readValue body = .ok v)
    (once : ∀ name ∈ ["result", "error", "id"], (format.memberNames body).count name ≤ 1) :
    (∀ answer, v.answer? = some answer → ∀ {α : Type} (read : Value → Except Mismatch α),
      Verdict read answer.head answer.body (decodeAnswer format.wire read body)) ∧
    (v.answer? = none → format.RefusesAnswer body) ∧
    ∀ {α : Type} (read : Value → Except Mismatch α) (a : α),
      decodeAnswer format.wire read body = .ok a →
        ∃ answer, v.answer? = some answer ∧
          answer.body = .null ∧ answer.head ≠ .null ∧ read answer.head = .ok a := by
  have settled := format.readAnswer_toOption denotes once
  have judged : ∀ answer, v.answer? = some answer →
      ∀ {α : Type} (read : Value → Except Mismatch α),
        Verdict read answer.head answer.body (decodeAnswer format.wire read body) := by
    intro answer isAnswer α read
    rw [isAnswer] at settled
    rw [decodeAnswer_of_readAnswer (toOption_eq_some_iff.1 settled)]
    exact .of_answer read answer
  have refused : v.answer? = none → format.RefusesAnswer body := by
    intro noAnswer
    rw [noAnswer] at settled
    obtain ⟨e, unreadable⟩ := toOption_eq_none_iff.1 settled
    apply format.refusesAnswer_of_ne_ok
    simp [unreadable]
  constructor
  · exact judged
  constructor
  · exact refused
  intro α read a success
  cases isAnswer : v.answer? with
  | none =>
      obtain ⟨e, -, refusal⟩ := refused isAnswer
      rw [refusal read] at success
      cases success
  | some answer =>
      have verdict := judged answer isAnswer read
      rw [success] at verdict
      exact ⟨answer, rfl, Verdict.ok_iff.1 verdict⟩

/-- An error that is false hides the result, whatever is expected of that. -/
theorem answers_settled_by_value_false :
    let body := Ascii.octets "\x7b\"result\":[null], \"x\":null,\"err\\u006fr\":false\x7d"
    let v := Value.ofMembers [("result", .array [.null]), ("x", .null), ("error", .bool false)]
    Format.json.wire.readValue body = .ok v ∧
    (∀ name ∈ ["result", "error", "id"], (Format.json.memberNames body).count name ≤ 1) ∧
    v.answer? = some ⟨.array [.null], .bool false, .null⟩ ∧
    Verdict Except.ok (.array [.null]) (.bool false)
      (decodeAnswer Format.json.wire Except.ok body) := by
  intro body v
  have members : (Json.members (Json.memberValue body.length) body.length body.tail).toOption
      = some ([("result", .array [.null]), ("x", .null), ("error", .bool false)], []) := by
    decide +kernel
  have denotes : Format.json.wire.readValue body = .ok v := by
    have read := Json.readValue_of_members (s := body) rfl (toOption_eq_some_iff.1 members)
    simp only [wire, WireFormat.json, read]
    rfl
  have once : ∀ name ∈ ["result", "error", "id"],
      (Format.json.memberNames body).count name ≤ 1 := by
    decide +kernel
  have isAnswer : v.answer? = some ⟨.array [.null], .bool false, .null⟩ := by
    let members : List (String × Value) :=
      [("result", .array [.null]), ("x", .null), ("error", .bool false)]
    have looked {name : String} (once : (members.map Prod.fst).count name ≤ 1) :
        v.member? name = members.lookup name :=
      Value.member?_ofMembers_of_once once
    change some (⟨(v.member? "result").getD .null, (v.member? "error").getD .null,
      (v.member? "id").getD .null⟩ : Answer) = _
    rw [looked (by decide), looked (by decide), looked (by decide)]
    rfl
  exact ⟨denotes, once, isAnswer,
    (answers_settled_by_value .json denotes once).1 _ isAnswer Except.ok⟩

end Format

end RemoteCall
