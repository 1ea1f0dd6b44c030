import RemoteCall.Proofs.Codec.Adapter
import RemoteCall.Proofs.Codec.Answer
import RemoteCall.Proofs.Response

/-!
# Responses of a format

What the codec of a format writes, seen from outside: the status, the content type of the
format, and a body that is empty or an envelope.  An envelope is told by its three members,
which are what the format writes, and which are found in the body again wherever the format
gives back what it writes.
-/

namespace RemoteCall.Format

variable (format : Format)

/-! ## Envelopes in responses -/

/-- The content type of the responses in a format. -/
def contentType : Format → String
  | json => "application/json; charset=utf-8"
  | messagePack => "application/msgpack"

theorem contentType_wire : format.wire.contentType = format.contentType := by
  cases format <;> rfl

/-- A body is the envelope of an answer with these members.  It is what the format writes for
them.  Members that come back from the format are read from it, in their places by a reader
of answers, and by their names in the value that the body denotes. -/
structure Envelops (result error id : Value) (body : Bytes) : Prop where
  ne_nil : body ≠ []
  written : format.wire.write
    (.record [("result", .value result), ("error", .value error), ("id", .value id)]) = .ok body
  read_back : format.GivesBack result → format.GivesBack error → format.GivesBack id →
    format.wire.readAnswer body = .ok ⟨result, error, id⟩ ∧
      ∃ w, format.wire.readValue body = .ok w ∧ w.member? "result" = some result ∧
        w.member? "error" = some error ∧ w.member? "id" = some id

theorem envelops_written (result error id : Value) :
    format.Envelops result error id
      (format.written (.object [("result", result), ("error", error), ("id", id)])) :=
  ⟨format.written_answer_ne_nil result error id, format.write_answer result error id,
    read_written_answer⟩

/-- A response carries an envelope in the content type of the format, and nothing else. -/
def Carries (status : Nat) (result error id : Value) (response : Response) : Prop :=
  ∃ body, response.Delivers status [("content-type", format.contentType)] body ∧
    format.Envelops result error id body

theorem carries_respond (status : Nat) (result error id : Value) :
    format.Carries status result error id
      (Enveloped.respond format.wire status (Envelope.answer result error id)) := by
  rw [Enveloped.respond_answer, contentType_wire]
  exact ⟨_, Response.delivers_make _ _ _, format.envelops_written result error id⟩

variable {format} in
theorem Carries.body_ne_nil {status : Nat} {result error id : Value} {response : Response}
    (carries : format.Carries status result error id response) : response.body ≠ [] := by
  rcases carries with ⟨body, delivers, envelops⟩
  rw [delivers.body_eq]
  exact envelops.ne_nil

variable {format} in
/-- The identifier is found in the body. -/
theorem Carries.exists_id {status : Nat} {result error id : Value} {response : Response}
    (carries : format.Carries status result error id response)
    (givesResult : format.GivesBack result) (givesError : format.GivesBack error)
    (givesId : format.GivesBack id) :
    ∃ w, format.wire.readValue response.body = .ok w ∧ w.member? "id" = some id := by
  rcases carries with ⟨body, delivers, envelops⟩
  obtain ⟨-, w, value, -, -, found⟩ := envelops.read_back givesResult givesError givesId
  exact ⟨w, delivers.body_eq ▸ value, found⟩

/-! ## Responses in a state -/

/-- Whether a codec writes every response as an envelope under this identifier. -/
structure WritesUnder (id : Value) (state : format.wire.codec.State) : Prop where
  reply : ∀ value, format.Carries 200 value .null id
    (format.wire.codec.writeReply value state).answer
  error : ∀ status failure, format.Carries status .null (.string failure.message) id
    (format.wire.codec.writeError status failure state).answer

/-- Whether this identifier is found, under its name, in the body of every response that a codec
writes. -/
structure Echoes (id : Value) (state : format.wire.codec.State) : Prop where
  reply : ∀ value, format.GivesBack value →
    ∃ w, format.wire.readValue (format.wire.codec.writeReply value state).answer.body = .ok w ∧
      w.member? "id" = some id
  error : ∀ (status : Nat) (failure : RpcError), format.Fits (.string failure.message) →
    ∃ w, format.wire.readValue
        (format.wire.codec.writeError status failure state).answer.body = .ok w ∧
      w.member? "id" = some id

/-- Whether a codec writes the responses to this call: every one under its identifier, but
replies to a notification as empty bodies. -/
structure WritesFor (call : Call) (state : format.wire.codec.State) : Prop where
  empty_iff : ∀ value,
    (format.wire.codec.writeReply value state).answer.body = [] ↔ call.id = .null
  notified : call.id = .null → ∀ value,
    (format.wire.codec.writeReply value state).answer.Delivers 200
      [("content-type", format.contentType)] []
  reply : call.id ≠ .null → ∀ value,
    format.Carries 200 value .null call.id (format.wire.codec.writeReply value state).answer
  error : ∀ status failure, format.Carries status .null (.string failure.message) call.id
    (format.wire.codec.writeError status failure state).answer

variable {format} in
/-- An identifier that comes back is found in every envelope under it. -/
theorem WritesUnder.echoes {id : Value} {state : format.wire.codec.State}
    (writes : format.WritesUnder id state) (givesId : format.GivesBack id) :
    format.Echoes id state where
  reply value givesValue :=
    (writes.reply value).exists_id givesValue format.givesBack_null givesId
  error status failure fits :=
    (writes.error status failure).exists_id format.givesBack_null (givesBack_string fits) givesId

variable {format} in
/-- To a call with an identifier every response is an envelope under it. -/
theorem WritesFor.writesUnder {call : Call} {state : format.wire.codec.State}
    (writes : format.WritesFor call state) (identified : call.id ≠ .null) :
    format.WritesUnder call.id state :=
  ⟨writes.reply identified, writes.error⟩

/-- Without a call, every response is an envelope under no identifier. -/
theorem writesUnder_null {state : Enveloped} (anonymous : state.id = .null)
    (unnotified : state.isNotification = false) : format.WritesUnder .null state := by
  constructor
  · intro value
    change format.Carries 200 value .null .null (Enveloped.writeReply format.wire value state)
    rw [Enveloped.writeReply, unnotified, anonymous]
    exact format.carries_respond 200 value .null .null
  · intro status failure
    change format.Carries status .null (.string failure.message) .null
      (Enveloped.writeError format.wire status failure state)
    rw [Enveloped.writeError, anonymous]
    exact format.carries_respond status .null (.string failure.message) .null

theorem writesFor (body : Bytes) (call : Call) :
    format.WritesFor call (⟨body, some (.ok call)⟩ : Enveloped) := by
  have replied (value : Value) :
      (format.wire.codec.writeReply value (⟨body, some (.ok call)⟩ : Enveloped)).answer
        = if call.id.isNull then .make 200 format.wire.contentType []
          else Enveloped.respond format.wire 200 (Envelope.answer value .null call.id) :=
    rfl
  have notified (silent : call.id = .null) (value : Value) :
      (format.wire.codec.writeReply value (⟨body, some (.ok call)⟩ : Enveloped)).answer.Delivers
        200 [("content-type", format.contentType)] [] := by
    rw [replied, silent, contentType_wire]
    exact Response.delivers_make 200 format.contentType []
  have carried (identified : call.id ≠ .null) (value : Value) :
      format.Carries 200 value .null call.id
        (format.wire.codec.writeReply value (⟨body, some (.ok call)⟩ : Enveloped)).answer := by
    rw [replied, Value.isNull_eq_false_iff.2 identified]
    exact format.carries_respond 200 value .null call.id
  constructor
  · intro value
    constructor
    · intro empty
      by_contra identified
      exact (carried identified value).body_ne_nil empty
    · intro silent
      exact (notified silent value).body_eq
  · exact notified
  · exact carried
  · intro status failure
    exact format.carries_respond status .null (.string failure.message) call.id

/-! ## Presenting a call -/

/-- Whether the codec of a format presents requests of this body, whatever was asked
before, as calls of the method with this argument that are no notifications, and
carries this identifier over to the response as soon as it has been asked anything. -/
def Presents (body : Bytes) (method : String) (argument id : Value) : Prop :=
  ∀ request : Request, request.body = body →
  ∀ state : format.wire.codec.State,
    format.wire.codec.Asked (format.wire.codec.start request).1 state →
    (format.wire.codec.method state).answer = .ok method ∧
      (format.wire.codec.read state).answer = .ok argument ∧
      Enveloped.isNotification state = false ∧
      ∀ later ∈ [(format.wire.codec.method state).state, (format.wire.codec.read state).state],
        format.WritesUnder id later ∧ format.Echoes id later

/-- A body that is read as a call of a single argument is presented as that call. -/
theorem presents_of_readCall {body : Bytes} {method : String} {argument id : Value}
    (readable : format.wire.readCall body = .ok ⟨method, .array [argument], id⟩)
    (identified : id ≠ .null) (givesId : format.GivesBack id) :
    format.Presents body method argument id := by
  rintro request rfl state asked
  obtain ⟨named, given, -⟩ := Enveloped.answers_of_call readable asked
  refine ⟨named, given, ?_, ?_⟩
  · rcases Enveloped.eq_of_asked readable asked with rfl | rfl
    · rfl
    · exact Value.isNull_eq_false_iff.2 identified
  · intro later mem
    rw [Enveloped.decoded_of_mem readable asked mem]
    have writes : format.WritesUnder id _ :=
      (format.writesFor request.body ⟨method, .array [argument], id⟩).writesUnder identified
    exact ⟨writes, writes.echoes givesId⟩

end RemoteCall.Format
