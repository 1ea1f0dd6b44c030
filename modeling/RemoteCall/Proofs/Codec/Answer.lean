import RemoteCall.Client
import RemoteCall.Codec.Enveloped
import RemoteCall.Proofs.Codec.Format

/-!
# Answers

A response tells the client what the server meant: the reply, that there is
none, or the message of the failure, and under which identifier.
-/

namespace RemoteCall

namespace Envelope

theorem answer_asWritten (result error id : Value) :
    (answer result error id).asWritten
      = .object [("result", result), ("error", error), ("id", id)] :=
  rfl

/-- The members of an answer are found by their names in the value that it is written as. -/
theorem member?_answer {result error id v : Value} {name : String}
    (mem : (name, v) ∈ [("result", result), ("error", error), ("id", id)]) (ordered : v.Ordered) :
    (answer result error id).asWritten.normal.member? name = some v := by
  rw [answer_asWritten, Value.normal_object]
  apply Value.member?_ofMembers (by simp)
  exact List.mem_map.2 ⟨(name, v), mem, by rw [Value.normal_of_ordered ordered]⟩

end Envelope

namespace Format

/-- An answer is written whatever values it carries. -/
theorem write_answer (format : Format) (result error id : Value) :
    format.wire.write (Envelope.answer result error id) =
      .ok (format.written (.object [("result", result), ("error", error), ("id", id)])) := by
  cases format with
  | json =>
      have written : Json.writeDatum (Envelope.answer result error id) = .ok _ :=
        Json.writeDatum_record (by simp [Json.putDatum, Datum.asWritten])
      simp only [wire, WireFormat.json, written]
      rfl
  | messagePack =>
      have written : MessagePack.writeDatum (Envelope.answer result error id) = .ok _ :=
        MessagePack.writeDatum_record (by simp [MessagePack.putDatum, Datum.asWritten])
      simp only [wire, WireFormat.messagePack, written]
      rfl

theorem written_answer_ne_nil (format : Format) (result error id : Value) :
    format.written (.object [("result", result), ("error", error), ("id", id)]) ≠ [] := by
  cases format with
  | json => simp [written, Json.spelling]
  | messagePack => simp [written, MessagePack.packing, MessagePack.putMapCount]

/-- Whether a value, inside an envelope, comes back from the format as it is. -/
def GivesBack (format : Format) (v : Value) : Prop :=
  v.Ordered ∧ format.Fits v

theorem givesBack_null (format : Format) : format.GivesBack .null :=
  ⟨.of_scalar rfl trivial, format.fits_null⟩

theorem givesBack_string {format : Format} {chars : String} (fits : format.Fits (.string chars)) :
    format.GivesBack (.string chars) :=
  ⟨.of_scalar rfl trivial, fits⟩

/-- An answer is read back from what is written for it, and its members are found there by
their names. -/
theorem read_written_answer {format : Format} {result error id : Value}
    (givesResult : format.GivesBack result) (givesError : format.GivesBack error)
    (givesId : format.GivesBack id) :
    let body := format.written (.object [("result", result), ("error", error), ("id", id)])
    format.wire.readAnswer body = .ok ⟨result, error, id⟩ ∧
      ∃ w, format.wire.readValue body = .ok w ∧ w.member? "result" = some result ∧
        w.member? "error" = some error ∧ w.member? "id" = some id := by
  intro body
  have answer := format.readAnswer_written givesResult.2 givesError.2 givesId.2
  rw [Value.normal_of_ordered givesResult.1, Value.normal_of_ordered givesError.1,
    Value.normal_of_ordered givesId.1] at answer
  have value := format.readValue_answer givesResult.2 givesError.2 givesId.2
  exact ⟨answer, _, value, Envelope.member?_answer (by simp) givesResult.1,
    Envelope.member?_answer (by simp) givesError.1, Envelope.member?_answer (by simp) givesId.1⟩

end Format

/-! ## Bodies that are no answers -/

namespace Format

/-- The errors of reading data of a format. -/
inductive DecodingError : Format → RpcError → Prop where
  | json (e : Json.Error) : DecodingError json (.json e)
  | messagePack (e : MessagePack.Error) : DecodingError messagePack (.messagePackDecode e)

/-- Whether a client, whatever result it expects, finds in the body nothing but the error that
it is no answer. -/
def RefusesAnswer (format : Format) (body : Bytes) : Prop :=
  ∃ e, format.DecodingError e ∧
    ∀ {α : Type} (read : Value → Except Mismatch α), decodeAnswer format.wire read body = .error e

theorem refusesAnswer_of_ne_ok (format : Format) {body : Bytes}
    (unreadable : ∀ answer, format.wire.readAnswer body ≠ .ok answer) :
    format.RefusesAnswer body := by
  cases read : format.wire.readAnswer body with
  | ok answer => exact absurd read (unreadable answer)
  | error e =>
      refine ⟨e, ?_, fun _ => by simp only [decodeAnswer, read, bind, Except.bind]⟩
      cases format with
      | json =>
          change (Json.readAnswer body).mapError .json = .error e at read
          cases found : Json.readAnswer body with
          | ok answer =>
              rw [found] at read
              cases read
          | error fault =>
              rw [found] at read
              exact Except.error.inj read ▸ .json fault
      | messagePack =>
          change (MessagePack.readAnswer body).mapError .messagePackDecode = .error e at read
          cases found : MessagePack.readAnswer body with
          | ok answer =>
              rw [found] at read
              cases read
          | error fault =>
              rw [found] at read
              exact Except.error.inj read ▸ .messagePack fault

end Format

/-! ## Round trips -/

namespace Enveloped

/-- An answer of a format is always written. -/
theorem respond_answer (format : Format) (status : Nat) (result error id : Value) :
    respond format.wire status (Envelope.answer result error id) =
      .make status format.wire.contentType
        (format.written (.object [("result", result), ("error", error), ("id", id)])) := by
  rw [respond, format.write_answer]

/-- An answer of values that come back is read back from the body of its response. -/
theorem exists_respond {format : Format} (status : Nat) {result error id : Value}
    (givesResult : format.GivesBack result) (givesError : format.GivesBack error)
    (givesId : format.GivesBack id) :
    format.wire.readAnswer (respond format.wire status (Envelope.answer result error id)).body
        = .ok ⟨result, error, id⟩ ∧
      ∃ w, format.wire.readValue (respond format.wire status (Envelope.answer result error id)).body
          = .ok w ∧ w.member? "id" = some id := by
  rw [respond_answer]
  obtain ⟨answer, w, value, -, -, found⟩ :=
    Format.read_written_answer givesResult givesError givesId
  exact ⟨answer, w, value, found⟩

/-- What a client makes of an answer with a reply: the reply, unless it is null. -/
theorem decodeAnswer_of_reply {F : WireFormat} {body : Bytes} {reply id : Value}
    (readable : F.readAnswer body = .ok ⟨reply, .null, id⟩) :
    decodeAnswer F Except.ok body
      = if reply.isNull then .error .nullResult else .ok reply := by
  simp only [decodeAnswer, readable, bind, Except.bind, Answer.outcome]
  rfl

/-- What a client makes of an answer with an error, whatever reply it expects. -/
theorem decodeAnswer_of_error {F : WireFormat} {body : Bytes} {message : String} {id : Value}
    (readable : F.readAnswer body = .ok ⟨.null, .string message, id⟩) {α : Type}
    (read : Value → Except Mismatch α) : decodeAnswer F read body = .error (.remote message) := by
  simp only [decodeAnswer, readable, bind, Except.bind, Answer.outcome]

/-- The body of a response to a call with an identifier, once the call has been decoded,
tells the client the reply or the failure, and carries the identifier. -/
theorem response_round_trip (format : Format) {state : Enveloped} {call : Call}
    (decoded : state.decoded = some (.ok call)) (identified : call.id.isNull = false)
    (idOrdered : call.id.Ordered) (fitsId : format.Fits call.id) :
    (∀ reply : Value, reply.Ordered → format.Fits reply →
      decodeAnswer format.wire .ok (writeReply format.wire reply state).body
          = (if reply.isNull then .error .nullResult else .ok reply) ∧
        ∃ w, format.wire.readValue (writeReply format.wire reply state).body = .ok w ∧
          w.member? "id" = some call.id) ∧
    (∀ (status : Nat) (failure : RpcError), format.Fits (.string failure.message) →
      (∀ {α : Type} (read : Value → Except Mismatch α),
        decodeAnswer format.wire read (writeError format.wire status failure state).body
          = .error (.remote failure.message)) ∧
        ∃ w, format.wire.readValue (writeError format.wire status failure state).body = .ok w ∧
          w.member? "id" = some call.id) := by
  have sameId : state.id = call.id := by simp [Enveloped.id, decoded]
  have asked : state.isNotification = false := by simp [isNotification, decoded, identified]
  constructor
  · intro reply replyOrdered fitsReply
    obtain ⟨answer, carried⟩ := exists_respond 200 ⟨replyOrdered, fitsReply⟩
      format.givesBack_null ⟨idOrdered, fitsId⟩
    have written : writeReply format.wire reply state
        = respond format.wire 200 (Envelope.answer reply .null call.id) := by
      simp [writeReply, asked, sameId]
    rw [written]
    exact ⟨decodeAnswer_of_reply answer, carried⟩
  · intro status failure fitsMessage
    obtain ⟨answer, carried⟩ := exists_respond status format.givesBack_null
      (Format.givesBack_string fitsMessage) ⟨idOrdered, fitsId⟩
    have written : writeError format.wire status failure state
        = respond format.wire status (Envelope.answer .null (.string failure.message) call.id) := by
      simp [writeError, sameId]
    rw [written]
    exact ⟨fun read => decodeAnswer_of_error answer read, carried⟩

/-- MessagePack gives back even the sign of zero, and quotes in a message stay what they are. -/
theorem response_round_trip_signed_zero :
    let state : Enveloped := ⟨[], some (.ok ⟨"Arith.Neg", .null, .string "7"⟩)⟩
    let reply : Value := .array [.float (.zero true) (by decide), .null]
    decodeAnswer WireFormat.messagePack .ok (writeReply .messagePack reply state).body = .ok reply ∧
    decodeAnswer WireFormat.messagePack Except.ok
        (writeError .messagePack 400 (.handler "\"no\"") state).body
      = (.error (.remote "\"no\"") : Except RpcError Value) := by
  intro state reply
  have scalarOrdered : ∀ item ∈ [Value.float (.zero true) (by decide), .null], item.Ordered := by
    simp only [List.forall_mem_cons]
    exact ⟨.of_scalar rfl trivial, .of_scalar rfl trivial, by simp⟩
  have scalarShort : ∀ item ∈ [Value.float (.zero true) (by decide), .null], item.Short := by
    simp only [List.forall_mem_cons]
    exact ⟨.of_scalar rfl trivial, .of_scalar rfl trivial, by simp⟩
  have replyOrdered : reply.Ordered := .of_array trivial scalarOrdered
  have fitsReply : Format.messagePack.Fits reply :=
    ⟨.of_array (by decide : 2 < Value.lengthBound) scalarShort, by decide⟩
  have trip := @response_round_trip .messagePack state _ rfl rfl (.of_scalar rfl trivial)
    (Format.messagePack.fits_string (by decide))
  exact ⟨(trip.1 reply replyOrdered fitsReply).1,
    (trip.2 400 (.handler "\"no\"") (Format.messagePack.fits_string (by decide))).1 .ok⟩

end Enveloped

end RemoteCall
