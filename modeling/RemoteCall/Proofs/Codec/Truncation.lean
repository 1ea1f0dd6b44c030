import RemoteCall.Proofs.Client
import RemoteCall.Proofs.Codec.Answer
import RemoteCall.Proofs.Codec.Projection
import RemoteCall.Proofs.Json.Closing
import RemoteCall.Proofs.MessagePack.Framing

/-!
# Where bodies end

A body that was cut off is taken for no envelope, neither for a call by the server
nor for an answer by the client, wherever the cut is.  Octets behind a body are
another matter: one format insists that a body ends with its envelope, the other
never looks there.
-/

namespace RemoteCall

/-! ## Bodies of requests -/

namespace WireFormat

variable {F : WireFormat} {body : Bytes}

/-- Whether a codec fails all questions about requests of the body, with one error. -/
def RefusesBody (F : WireFormat) (body : Bytes) : Prop :=
  ∃ detail, ∀ request : Request, request.body = body → ∀ state : F.codec.State,
    F.codec.Asked (F.codec.start request).1 state →
      F.Refuses (.codec (.undecodable F.name detail)) state

theorem refusesBody_of_ne_ok (unreadable : ∀ call, F.readCall body ≠ .ok call) :
    F.RefusesBody body := by
  cases read : F.readCall body with
  | ok call => exact absurd read (unreadable call)
  | error e =>
      refine ⟨e.detail, ?_⟩
      rintro request rfl state asked
      exact Enveloped.refuses read asked

end WireFormat

namespace Format

variable {format : Format} {body : Bytes}

/-- Whether a codec answers all questions about requests of the body from this call. -/
def AnswersBody (format : Format) (call : Call) (body : Bytes) : Prop :=
  ∀ request : Request, request.body = body → ∀ state : format.wire.codec.State,
    format.wire.codec.Asked (format.wire.codec.start request).1 state →
      format.AnswersFrom call state

theorem answersBody_of_readCall {call : Call} (read : format.wire.readCall body = .ok call) :
    format.AnswersBody call body := by
  rintro request rfl state asked
  exact format.answersFrom read asked

theorem not_refusesBody_of_answersBody {call : Call} (answers : format.AnswersBody call body) :
    ¬ format.wire.RefusesBody body := by
  rintro ⟨detail, refuses⟩
  have answered := (answers ⟨"POST", [], body⟩ rfl _ .opened).method
  have refused := (refuses ⟨"POST", [], body⟩ rfl _ .opened).method
  cases answered.symm.trans refused

end Format

/-! ## Written envelopes -/

theorem Client.call_short {method : String} {argument : Datum}
    (methodShort : (Utf8.encode method).length < Value.lengthBound) (argumentShort : argument.Short)
    (id : UInt64) : (Client.call method argument id).Short := by
  refine .record ?_ ?_ ?_
  · exact (by decide : 3 < Value.lengthBound)
  · simp only [List.forall_mem_cons]
    exact ⟨by decide, by decide, by decide, by simp⟩
  · simp only [List.forall_mem_cons]
    have single : ∀ item ∈ [argument], item.Short := by simpa using argumentShort
    have one : [argument].length < Value.lengthBound := (by decide : 1 < Value.lengthBound)
    exact ⟨.string methodShort, .sequence one single, .integer _, by simp⟩

theorem Envelope.answer_short {result error id : Value} (resultShort : result.Short)
    (errorShort : error.Short) (idShort : id.Short) : (answer result error id).Short := by
  refine .record ?_ ?_ ?_
  · exact (by decide : 3 < Value.lengthBound)
  · simp only [List.forall_mem_cons]
    exact ⟨by decide, by decide, by decide, by simp⟩
  · simp only [List.forall_mem_cons]
    exact ⟨.value resultShort, .value errorShort, .value idShort, by simp⟩

theorem eq_ok_of_mapError {ε δ α : Type} {f : ε → δ} {result : Except ε α} {a : α}
    (mapped : result.mapError f = .ok a) : result = .ok a := by
  cases result with
  | error => cases mapped
  | ok b => exact congrArg Except.ok (Except.ok.inj mapped)

namespace Format

section Cut

variable (format : Format) {fields : List (String × Datum)} {begun missing : Bytes}
  (short : (Datum.record fields).Short)
  (written : format.wire.write (.record fields) = .ok (begun ++ missing))

include short written

theorem eq_nil_of_readCall {call : Call} (read : format.wire.readCall begun = .ok call) :
    missing = [] := by
  cases format with
  | json =>
      exact Json.eq_nil_of_readCall (Json.writeDatum_bracketed (eq_ok_of_mapError written))
        (eq_ok_of_mapError read)
  | messagePack =>
      exact MessagePack.eq_nil_of_readCall
        (MessagePack.writeDatum_isItem short (eq_ok_of_mapError written)) (eq_ok_of_mapError read)

theorem eq_nil_of_readAnswer {answer : Answer} (read : format.wire.readAnswer begun = .ok answer) :
    missing = [] := by
  cases format with
  | json =>
      exact Json.eq_nil_of_readAnswer (Json.writeDatum_bracketed (eq_ok_of_mapError written))
        (eq_ok_of_mapError read)
  | messagePack =>
      exact MessagePack.eq_nil_of_readAnswer
        (MessagePack.writeDatum_isItem short (eq_ok_of_mapError written)) (eq_ok_of_mapError read)

end Cut

/-! ## Cut bodies -/

theorem refusesAnswer_of_cut (format : Format) (status : Nat) {result error id : Value}
    (resultShort : result.Short) (errorShort : error.Short) (idShort : id.Short) {begun : Bytes}
    (front : begun <+:
      (Enveloped.respond format.wire status (Envelope.answer result error id)).body)
    (cut : begun ≠ (Enveloped.respond format.wire status (Envelope.answer result error id)).body) :
    format.RefusesAnswer begun := by
  have written := format.write_answer result error id
  have sent : (Enveloped.respond format.wire status (Envelope.answer result error id)).body
      = format.written (.object [("result", result), ("error", error), ("id", id)]) := by
    rw [Enveloped.respond_answer]
    rfl
  rw [sent] at front cut
  obtain ⟨missing, whole⟩ := front
  rw [← whole] at written cut
  apply format.refusesAnswer_of_ne_ok
  intro answer read
  have nothing := format.eq_nil_of_readAnswer
    (Envelope.answer_short resultShort errorShort idShort) written read
  exact cut (by rw [nothing, List.append_nil])

/-- A body that was cut off anywhere is noticed: the server answers no question about such a
call, and the client finds no answer in such a response, be it a reply or a failure. -/
theorem cut_bodies_refused (format : Format) :
    (∀ (client : Client) {method : String} {argument : Datum} {body : Bytes},
      (Utf8.encode method).length < Value.lengthBound → argument.Short →
      (client.encode format.wire method argument).2 = .ok body →
      ∀ begun, begun <+: body → begun ≠ body → format.wire.RefusesBody begun) ∧
    ∀ state : Enveloped, (Enveloped.id state).Short →
      (∀ reply : Value, reply.Short →
        ∀ begun, begun <+: (format.wire.codec.writeReply reply state).answer.body →
          begun ≠ (format.wire.codec.writeReply reply state).answer.body →
          format.RefusesAnswer begun) ∧
      ∀ (status : Nat) (failure : RpcError),
        (Utf8.encode failure.message).length < Value.lengthBound →
        ∀ begun, begun <+: (format.wire.codec.writeError status failure state).answer.body →
          begun ≠ (format.wire.codec.writeError status failure state).answer.body →
          format.RefusesAnswer begun := by
  have nullShort : Value.null.Short := .of_scalar rfl trivial
  constructor
  · intro client method argument body methodShort argumentShort written begun front cut
    obtain ⟨missing, rfl⟩ := front
    apply WireFormat.refusesBody_of_ne_ok
    intro call read
    have nothing := format.eq_nil_of_readCall
      (Client.call_short methodShort argumentShort client.nextId) written read
    exact cut (by rw [nothing, List.append_nil])
  intro state idShort
  constructor
  · intro reply replyShort begun front cut
    change begun <+: (Enveloped.writeReply format.wire reply state).body at front
    change begun ≠ (Enveloped.writeReply format.wire reply state).body at cut
    by_cases notified : state.isNotification = true
    · rw [Enveloped.writeReply, if_pos notified] at front cut
      exact absurd (List.prefix_nil.1 front) cut
    · rw [Enveloped.writeReply, if_neg notified] at front cut
      exact format.refusesAnswer_of_cut 200 replyShort nullShort idShort front cut
  · intro status failure messageShort begun front cut
    exact format.refusesAnswer_of_cut status nullShort (.of_scalar rfl messageShort) idShort front
      cut

/-- A call that ends inside of its method, and a failure without its last octet. -/
theorem cut_bodies_refused_inside :
    let body := Ascii.octets "\x7b\"method\":\"Echo.Say\",\"params\":[\"hi\"],\"id\":1\x7d"
    let call : Call := ⟨"Echo.Say", .null, .integer ⟨1, by decide, by decide⟩⟩
    let state : Enveloped := ⟨[], some (.ok call)⟩
    let response := (WireFormat.messagePack.codec.writeError 400 (.handler "no") state).answer
    (({} : Client).encode .json "Echo.Say" (.string "hi")).2 = .ok body ∧
    WireFormat.json.RefusesBody (body.take 16) ∧
    Format.messagePack.RefusesAnswer response.body.dropLast := by
  intro body call state response
  have encoded : (({} : Client).encode .json "Echo.Say" (.string "hi")).2.toOption = some body := by
    decide +kernel
  have written := toOption_eq_some_iff.1 encoded
  refine ⟨written, ?_, ?_⟩
  · exact (cut_bodies_refused .json).1 {} (by decide) (.string (by decide)) written _
      (List.take_prefix 16 body) (by decide)
  · exact ((cut_bodies_refused .messagePack).2 state (.of_scalar rfl trivial)).2 400 (.handler "no")
      (by decide) _ (List.dropLast_prefix _) (by decide +kernel)

/-! ## What follows a body -/

theorem exists_of_isBlank_false {more : Bytes} (odd : ∃ octet ∈ more, Json.isBlank octet = false) :
    Json.blanks more ≠ [] := by
  obtain ⟨octet, mem, notBlank⟩ := odd
  intro nothing
  have blank := List.dropWhile_eq_nil_iff.1 nothing octet mem
  rw [notBlank] at blank
  cases blank

theorem messagePack_readCall_iff {octets : Bytes} {call : Call} :
    WireFormat.messagePack.readCall octets = .ok call ↔
      MessagePack.readCall octets = .ok call := by
  constructor
  · exact eq_ok_of_mapError
  · intro read
    simp only [WireFormat.messagePack, read]
    rfl

/-- What follows a call decides, for a call in MessagePack, neither whether its questions are
answered nor how. -/
theorem messagePack_answered_or_refused {client : Client} {method : String} {argument : Datum}
    {body : Bytes} (methodShort : (Utf8.encode method).length < Value.lengthBound)
    (argumentShort : argument.Short)
    (written : (client.encode .messagePack method argument).2 = .ok body) (more : Bytes) :
    (∃ call, Format.messagePack.AnswersBody call body ∧
      Format.messagePack.AnswersBody call (body ++ more)) ∨
    (WireFormat.messagePack.RefusesBody body ∧
      WireFormat.messagePack.RefusesBody (body ++ more)) := by
  have isItem := MessagePack.writeDatum_isItem
    (Client.call_short methodShort argumentShort client.nextId) (eq_ok_of_mapError written)
  have same {call : Call} : WireFormat.messagePack.readCall (body ++ more) = .ok call ↔
      WireFormat.messagePack.readCall body = .ok call := by
    rw [messagePack_readCall_iff, messagePack_readCall_iff]
    exact MessagePack.readCall_append_iff isItem more
  by_cases readable : ∃ call, WireFormat.messagePack.readCall body = .ok call
  · obtain ⟨call, read⟩ := readable
    exact .inl ⟨call, answersBody_of_readCall read,
      answersBody_of_readCall (same.2 read)⟩
  · refine .inr ⟨?_, ?_⟩
    · apply WireFormat.refusesBody_of_ne_ok
      exact fun call read => readable ⟨call, read⟩
    · apply WireFormat.refusesBody_of_ne_ok
      exact fun call read => readable ⟨call, same.1 read⟩

/-- A call that a client wrote, with octets behind it that are not all blank in JSON, is refused
exactly if the format is JSON or the call alone is refused.  MessagePack never looks behind the
call: its questions have the answers they had, and a plain call is answered whatever follows. -/
theorem octets_behind_calls (format : Format) (client : Client) {method : String} {argument : Datum}
    {body more : Bytes} (written : (client.encode format.wire method argument).2 = .ok body)
    (short : format = messagePack →
      (Utf8.encode method).length < Value.lengthBound ∧ argument.Short)
    (odd : format = json → ∃ octet ∈ more, Json.isBlank octet = false) :
    (format.wire.RefusesBody (body ++ more) ↔ format = json ∨ format.wire.RefusesBody body) ∧
    (format = messagePack →
      ((∃ call, format.AnswersBody call body ∧ format.AnswersBody call (body ++ more)) ∨
        (format.wire.RefusesBody body ∧ format.wire.RefusesBody (body ++ more))) ∧
      (Outgoing.Plain ⟨format, method, argument⟩ →
        format.AnswersBody
          ⟨method, .array [argument.asWritten.normal], Client.idValue client.nextId⟩
          (body ++ more))) := by
  cases format with
  | json =>
      have refused : WireFormat.json.RefusesBody (body ++ more) := by
        have bracketed := Json.writeDatum_bracketed (eq_ok_of_mapError written)
        apply WireFormat.refusesBody_of_ne_ok
        intro call read
        exact exists_of_isBlank_false (odd rfl)
          (Json.blanks_eq_nil_of_readCall bracketed (eq_ok_of_mapError read))
      exact ⟨iff_of_true refused (.inl rfl), nofun⟩
  | messagePack =>
      obtain ⟨methodShort, argumentShort⟩ := short rfl
      have settled := messagePack_answered_or_refused methodShort argumentShort written more
      refine ⟨?_, fun _ => ⟨settled, ?_⟩⟩
      · rcases settled with ⟨call, alone, behind⟩ | ⟨alone, behind⟩
        · apply iff_of_false (not_refusesBody_of_answersBody behind)
          rintro (other | refused)
          · cases other
          · exact not_refusesBody_of_answersBody alone refused
        · exact iff_of_true behind (.inr alone)
      · intro plain
        have read := Client.readCall_of_encode plain written
        apply answersBody_of_readCall
        exact messagePack_readCall_iff.2
          (MessagePack.readCall_append (messagePack_readCall_iff.1 read) more)

theorem say_plain : Outgoing.Plain ⟨.messagePack, "Echo.Say", .string "hi"⟩ :=
  have short : (Utf8.encode "hi").length < Value.lengthBound := by decide
  Outgoing.plain_of_depth_le (by decide) (.string "hi") (.of_scalar rfl trivial)
    (.of_scalar rfl short) (by decide)

/-- The same call in both formats, with a letter behind the text and with an octet that begins
no item behind the data. -/
theorem octets_behind_calls_odd :
    let text := Ascii.octets "\x7b\"method\":\"Echo.Say\",\"params\":[\"hi\"],\"id\":1\x7d"
    let data : Bytes := [0x83, 0xa6, 0x6d, 0x65, 0x74, 0x68, 0x6f, 0x64, 0xa8, 0x45, 0x63, 0x68,
      0x6f, 0x2e, 0x53, 0x61, 0x79, 0xa6, 0x70, 0x61, 0x72, 0x61, 0x6d, 0x73, 0x91, 0xa2, 0x68,
      0x69, 0xa2, 0x69, 0x64, 0x01]
    (({} : Client).encode .json "Echo.Say" (.string "hi")).2 = .ok text ∧
    (({} : Client).encode .messagePack "Echo.Say" (.string "hi")).2 = .ok data ∧
    WireFormat.json.RefusesBody (text ++ [0x78]) ∧
    ((∃ call, Format.messagePack.AnswersBody call data ∧
        Format.messagePack.AnswersBody call (data ++ [0xc1])) ∨
      (WireFormat.messagePack.RefusesBody data ∧
        WireFormat.messagePack.RefusesBody (data ++ [0xc1]))) ∧
    Format.messagePack.AnswersBody ⟨"Echo.Say", .array [.string "hi"], Client.idValue 1⟩
      (data ++ [0xc1]) := by
  intro text data
  have textEncoded : (({} : Client).encode .json "Echo.Say" (.string "hi")).2.toOption
      = some text := by
    decide +kernel
  have dataEncoded : (({} : Client).encode .messagePack "Echo.Say" (.string "hi")).2.toOption
      = some data := by
    decide +kernel
  have textWritten := toOption_eq_some_iff.1 textEncoded
  have dataWritten := toOption_eq_some_iff.1 dataEncoded
  have textOdd := octets_behind_calls .json {} textWritten nofun
    (fun _ => ⟨0x78, List.mem_singleton_self _, by decide⟩)
  have dataOdd := @octets_behind_calls .messagePack {} _ _ _ [0xc1] dataWritten
    (fun _ => ⟨by decide, .string (by decide)⟩) nofun
  exact ⟨textWritten, dataWritten, textOdd.1.2 (.inl rfl), (dataOdd.2 rfl).1,
    (dataOdd.2 rfl).2 say_plain⟩

/-- A call in MessagePack with a zero octet behind it is answered as if that were not there:
not every body with something behind its envelope is refused. -/
theorem octet_behind_call_unread :
    let data : Bytes := [0x83, 0xa6, 0x6d, 0x65, 0x74, 0x68, 0x6f, 0x64, 0xa8, 0x45, 0x63, 0x68,
      0x6f, 0x2e, 0x53, 0x61, 0x79, 0xa6, 0x70, 0x61, 0x72, 0x61, 0x6d, 0x73, 0x91, 0xa2, 0x68,
      0x69, 0xa2, 0x69, 0x64, 0x01]
    (({} : Client).encode .messagePack "Echo.Say" (.string "hi")).2 = .ok data ∧
    Format.messagePack.AnswersBody ⟨"Echo.Say", .array [.string "hi"], Client.idValue 1⟩
      (data ++ [0x00]) ∧
    ¬ WireFormat.messagePack.RefusesBody (data ++ [0x00]) := by
  intro data
  have encoded : (({} : Client).encode .messagePack "Echo.Say" (.string "hi")).2.toOption
      = some data := by
    decide +kernel
  have written := toOption_eq_some_iff.1 encoded
  have read : MessagePack.readCall data
      = .ok ⟨"Echo.Say", .array [.string "hi"], Client.idValue 1⟩ :=
    messagePack_readCall_iff.1 (Client.readCall_of_encode say_plain written)
  have answered := @answersBody_of_readCall messagePack _ _
    (messagePack_readCall_iff.2 (MessagePack.readCall_append read [0x00]))
  exact ⟨written, answered, not_refusesBody_of_answersBody answered⟩

end Format

end RemoteCall
