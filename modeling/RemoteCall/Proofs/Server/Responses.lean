import RemoteCall.Proofs.Codec.Response
import RemoteCall.Proofs.Server.Ending
import RemoteCall.Proofs.Server.Formats

/-!
# Responses of the formats

A server whose codecs are those of the formats answers every request in one of four
ways.  Which one it is, is told alike by the status, by the headers and by the
envelope in the body (`serve_tells_outcome`).  The identifier in the envelope is that
of the call as soon as the call has been decoded, and a body that is not too long has
been decoded whatever happens next (`dispatch_state`).
-/

namespace RemoteCall

variable {A : Application}

namespace Stage

universe u v

variable {σ : Type} {α : Type u} {β : Type v} {stage : Stage A σ α}
  {next : Server A → σ → α → Stage A σ β}

/-- A state of the codec that the next stage keeps is the one behind both. -/
theorem state_andThen {state : σ} (here : stage.state = state)
    (keeps : ∀ server found, (next server state found).state = state) :
    (stage.andThen next).state = state := by
  cases outcome : stage.outcome with
  | error failure => rw [andThen_of_error outcome, here]
  | ok found => rw [andThen_of_ok outcome, here, keeps]

/-- Stages come to a result only if the first one does. -/
theorem exists_of_andThen_eq_ok {b : β} (done : (stage.andThen next).outcome = .ok b) :
    ∃ a, stage.outcome = .ok a := by
  cases outcome : stage.outcome with
  | error failure =>
      rw [andThen_of_error outcome] at done
      cases done
  | ok found => exact ⟨found, rfl⟩

end Stage

namespace Enveloped

/-- The state in which the body has been decoded. -/
def opened (F : WireFormat) (body : Bytes) : Enveloped :=
  ⟨body, some ((F.readCall body).mapError RpcError.detail)⟩

variable {F : WireFormat} {body : Bytes}

theorem id_opened {call : Call} (readable : F.readCall body = .ok call) :
    (opened F body).id = call.id := by
  simp only [id, opened, readable]
  rfl

theorem id_opened_of_error {failure : RpcError} (unreadable : F.readCall body = .error failure) :
    (opened F body).id = .null := by
  simp only [id, opened, unreadable]
  rfl

theorem isNotification_opened {call : Call} (readable : F.readCall body = .ok call) :
    (opened F body).isNotification = call.id.isNull := by
  simp only [isNotification, opened, readable]
  rfl

/-- A question about a body that cannot be decoded has no answer. -/
theorem exists_of_ask_eq_ok {α : Type} {answer : Call → Except CodecFault α} {a : α}
    (answered : (ask F answer ⟨body, none⟩).answer = .ok a) :
    ∃ call, F.readCall body = .ok call := by
  cases readable : F.readCall body with
  | error failure =>
      simp only [ask, decode, readable] at answered
      cases answered
  | ok call => exact ⟨call, rfl⟩

end Enveloped

namespace Server

/-! ## The codec -/

/-- Methods know nothing of the codec. -/
theorem state_invoke {σ : Type} (descriptor : Descriptor A) (context : A.Context)
    (params : Value) (server : Server A) (state : σ) :
    (invoke descriptor context params server state).state = state := by
  simp only [invoke]
  split
  · rfl
  · rfl

/-- A body that is too long ends a request before the codec is asked anything. -/
theorem dispatch_of_exceeds {server : Server A} {request : Request} (codec : Codec)
    (state : codec.State) (exceeds : server.config.maxBodySize < request.body.length) :
    dispatch codec request server state =
      ⟨server, state, [],
        .error (.bodyTooLarge request.body.length server.config.maxBodySize)⟩ := by
  have size : server.checkSize request = .error _ := if_pos exceeds
  rw [dispatch_eq, size, Stage.andThen_of_error rfl]
  rfl

variable (F : WireFormat) (server : Server A) (request : Request)

/-- A body that is too long is never decoded, and any other one is. -/
theorem dispatch_state :
    (dispatch F.codec request server (⟨request.body, none⟩ : Enveloped)).state =
      if server.config.maxBodySize < request.body.length then
        (⟨request.body, none⟩ : Enveloped)
      else Enveloped.opened F request.body := by
  by_cases exceeds : server.config.maxBodySize < request.body.length
  · have dispatched := dispatch_of_exceeds F.codec (⟨request.body, none⟩ : Enveloped) exceeds
    rw [if_pos exceeds]
    exact congrArg Stage.state dispatched
  · have size : server.checkSize request = .ok () := if_neg exceeds
    unfold dispatch
    rw [if_neg exceeds, size, Stage.andThen_of_ok rfl]
    -- Behind the first question every stage finds the body decoded and leaves it so.
    apply Stage.state_andThen rfl
    intro server name
    apply Stage.state_andThen rfl
    intro server descriptor
    apply Stage.state_andThen rfl
    intro server context
    apply Stage.state_andThen rfl
    intro server params
    apply Stage.state_andThen (state_invoke descriptor context params server _)
    intro server found
    exact Stage.state_andThen rfl fun _ _ => rfl

/-- A request comes to a reply only if its body is not too long and can be decoded. -/
theorem decoded_of_dispatch_eq_ok {reply : Value}
    (replied : (dispatch F.codec request server (⟨request.body, none⟩ : Enveloped)).outcome =
      .ok reply) :
    ¬ server.config.maxBodySize < request.body.length ∧
      ∃ call, F.readCall request.body = .ok call := by
  by_cases exceeds : server.config.maxBodySize < request.body.length
  · have dispatched := dispatch_of_exceeds F.codec (⟨request.body, none⟩ : Enveloped) exceeds
    simp only [dispatched] at replied
    cases replied
  · have size : server.checkSize request = .ok () := if_neg exceeds
    unfold dispatch at replied
    rw [size, Stage.andThen_of_ok rfl] at replied
    rcases Stage.exists_of_andThen_eq_ok replied with ⟨name, named⟩
    exact ⟨exceeds, Enveloped.exists_of_ask_eq_ok named⟩

/-! ## Replies and failures -/

/-- What a server of the formats answers to a call that succeeds. -/
theorem response_of_reply {server : Server A} {request : Request} (post : request.verb = "POST")
    {format : Format} (selected : server.selectCodec request = .ok format.wire.codec)
    {reply : Value}
    (replied : (dispatch format.wire.codec request server
      (⟨request.body, none⟩ : Enveloped)).outcome = .ok reply) :
    ∃ call body, format.wire.readCall request.body = .ok call ∧
      (server.serve request).response.Delivers 200
        [("x-content-type-options", "nosniff"), ("content-type", format.contentType)] body ∧
      (body = [] ↔ call.id = .null) ∧
      (call.id ≠ .null → format.Envelops reply .null call.id body) := by
  rcases decoded_of_dispatch_eq_ok format.wire server request replied with ⟨fits, call, readable⟩
  have state := dispatch_state format.wire server request
  rw [if_neg fits] at state
  rw [serve_of_selected post selected, serveWith_codec, replied, state]
  simp only [Enveloped.conclude, Enveloped.writeReply, Enveloped.isNotification_opened readable,
    Enveloped.id_opened readable, Enveloped.respond_answer, format.contentType_wire]
  have sent (body : Bytes) : (noSniff (.make 200 format.contentType body)).Delivers 200
      [("x-content-type-options", "nosniff"), ("content-type", format.contentType)] body :=
    (Response.delivers_make 200 format.contentType body).withHeader _ _
  cases identified : call.id.isNull with
  | true =>
      have absent : call.id = .null := by
        cases id : call.id with
        | null => rfl
        | _ => simp [id, Value.isNull] at identified
      refine ⟨call, [], readable, sent [], ?_, ?_⟩
      · simp [absent]
      · intro present
        exact absurd absent present
  | false =>
      have present : call.id ≠ .null := by
        intro absent
        rw [absent] at identified
        cases identified
      refine ⟨call, _, readable, sent _, ?_, ?_⟩
      · simp [present, format.written_answer_ne_nil]
      · intro _
        exact format.envelops_written reply .null call.id

/-- What a server of the formats answers to a call that fails. -/
theorem response_of_failure {server : Server A} {request : Request}
    (post : request.verb = "POST") {format : Format}
    (selected : server.selectCodec request = .ok format.wire.codec) {failure : RpcError}
    (failed : (dispatch format.wire.codec request server
      (⟨request.body, none⟩ : Enveloped)).outcome = .error failure) :
    ∃ id body, (server.serve request).response.Delivers 400
        [("content-type", format.contentType)] body ∧
      format.Envelops .null (.string failure.message) id body ∧
      (∀ call, request.body.length ≤ server.config.maxBodySize →
        format.wire.readCall request.body = .ok call → id = call.id) ∧
      (server.config.maxBodySize < request.body.length ∨
        (∀ call, format.wire.readCall request.body ≠ .ok call) → id = .null) := by
  have state := dispatch_state format.wire server request
  rw [serve_of_selected post selected, serveWith_codec, failed, state]
  simp only [Enveloped.conclude, Enveloped.writeError, Enveloped.respond_answer,
    format.contentType_wire]
  refine ⟨_, _, Response.delivers_make _ _ _, format.envelops_written _ _ _, ?_, ?_⟩
  · intro call fits readable
    rw [if_neg (Nat.not_lt.2 fits)]
    exact Enveloped.id_opened readable
  · intro undecoded
    split
    next => rfl
    next fits =>
        rcases undecoded with exceeds | unreadable
        · exact absurd exceeds fits
        · cases read : format.wire.readCall request.body with
          | error failure => exact Enveloped.id_opened_of_error read
          | ok call => exact absurd read (unreadable call)

/-! ## Servers of the formats -/

theorem exists_format_of_registered (format : Format) (name : String) :
    ∀ contentType codec,
      ((new : Server A).registerCodec name format.wire.codec).codecs.find? contentType
        = some codec →
      ∃ format : Format, codec = format.wire.codec := by
  intro contentType codec registered
  have entry := List.mem_singleton.1 (Table.find?_eq_some_iff.1 registered)
  exact ⟨format, congrArg Prod.snd entry⟩

section

variable {server : Server A} {request : Request}
  (ofFormats : ∀ contentType codec, server.codecs.find? contentType = some codec →
    ∃ format : Format, codec = format.wire.codec)

include ofFormats

theorem exists_format_of_selectCodec {codec : Codec}
    (selected : server.selectCodec request = .ok codec) :
    ∃ format : Format, codec = format.wire.codec := by
  rcases exists_of_selectCodec_eq_ok selected with ⟨contentType, registered⟩
  exact ofFormats contentType codec registered

/-- A request with a codec is answered in the content type of a format, with a success that
says so or with a failure. -/
theorem delivers_of_selected (post : request.verb = "POST") {codec : Codec}
    (selected : server.selectCodec request = .ok codec) :
    ∃ (format : Format) (body : Bytes),
      (server.serve request).response.Delivers 200
        [("x-content-type-options", "nosniff"), ("content-type", format.contentType)] body ∨
      (server.serve request).response.Delivers 400 [("content-type", format.contentType)] body := by
  rcases exists_format_of_selectCodec ofFormats selected with ⟨format, rfl⟩
  cases outcome : (dispatch format.wire.codec request server
      (⟨request.body, none⟩ : Enveloped)).outcome with
  | ok reply =>
      rcases response_of_reply post selected outcome with ⟨_, body, _, delivers, _⟩
      exact ⟨format, body, .inl delivers⟩
  | error failure =>
      rcases response_of_failure post selected outcome with ⟨_, body, delivers, _⟩
      exact ⟨format, body, .inr delivers⟩

/-- A POST request is answered 415 for want of a codec and for nothing else. -/
theorem status_eq_415_iff (post : request.verb = "POST") :
    (server.serve request).response.status = 415 ↔
      ∃ failure, server.selectCodec request = .error failure := by
  constructor
  · intro status
    cases selected : server.selectCodec request with
    | error failure => exact ⟨failure, rfl⟩
    | ok codec =>
        rcases delivers_of_selected ofFormats post selected with ⟨_, _, success | failed⟩
        · cases success.status_eq.symm.trans status
        · cases failed.status_eq.symm.trans status
  · rintro ⟨failure, failed⟩
    exact (refused_of_no_codec post failed).2.2.status_eq

/-- Only success says that its content type is to be taken as it is. -/
theorem find?_headers_serve :
    (server.serve request).response.headers.find? "x-content-type-options" =
      if (server.serve request).response.status = 200 then some "nosniff" else none := by
  by_cases post : request.verb = "POST"
  · cases selected : server.selectCodec request with
    | error failure =>
        have told := (refused_of_no_codec post selected).2.2
        rw [told.header_eq, told.status_eq]
        rfl
    | ok codec =>
        rcases delivers_of_selected ofFormats post selected with ⟨_, _, success | failed⟩
        · rw [success.header_eq, success.status_eq]
          rfl
        · rw [failed.header_eq, failed.status_eq]
          rfl
  · have told : (server.serve request).response.IsPlainText 405 _ :=
      isPlainText_of_other_verb post
    rw [told.header_eq, told.status_eq]
    rfl

end

/-- The status, the headers and the envelope of a response tell the same, whatever the
request is.  A request with another verb or without a codec gets a plain text; a call that
succeeds gets its reply under its identifier, or an empty body if it has none; a call that
fails gets the message of its failure, even if it is a notification, under its identifier
if it has been decoded with one.  Only success says that its content type is to be taken as
it is. -/
theorem serve_tells_outcome {server : Server A}
    (ofFormats : ∀ contentType codec, server.codecs.find? contentType = some codec →
      ∃ format : Format, codec = format.wire.codec) (request : Request) :
    let response := (server.serve request).response
    (request.verb ≠ "POST" →
      response.IsPlainText 405 ("rpc: POST method required, received " ++ request.verb)) ∧
    (∀ failure, request.verb = "POST" → server.selectCodec request = .error failure →
      response.IsPlainText 415
        ("rpc: unrecognized Content-Type: " ++ contentTypeOf request)) ∧
    (∀ codec, server.selectCodec request = .ok codec →
      ∃ format : Format, codec = format.wire.codec) ∧
    (∀ format : Format, request.verb = "POST" →
      server.selectCodec request = .ok format.wire.codec →
      let outcome := (dispatch format.wire.codec request server
        (format.wire.codec.start request).1).outcome
      (∀ reply, outcome = .ok reply →
        ∃ call body, format.wire.readCall request.body = .ok call ∧
          response.Delivers 200
            [("x-content-type-options", "nosniff"), ("content-type", format.contentType)] body ∧
          (body = [] ↔ call.id = .null) ∧
          (call.id ≠ .null → format.Envelops reply .null call.id body)) ∧
      (∀ failure, outcome = .error failure →
        ∃ id body, response.Delivers 400 [("content-type", format.contentType)] body ∧
          format.Envelops .null (.string failure.message) id body ∧
          (∀ call, request.body.length ≤ server.config.maxBodySize →
            format.wire.readCall request.body = .ok call → id = call.id) ∧
          (server.config.maxBodySize < request.body.length ∨
            (∀ call, format.wire.readCall request.body ≠ .ok call) → id = .null))) ∧
    response.headers.find? "x-content-type-options" =
      if response.status = 200 then some "nosniff" else none := by
  intro response
  constructor
  · exact isPlainText_of_other_verb
  constructor
  · intro failure post failed
    exact (refused_of_no_codec post failed).2.2
  constructor
  · intro codec selected
    exact exists_format_of_selectCodec ofFormats selected
  constructor
  · intro format post selected
    constructor
    · intro reply replied
      exact response_of_reply post selected replied
    · intro failure failed
      exact response_of_failure post selected failed
  · exact find?_headers_serve ofFormats

/-- A notification that names no method gets an answer, under no identifier. -/
theorem serve_tells_outcome_failing_notification :
    let A : Application := ⟨Nat, "Nat", 0, "Request", Nat⟩
    let server : Server A := Server.new.registerCodec "text/json" WireFormat.json.codec
    let request : Request := ⟨"POST", [], Ascii.octets "\x7b\"method\":\"x\"\x7d"⟩
    ∃ body,
      (server.serve request).response.Delivers 400
        [("content-type", "application/json; charset=utf-8")] body ∧
      WireFormat.json.readAnswer body = .ok ⟨.null,
        .string "rpc: service/method request ill-formed: \"x\"", .null⟩ := by
  intro A server request
  have untyped : contentTypeOf request = "" := by decide +kernel
  have single : server.codecs.entries = [("text/json", WireFormat.json.codec)] := rfl
  have selected : server.selectCodec request = .ok Format.json.wire.codec := by
    simp only [selectCodec, untyped, single, if_true]
    rfl
  have readable : WireFormat.json.readCall request.body = .ok ⟨"x", .null, .null⟩ := rfl
  have failed : (dispatch WireFormat.json.codec request server
      (WireFormat.json.codec.start request).1).outcome = .error (.illFormedMethod "x") := rfl
  obtain ⟨-, -, -, told, -⟩ :=
    serve_tells_outcome (exists_format_of_registered .json "text/json") request
  rcases (told .json rfl selected).2 _ failed with ⟨id, body, delivers, envelops, decoded, -⟩
  obtain rfl : id = .null := decoded _ (by decide) readable
  have worded : (RpcError.illFormedMethod "x").message =
      "rpc: service/method request ill-formed: \"x\"" := by decide +kernel
  have short : (Utf8.encode (RpcError.illFormedMethod "x").message).length <
      Value.lengthBound := by decide +kernel
  have answer := (envelops.read_back Format.json.givesBack_null
    (Format.givesBack_string (Format.json.fits_string short)) Format.json.givesBack_null).1
  exact ⟨body, delivers, worded ▸ answer⟩

end Server

end RemoteCall
