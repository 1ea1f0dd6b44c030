import RemoteCall.Proofs.Server.Responses
import RemoteCall.Proofs.Server.Runs
import RemoteCall.Proofs.Service.Registry

/-!
# Rejected requests stay unread

A request is rejected as soon as there is reason to, and what has not been looked at by
then has no bearing on the response.  A body that is too long is not decoded, so that its
response depends on its length alone (`serve_of_exceeds`); without a codec, the response
depends on the content type and on what content types there are; and with another verb, it
depends on the verb.  In none of these cases anything happens.

That a body is too long is found in the first stage and in no other one
(`dispatch_admits`), and it is found of no body that is as long as configured.
-/

namespace RemoteCall

variable {A : Application}

/-- Tables with the same keys are equally large. -/
theorem Table.size_eq_of_mem_keys_iff {α β : Type*} {table : Table α} {table' : Table β}
    (same : ∀ key, key ∈ table.keys ↔ key ∈ table'.keys) : table.size = table'.size := by
  have permuted := (List.perm_ext_iff_of_nodup table.keys_nodup table'.keys_nodup).2 same
  have lengths := permuted.length_eq
  rwa [keys, keys, List.length_map, List.length_map] at lengths

namespace Stage

universe u v

variable {σ : Type} {α : Type u} {β : Type v}

/-- Whether a stage lets the length of the body pass. -/
def Admits (stage : Stage A σ α) : Prop :=
  ∀ size limit, stage.outcome ≠ .error (.bodyTooLarge size limit)

theorem Admits.andThen {stage : Stage A σ α} {next : Server A → σ → α → Stage A σ β}
    (here : stage.Admits) (later : ∀ server state found, (next server state found).Admits) :
    (stage.andThen next).Admits := by
  intro size limit
  cases outcome : stage.outcome with
  | error failure =>
      rw [andThen_of_error outcome]
      intro tooLong
      rw [Except.error.inj tooLong] at outcome
      exact here size limit outcome
  | ok found =>
      rw [andThen_of_ok outcome]
      exact later _ _ _ size limit

theorem admits_ofResult_ok (server : Server A) (state : σ) (found : α) :
    (ofResult server state (.ok found)).Admits := by
  intro size limit tooLong
  cases tooLong

end Stage

/-- A method finds fault with its argument, with what it does or with its reply. -/
theorem Method.error_of_call {method : Method A} {receiver : A.Receiver} {context : A.Context}
    {params : Value} {failure : RpcError}
    (failed : (method.call receiver context params).outcome = .error failure) :
    (∃ mismatch, failure = .invalidParams mismatch) ∨ (∃ message, failure = .handler message) ∨
      ∃ reason, failure = .reply reason := by
  unfold Method.call at failed
  split at failed
  next mismatch _ =>
      exact .inl ⟨mismatch, (Except.error.inj failed).symm⟩
  next args _ =>
      simp only at failed
      split at failed
      next message _ =>
          exact .inr (.inl ⟨message, (Except.error.inj failed).symm⟩)
      next reply _ =>
          cases converted : (method.encode reply).toValue with
          | error reason =>
              rw [converted] at failed
              exact .inr (.inr ⟨reason, (Except.error.inj failed).symm⟩)
          | ok value =>
              rw [converted] at failed
              cases failed

namespace Server

/-! ## Who finds a body too long -/

theorem admits_ask {F : WireFormat} {α : Type} (server : Server A)
    (answer : Call → Except CodecFault α) (state : Enveloped) :
    (Stage.ofStep server (Enveloped.ask F answer state)).Admits := by
  intro size limit
  have coded (answered : Except CodecFault α) :
      answered.mapError RpcError.codec ≠ .error (.bodyTooLarge size limit) := by
    intro tooLong
    cases answered with
    | error fault => cases tooLong
    | ok found => cases tooLong
  exact coded _

theorem admits_get (server : Server A) {σ : Type} (state : σ) (name : String) :
    (Stage.ofResult server state (server.registry.get name)).Admits := by
  intro size limit tooLong
  rcases Registry.get_eq_error_iff.1 tooLong with
    ⟨other, -⟩ | ⟨_, _, -, ⟨other, -⟩ | ⟨other, -⟩⟩
  · cases other
  · cases other
  · cases other

theorem admits_runPhase {σ : Type} (phase : Phase) (request : Request) (context : A.Context)
    (server : Server A) (state : σ) : (runPhase phase request context server state).Admits := by
  intro size limit tooLong
  simp only [runPhase] at tooLong
  split at tooLong
  next => cases tooLong
  next => cases tooLong

theorem admits_invoke {σ : Type} (descriptor : Descriptor A) (context : A.Context)
    (params : Value) (server : Server A) (state : σ) :
    (invoke descriptor context params server state).Admits := by
  intro size limit tooLong
  have called : (descriptor.method.call (server.receiverOf descriptor) context params).outcome =
      .error (.bodyTooLarge size limit) := by
    simp only [invoke] at tooLong
    cases outcome :
        (descriptor.method.call (server.receiverOf descriptor) context params).outcome with
    | error failure =>
        rw [outcome] at tooLong
        split at tooLong
        all_goals
          rw [← Except.error.inj tooLong]
    | ok reply =>
        rw [outcome] at tooLong
        split at tooLong
        all_goals cases tooLong
  rcases Method.error_of_call called with ⟨_, other⟩ | ⟨_, other⟩ | ⟨_, other⟩
  · cases other
  · cases other
  · cases other

variable (F : WireFormat) {server : Server A} {request : Request}

/-- No stage but the first one finds a body too long. -/
theorem dispatch_admits (fits : request.body.length ≤ server.config.maxBodySize)
    (state : Enveloped) : (dispatch F.codec request server state).Admits := by
  have size : server.checkSize request = .ok () := if_neg (Nat.not_lt.2 fits)
  unfold dispatch
  rw [size]
  apply Stage.Admits.andThen (Stage.admits_ofResult_ok server _ ())
  intro server state _
  apply Stage.Admits.andThen (admits_ask server _ state)
  intro server state name
  apply Stage.Admits.andThen (admits_get server state name)
  intro server state descriptor
  apply Stage.Admits.andThen (admits_runPhase .before request A.fresh server state)
  intro server state context
  apply Stage.Admits.andThen (admits_ask server _ state)
  intro server state params
  apply Stage.Admits.andThen (admits_invoke descriptor context params server state)
  rintro server state ⟨context, reply⟩
  apply Stage.Admits.andThen (admits_runPhase .after request context server state)
  intro server state _
  exact Stage.admits_ofResult_ok server state reply

/-- What is answered to a request whose body is too long tells nothing but its length. -/
theorem serve_of_exceeds (post : request.verb = "POST")
    (selected : server.selectCodec request = .ok F.codec)
    (exceeds : server.config.maxBodySize < request.body.length) :
    server.serve request =
      ⟨server, [], Enveloped.respond F 400
        (Envelope.answer .null (.string (RpcError.bodyTooLarge request.body.length
          server.config.maxBodySize).message) .null)⟩ := by
  rw [serve_of_selected post selected, serveWith_codec]
  have dispatched := dispatch_of_exceeds F.codec (⟨request.body, none⟩ : Enveloped) exceeds
  simp only [dispatched]
  rfl

/-- A body is decoded exactly if it is not too long. -/
theorem decoded_mem_events_iff (post : request.verb = "POST")
    (selected : server.selectCodec request = .ok F.codec) :
    .decoded ∈ (server.serve request).events ↔
      request.body.length ≤ server.config.maxBodySize := by
  constructor
  · intro decoded
    by_contra exceeds
    rw [serve_of_exceeds F post selected (Nat.lt_of_not_le exceeds)] at decoded
    cases decoded
  · intro fits
    have size : server.checkSize request = .ok () := if_neg (Nat.not_lt.2 fits)
    rw [serve_of_selected post selected, serveWith_codec]
    unfold dispatch
    rw [size]
    -- The name of the method is asked for first, and the body is decoded for it.
    exact List.mem_append_right _ (mem_events_andThen List.mem_cons_self _)

/-! ## Rejected alike -/

/-- Bodies that are too long are rejected by their length. -/
theorem serve_eq_of_exceeds {request' : Request}
    (ofFormats : ∀ contentType codec, server.codecs.find? contentType = some codec →
      ∃ format : Format, codec = format.wire.codec)
    (post : request.verb = "POST") (post' : request'.verb = "POST")
    (headers : request.headers = request'.headers)
    (lengths : request.body.length = request'.body.length)
    (exceeds : server.config.maxBodySize < request.body.length) :
    server.serve request = server.serve request' ∧ (server.serve request).server = server ∧
      (server.serve request).events = [] := by
  have selections : server.selectCodec request = server.selectCodec request' :=
    selectCodec_congr headers
  cases selected : server.selectCodec request with
  | error failure =>
      have selected' := selections.symm.trans selected
      rw [serve_of_no_codec post selected, serve_of_no_codec post' selected']
      exact ⟨rfl, rfl, rfl⟩
  | ok codec =>
      rcases exists_format_of_selectCodec ofFormats selected with ⟨format, rfl⟩
      have selected' := selections.symm.trans selected
      have exceeds' : server.config.maxBodySize < request'.body.length := lengths ▸ exceeds
      rw [serve_of_exceeds format.wire post selected exceeds,
        serve_of_exceeds format.wire post' selected' exceeds', lengths]
      exact ⟨rfl, rfl, rfl⟩

/-- Whether there is a codec for a content type depends on the content types that there are. -/
theorem selectCodec_eq_error_congr {A' : Application} {server' : Server A'} {request' : Request}
    (keys : ∀ contentType, contentType ∈ server.codecs.keys ↔ contentType ∈ server'.codecs.keys)
    (typed : request.header? "content-type" = request'.header? "content-type")
    {failure : RpcError} (failed : server.selectCodec request = .error failure) :
    server'.selectCodec request' = .error failure := by
  have same : contentTypeOf request = contentTypeOf request' := by
    simp only [contentTypeOf, typed]
  have sizes : server.codecs.size = server'.codecs.size := Table.size_eq_of_mem_keys_iff keys
  rw [selectCodec_eq_error_iff] at failed ⊢
  rw [← same, ← sizes, ← keys]
  exact failed

/-- Rejected requests are not looked into, and nothing happens when they are rejected.

Of two bodies of the same length, sent with the same headers to a server of the formats,
neither is decoded if they are too long, and both are answered alike; a body is too long
only if it is longer than configured.  Requests with the same verb, other than POST, are
answered alike by all servers, and so are requests with the same content type by servers
that register codecs for the same content types, if there is none for it. -/
theorem rejected_requests_stay_unread :
    (∀ (A : Application) (server : Server A),
      (∀ contentType codec, server.codecs.find? contentType = some codec →
        ∃ format : Format, codec = format.wire.codec) →
      (∀ request request' : Request, request.verb = "POST" → request'.verb = "POST" →
        request.headers = request'.headers → request.body.length = request'.body.length →
        server.config.maxBodySize < request.body.length →
        (server.serve request).response = (server.serve request').response ∧
          ∀ rejected ∈ [request, request'],
            (server.serve rejected).server = server ∧ (server.serve rejected).events = []) ∧
      (∀ (request : Request) (codec : Codec), request.verb = "POST" →
        server.selectCodec request = .ok codec →
        ((∃ size limit, (dispatch codec request server (codec.start request).1).outcome =
            .error (.bodyTooLarge size limit)) ↔
          server.config.maxBodySize < request.body.length) ∧
        (.decoded ∈ (server.serve request).events ↔
          request.body.length ≤ server.config.maxBodySize))) ∧
    (∀ (A A' : Application) (server : Server A) (server' : Server A')
        (request request' : Request),
      request.verb = request'.verb → request.verb ≠ "POST" →
      (server.serve request).response = (server'.serve request').response ∧
        (server.serve request).events = [] ∧ (server'.serve request').events = []) ∧
    (∀ (A A' : Application) (server : Server A) (server' : Server A')
        (request request' : Request) (failure : RpcError),
      request.verb = "POST" → request'.verb = "POST" →
      (∀ contentType,
        contentType ∈ server.codecs.keys ↔ contentType ∈ server'.codecs.keys) →
      request.header? "content-type" = request'.header? "content-type" →
      server.selectCodec request = .error failure →
      (server.serve request).response = (server'.serve request').response ∧
        (server.serve request).events = [] ∧ (server'.serve request').events = []) := by
  constructor
  · intro A server ofFormats
    constructor
    · intro request request' post post' headers lengths exceeds
      rcases serve_eq_of_exceeds ofFormats post post' headers lengths exceeds with
        ⟨same, unchanged, nothing⟩
      refine ⟨congrArg Served.response same, ?_⟩
      simp only [List.forall_mem_cons, ← same]
      exact ⟨⟨unchanged, nothing⟩, ⟨unchanged, nothing⟩, by simp⟩
    · intro request codec post selected
      rcases exists_format_of_selectCodec ofFormats selected with ⟨format, rfl⟩
      refine ⟨⟨?_, ?_⟩, decoded_mem_events_iff format.wire post selected⟩
      · rintro ⟨size, limit, tooLong⟩
        by_contra fits
        exact dispatch_admits format.wire (Nat.not_lt.1 fits) _ size limit tooLong
      · intro exceeds
        rw [dispatch_of_exceeds _ _ exceeds]
        exact ⟨_, _, rfl⟩
  constructor
  · intro A A' server server' request request' verbs other
    rw [serve_of_other_verb other, serve_of_other_verb (verbs ▸ other), verbs]
    exact ⟨rfl, rfl, rfl⟩
  · intro A A' server server' request request' failure post post' keys typed failed
    rw [serve_of_no_codec post failed,
      serve_of_no_codec post' (selectCodec_eq_error_congr keys typed failed)]
    exact ⟨rfl, rfl, rfl⟩

/-- A body that is a call, and one that is no text at all, both longer than four octets. -/
theorem rejected_requests_stay_unread_call :
    let A : Application := ⟨Nat, "Nat", 0, "Request", Nat⟩
    let server : Server A := (withConfig ⟨4⟩).registerCodec "text/json" WireFormat.json.codec
    let call : Request := ⟨"POST", [], Ascii.octets "\x7b\"id\":\"a\",\"method\":\"x\"\x7d"⟩
    let noise : Request := ⟨"POST", [], List.replicate 23 0xff⟩
    (WireFormat.json.readCall call.body).toOption.map (fun read => (read.head, read.id.isNull)) =
        some ("x", false) ∧
      server.selectCodec call = .ok WireFormat.json.codec ∧
      (server.serve call).response = (server.serve noise).response ∧
      (server.serve call).events = [] := by
  intro A server call noise
  have ofFormats : ∀ contentType codec, server.codecs.find? contentType = some codec →
      ∃ format : Format, codec = format.wire.codec := by
    intro contentType codec registered
    have entry := List.mem_singleton.1 (Table.find?_eq_some_iff.1 registered)
    exact ⟨.json, congrArg Prod.snd entry⟩
  have untyped : contentTypeOf call = "" := by decide +kernel
  have single : server.codecs.entries = [("text/json", WireFormat.json.codec)] := rfl
  have lengths : call.body.length = noise.body.length := by decide
  have exceeds : server.config.maxBodySize < call.body.length := by decide
  have ⟨same, nothing⟩ := (rejected_requests_stay_unread.1 A server ofFormats).1 call noise rfl
    rfl rfl lengths exceeds
  exact ⟨by decide +kernel, selectCodec_of_single untyped single, same,
    (nothing call List.mem_cons_self).2⟩

end Server

end RemoteCall
