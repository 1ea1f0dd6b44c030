import RemoteCall.Proofs.Client
import RemoteCall.Proofs.Codec.Answer
import RemoteCall.Proofs.Server.Simulation

/-!
# The same call in both formats

A call that a client writes once as JSON and once as MessagePack means the same
to a server that knows both formats, provided that its hooks look neither at the
body nor at the content type.  The server does the same in both cases, and the
client hears the same answer.
-/

namespace RemoteCall

/-! ## Codecs side by side -/

namespace Enveloped

/-- Codecs of envelopes that are equally far with bodies that hold the given calls. -/
inductive Abreast (body body' : Bytes) (call call' : Call) : Enveloped → Enveloped → Prop where
  | opened : Abreast body body' call call' ⟨body, none⟩ ⟨body', none⟩
  | decoded : Abreast body body' call call' ⟨body, some (.ok call)⟩ ⟨body', some (.ok call')⟩

variable {F F' : WireFormat} {body body' : Bytes} {call call' : Call}

theorem ask_abreast {α : Type} (readable : F.readCall body = .ok call)
    (readable' : F'.readCall body' = .ok call') {answer : Call → Except CodecFault α}
    (same : answer call = answer call') {state state' : Enveloped}
    (states : Abreast body body' call call' state state') :
    Abreast body body' call call' (ask F answer state).state (ask F' answer state').state ∧
      (ask F answer state).notices = (ask F' answer state').notices ∧
      (ask F answer state).answer = (ask F' answer state').answer := by
  cases states with
  | opened =>
      rw [ask_opened readable, ask_opened readable', same]
      exact ⟨.decoded, rfl, rfl⟩
  | decoded =>
      rw [ask_decoded, ask_decoded, same]
      exact ⟨.decoded, rfl, rfl⟩

/-- Codecs answer alike if their calls differ in nothing but the identifier. -/
theorem simulates_of_abreast (readable : F.readCall body = .ok call)
    (readable' : F'.readCall body' = .ok call') (head_eq : call.head = call'.head)
    (body_eq : call.body = call'.body) :
    F.codec.Simulates F'.codec (Abreast body body' call call') where
  method states := by
    apply ask_abreast readable readable' _ states
    rw [head_eq]
  read states := by
    apply ask_abreast readable readable' _ states
    rw [body_eq]

end Enveloped

/-! ## Responses -/

namespace Server

theorem noSniff_body (response : Response) : (noSniff response).body = response.body := by
  unfold noSniff
  split <;> rfl

theorem noSniff_status (response : Response) : (noSniff response).status = response.status := by
  unfold noSniff
  split <;> rfl

end Server

/-- What a client hears of an outcome. -/
def heard : Except RpcError Value → Except RpcError Value
  | .ok reply => if reply.isNull then .error .nullResult else .ok reply
  | .error failure => .error (.remote failure.message)

/-- Whether both formats carry what has to be said of an outcome.  A reply has to be free of
floating-point numbers, nested at most 120 deep and made of texts, lists and maps shorter than
`2^32`; of a failure, the text has to be shorter than `2^32` octets. -/
def Travels : Except RpcError Value → Prop
  | .ok reply => reply.Ordered ∧ reply.FloatFree ∧ reply.Short ∧ reply.depth ≤ 120
  | .error failure => (Utf8.encode failure.message).length < Value.lengthBound

namespace Enveloped

/-- The response to a request that has come to an outcome. -/
def conclude (F : WireFormat) (outcome : Except RpcError Value) (state : Enveloped) : Response :=
  match outcome with
  | .ok reply => Server.noSniff (writeReply F reply state)
  | .error failure => writeError F 400 failure state

theorem writeReply_of_asked (F : WireFormat) (reply : Value) {state : Enveloped}
    (asked : state.isNotification = false) :
    writeReply F reply state = respond F 200 (Envelope.answer reply .null state.id) := by
  simp [writeReply, asked]

/-- Answers can always be written. -/
theorem respond_status (format : Format) (status : Nat) (result error id : Value) :
    (respond format.wire status (Envelope.answer result error id)).status = status := by
  cases format <;> rfl

/-- The status says whether there is a reply, whatever the format. -/
theorem conclude_status (format : Format) (outcome : Except RpcError Value) {state : Enveloped}
    (asked : state.isNotification = false) :
    (conclude format.wire outcome state).status = if outcome.isOk then 200 else 400 := by
  cases outcome with
  | ok reply =>
      rw [conclude, Server.noSniff_status, writeReply_of_asked format.wire reply asked,
        respond_status]
      rfl
  | error failure => exact respond_status format 400 _ _ _

/-- A client hears of an outcome that travels what there is to hear, unless the call
is a notification. -/
theorem decodeAnswer_conclude (format : Format) {state : Enveloped}
    (asked : state.isNotification = false) (idOrdered : state.id.Ordered)
    (fitsId : format.Fits state.id) {outcome : Except RpcError Value} (travels : Travels outcome) :
    decodeAnswer format.wire .ok (conclude format.wire outcome state).body = heard outcome := by
  cases outcome with
  | ok reply =>
      rcases travels with ⟨ordered, floatFree, short, shallow⟩
      have fitsReply := format.fits_of_plain floatFree short (Nat.le_succ_of_le shallow)
      have answer := (exists_respond 200 ⟨ordered, fitsReply⟩ format.givesBack_null
        ⟨idOrdered, fitsId⟩).1
      rw [conclude, Server.noSniff_body, writeReply_of_asked format.wire reply asked]
      exact decodeAnswer_of_reply answer
  | error failure =>
      have givesMessage := Format.givesBack_string (format.fits_string travels)
      have answer := (exists_respond 400 format.givesBack_null givesMessage
        ⟨idOrdered, fitsId⟩).1
      exact decodeAnswer_of_error answer .ok

theorem Abreast.symm {body body' : Bytes} {call call' : Call} {state state' : Enveloped}
    (states : Abreast body body' call call' state state') :
    Abreast body' body call' call state' state := by
  cases states with
  | opened => exact .opened
  | decoded => exact .decoded

/-- A call with an identifier of a client gets a response, and one that can be written. -/
theorem Abreast.addressed (format : Format) {body body' : Bytes} {call call' : Call} {id : UInt64}
    (numbered : call.id = Client.idValue id) {state state' : Enveloped}
    (states : Abreast body body' call call' state state') :
    state.isNotification = false ∧ state.id.Ordered ∧ format.Fits state.id := by
  cases states with
  | opened => exact ⟨rfl, .of_scalar rfl trivial, format.fits_null⟩
  | decoded =>
      have same : Enveloped.id ⟨body, some (.ok call)⟩ = Client.idValue id := numbered
      rw [same]
      constructor
      · simp [isNotification, numbered, Client.idValue, Value.isNull]
      · exact ⟨.of_scalar rfl trivial, format.fits_integer _⟩

end Enveloped

/-! ## Serving -/

namespace Server

variable {A : Application}

/-- A request with a registered content type is served by the codec for it. -/
theorem serve_eq_serveWith {server : Server A} {request : Request} {contentType : String}
    {codec : Codec} (post : request.verb = "POST")
    (typed : lowerAscii (contentTypeOf request) = contentType) (nonempty : contentType ≠ "")
    (registered : server.codecs.find? contentType = some codec) :
    server.serve request = serveWith codec server request := by
  have present : contentTypeOf request ≠ "" := by
    intro absent
    rw [absent] at typed
    exact nonempty typed.symm
  have selected : server.selectCodec request = .ok codec := by
    simp only [selectCodec, if_neg present, typed, registered]
  exact serve_of_selected post selected

/-- What serving a request with the codec of a format comes to. -/
theorem serveWith_codec (F : WireFormat) (server : Server A) (request : Request) :
    let stage := dispatch F.codec request server (⟨request.body, none⟩ : Enveloped)
    serveWith F.codec server request
      = ⟨stage.server, stage.events, Enveloped.conclude F stage.outcome stage.state⟩ := by
  intro stage
  have opened : dispatch F.codec request server (F.codec.start request).1 = stage := rfl
  cases outcome : stage.outcome with
  | ok reply =>
      simp only [serveWith, opened, outcome, Enveloped.conclude]
      simp [WireFormat.codec, Step.events]
  | error failure =>
      simp only [serveWith, opened, outcome, Enveloped.conclude]
      simp [WireFormat.codec, Step.events]

/-- A call of a client, written in both formats and served by the same server with
blind hooks, leaves the same server, has the same events and the same status, and
comes to the same outcome.  Of an outcome that both formats carry, the client hears
the same from both responses.

Method and argument have to be such that both formats carry the call: the method is
shorter than `2^32` octets, and the argument is bounded as a reply is in `Travels`. -/
theorem serve_alike_in_both_formats {server : Server A}
    (json : server.codecs.find? "application/json" = some WireFormat.json.codec)
    (messagePack : server.codecs.find? "application/msgpack" = some WireFormat.messagePack.codec)
    (blind : server.Blind) {method : String}
    (methodShort : (Utf8.encode method).length < Value.lengthBound) {argument : Value}
    (ordered : argument.Ordered) (floatFree : argument.FloatFree) (short : argument.Short)
    (shallow : argument.depth ≤ 120) {client client' : Client} {request request' : Request}
    (written : (client.encode .json method (.value argument)).2 = .ok request.body)
    (written' : (client'.encode .messagePack method (.value argument)).2 = .ok request'.body)
    (post : request.verb = "POST") (agrees : request.AgreesWith request')
    (typed : lowerAscii (contentTypeOf request) = "application/json")
    (typed' : lowerAscii (contentTypeOf request') = "application/msgpack")
    (fits : request.body.length ≤ server.config.maxBodySize)
    (fits' : request'.body.length ≤ server.config.maxBodySize) :
    (server.serve request).server = (server.serve request').server ∧
    (server.serve request).events = (server.serve request').events ∧
    (server.serve request).response.status = (server.serve request').response.status ∧
    ∃ outcome,
      (dispatch WireFormat.json.codec request server
          (WireFormat.json.codec.start request).1).outcome = outcome ∧
      (dispatch WireFormat.messagePack.codec request' server
          (WireFormat.messagePack.codec.start request').1).outcome = outcome ∧
      (Travels outcome →
        decodeAnswer .json .ok (server.serve request).response.body = heard outcome ∧
        decodeAnswer .messagePack .ok (server.serve request').response.body = heard outcome) := by
  have plain (format : Format) : (Outgoing.mk format method (.value argument)).Plain :=
    Outgoing.plain_of_depth_le methodShort (.value ordered) floatFree short shallow
  have readable : WireFormat.json.readCall request.body
      = .ok ⟨method, .array [argument.normal], Client.idValue client.nextId⟩ :=
    Client.readCall_of_encode (plain .json) written
  have readable' : WireFormat.messagePack.readCall request'.body
      = .ok ⟨method, .array [argument.normal], Client.idValue client'.nextId⟩ :=
    Client.readCall_of_encode (plain .messagePack) written'
  let stage := dispatch WireFormat.json.codec request server (⟨request.body, none⟩ : Enveloped)
  let stage' :=
    dispatch WireFormat.messagePack.codec request' server (⟨request'.body, none⟩ : Enveloped)
  have alike : Stage.Alike _ stage stage' :=
    dispatch_alike (Enveloped.simulates_of_abreast readable readable' rfl rfl) agrees blind fits
      fits' Enveloped.Abreast.opened
  have served : server.serve request
      = ⟨stage.server, stage.events, Enveloped.conclude .json stage.outcome stage.state⟩ :=
    (serve_eq_serveWith post typed (by decide) json).trans (serveWith_codec .json server request)
  have served' : server.serve request'
      = ⟨stage'.server, stage'.events,
          Enveloped.conclude .messagePack stage'.outcome stage'.state⟩ :=
    (serve_eq_serveWith (agrees.verb_eq ▸ post) typed' (by decide) messagePack).trans
      (serveWith_codec .messagePack server request')
  rcases alike.related.addressed .json rfl with ⟨asked, idOrdered, fitsId⟩
  rcases alike.related.symm.addressed .messagePack rfl with ⟨asked', idOrdered', fitsId'⟩
  have outcomes : stage.outcome = stage'.outcome := alike.outcome_eq
  rw [served, served']
  refine ⟨alike.server_eq, alike.events_eq, ?_, stage.outcome, rfl, outcomes.symm, ?_⟩
  · calc (Enveloped.conclude .json stage.outcome stage.state).status
        = (if stage.outcome.isOk then 200 else 400) :=
          Enveloped.conclude_status .json stage.outcome asked
      _ = (if stage'.outcome.isOk then 200 else 400) := by rw [outcomes]
      _ = (Enveloped.conclude .messagePack stage'.outcome stage'.state).status :=
          (Enveloped.conclude_status .messagePack stage'.outcome asked').symm
  · intro travels
    have hears := Enveloped.decodeAnswer_conclude .json asked idOrdered fitsId travels
    have hears' := Enveloped.decodeAnswer_conclude .messagePack asked' idOrdered' fitsId'
      (outcomes ▸ travels)
    exact ⟨hears, hears'.trans (congrArg heard outcomes.symm)⟩

/-- A call of a method that gives back its argument, behind a hook that reports the verb. -/
theorem serve_alike_in_both_formats_echo :
    let A : Application := ⟨Nat, "Nat", 0, "Request", Nat⟩
    let echo : Method A :=
      ⟨Value, Value, "Value", "Value", .ok, .null,
        fun calls context argument _ => ⟨calls + 1, context, ["echo"], .ok argument⟩, .value⟩
    let server : Server A :=
      { ((Server.new : Server A).registerCodec "application/json"
          WireFormat.json.codec).registerCodec "application/msgpack"
            WireFormat.messagePack.codec with
        registry := ⟨Table.empty.insert "Echo"
          (Table.empty.insert "Same" ⟨"Echo", "Same", 0, (0 : Nat), echo⟩)⟩
        before := [fun request seen => .note request.verb (.finish (seen + 1) (.ok ()))] }
    let argument : Value := .array [.null, .integer ⟨-3, by decide, by decide⟩]
    let json : Request :=
      ⟨"POST", [("Content-Type", Ascii.octets "application/json")],
        Ascii.octets "\x7b\"method\":\"Echo.Same\",\"params\":[[null,-3]],\"id\":1\x7d"⟩
    let messagePack : Request :=
      ⟨"POST", [("content-type", Ascii.octets "Application/MsgPack")],
        [131, 166, 109, 101, 116, 104, 111, 100, 169, 69, 99, 104, 111, 46, 83, 97, 109, 101,
          166, 112, 97, 114, 97, 109, 115, 145, 146, 192, 253, 162, 105, 100, 1]⟩
    (server.serve json).server = (server.serve messagePack).server ∧
    (server.serve json).events = (server.serve messagePack).events ∧
    decodeAnswer .json .ok (server.serve json).response.body = .ok argument ∧
    decodeAnswer .messagePack .ok (server.serve messagePack).response.body = .ok argument := by
  intro A echo server argument json messagePack
  have scalar {P : Value → Prop} (null : P .null)
      (integer : P (.integer ⟨-3, by decide, by decide⟩)) :
      ∀ item ∈ [Value.null, .integer ⟨-3, by decide, by decide⟩], P item := by
    simp only [List.forall_mem_cons]
    exact ⟨null, integer, by simp⟩
  have ordered : argument.Ordered :=
    .of_array trivial (scalar (.of_scalar rfl trivial) (.of_scalar rfl trivial))
  have floatFree : argument.FloatFree :=
    .of_array trivial (scalar (.of_scalar rfl trivial) (.of_scalar rfl trivial))
  have short : argument.Short :=
    .of_array (by decide : 2 < Value.lengthBound)
      (scalar (.of_scalar rfl trivial) (.of_scalar rfl trivial))
  have blind : server.Blind := by
    intro phase hook mem
    cases phase with
    | before =>
        rcases List.mem_singleton.1 mem with rfl
        constructor
        · intro request request' agrees context
          exact congrArg (Script.note · _) agrees.verb_eq
        · intro request context
          exact .note _ (.finish _ _)
    | after => cases mem
  have written : (({} : Client).encode .json "Echo.Same" (.value argument)).2 = .ok json.body := rfl
  have written' : (({} : Client).encode .messagePack "Echo.Same" (.value argument)).2
      = .ok messagePack.body := rfl
  obtain ⟨servers, events, -, outcome, came, -, heard⟩ :=
    @serve_alike_in_both_formats A server rfl rfl blind "Echo.Same" (by decide) argument ordered
      floatFree short (by decide) {} {} json messagePack written written' rfl ⟨rfl, rfl⟩
      (by decide +kernel) (by decide +kernel) (by decide) (by decide)
  have comes (F : WireFormat) (request : Request) (id : Value)
      (size : server.checkSize request = .ok ())
      (readable : F.readCall request.body = .ok ⟨"Echo.Same", .array [argument], id⟩) :
      (dispatch F.codec request server (⟨request.body, none⟩ : Enveloped)).outcome
        = .ok argument := by
    have asks : Enveloped.ask F (fun call => .ok call.head) ⟨request.body, none⟩
        = ⟨⟨request.body, some (.ok ⟨"Echo.Same", .array [argument], id⟩)⟩, [.decoded],
            .ok "Echo.Same"⟩ :=
      Enveloped.ask_opened readable _
    have found : server.registry.get "Echo.Same" = .ok ⟨"Echo", "Same", 0, (0 : Nat), echo⟩ := rfl
    simp only [dispatch, WireFormat.codec, Stage.ofResult, Stage.ofStep, size, Stage.andThen, asks,
      found]
    rfl
  have plain : (Outgoing.mk .json "Echo.Same" (.value argument)).Plain :=
    Outgoing.plain_of_depth_le (by decide) (.value ordered) floatFree short (by decide)
  obtain rfl : outcome = .ok argument :=
    came.symm.trans (comes .json json _ rfl (Client.readCall_of_encode plain written))
  exact ⟨servers, events, heard ⟨ordered, floatFree, short, by decide⟩⟩

end Server

end RemoteCall
