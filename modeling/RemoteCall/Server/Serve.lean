import RemoteCall.Server.Basic
import RemoteCall.Text.Blank

/-!
# Serving a request

A request passes through stages, and the first stage that fails decides the
response: the verb, the choice of a codec, the length of the body, the name of
the method, its look-up, the hooks before, the argument, the method itself, and
the hooks after.  A `Stage` carries the server and the codec's state along with
what has happened.

Hooks may register things while the request is served.  The codec and the
method are those chosen before any hook has run, and the hooks of a phase are
those registered when the phase begins.
-/

namespace RemoteCall

universe u v

/-- Where a request stands after some stages: the server and the state of the
codec as they are now, what has happened, and the result of the last stage. -/
structure Stage (A : Application) (σ : Type) (α : Type u) where
  server : Server A
  state : σ
  events : List Event
  outcome : Except RpcError α

namespace Stage

variable {A : Application} {σ : Type} {α : Type u} {β : Type v}

/-- Goes on with the next stage, unless one has failed. -/
def andThen (stage : Stage A σ α) (next : Server A → σ → α → Stage A σ β) : Stage A σ β :=
  match stage.outcome with
  | .error failure => { stage with outcome := .error failure }
  | .ok a =>
    let rest := next stage.server stage.state a
    { rest with events := stage.events ++ rest.events }

theorem andThen_of_error {stage : Stage A σ α} {failure : RpcError}
    (failed : stage.outcome = .error failure) (next : Server A → σ → α → Stage A σ β) :
    stage.andThen next = ⟨stage.server, stage.state, stage.events, .error failure⟩ := by
  simp [andThen, failed]

theorem andThen_of_ok {stage : Stage A σ α} {a : α} (done : stage.outcome = .ok a)
    (next : Server A → σ → α → Stage A σ β) :
    stage.andThen next =
      { next stage.server stage.state a with
        events := stage.events ++ (next stage.server stage.state a).events } := by
  simp [andThen, done]

/-- A stage in which only the codec takes part. -/
def ofStep {γ : Type} (server : Server A) (step : Step σ (Except RpcError γ)) :
    Stage A σ γ :=
  ⟨server, step.state, step.events, step.answer⟩

/-- A stage in which nothing happens. -/
def ofResult (server : Server A) (state : σ) (outcome : Except RpcError α) : Stage A σ α :=
  ⟨server, state, [], outcome⟩

end Stage

namespace Server

variable {A : Application}

/-! ## Hooks -/

/-- What a script leaves behind. -/
structure Ran (A : Application) where
  server : Server A
  context : A.Context
  events : List Event
  outcome : Except String Unit

/-- Runs a script on the server. -/
def runScript : Script A → Server A → Ran A
  | .finish context outcome, server => ⟨server, context, [], outcome⟩
  | .note text next, server =>
    let ran := runScript next server
    { ran with events := .note text :: ran.events }
  | .register what next, server =>
    match server.register what with
    | .ok server => runScript (next (.ok ())) server
    | .error failure => runScript (next (.error failure)) server

/-- Runs the hooks of a phase from the given place on, until one fails. -/
def runHooks (phase : Phase) (request : Request) :
    (index : Nat) → List (Hook A) → A.Context → Server A → Ran A
  | _, [], context, server => ⟨server, context, [], .ok ()⟩
  | index, hook :: hooks, context, server =>
    let ran := runScript (hook request context) server
    match ran.outcome with
    | .error _ => { ran with events := .hook phase index :: ran.events }
    | .ok () =>
      let rest := runHooks phase request (index + 1) hooks ran.context ran.server
      { rest with events := .hook phase index :: ran.events ++ rest.events }

/-! ## Stages -/

/-- The text of the content type of a request, without parameters. -/
def contentTypeOf (request : Request) : String :=
  let value := (request.header? "content-type").getD []
  Text.trim (String.ofList ((Utf8.decodeLossy value).toList.takeWhile (· ≠ ';')))

/-- The codec for a request.  Without a content type it is the only codec there is. -/
def selectCodec (server : Server A) (request : Request) : Except RpcError Codec :=
  let contentType := contentTypeOf request
  let named : Except RpcError Codec :=
    match server.codecs.find? (lowerAscii contentType) with
    | some codec => .ok codec
    | none => .error (.unsupportedContentType contentType)
  if contentType = "" then
    match server.codecs.entries with
    | [(_, codec)] => .ok codec
    | _ => named
  else named

/-- The body must not be longer than configured. -/
def checkSize (server : Server A) (request : Request) : Except RpcError Unit :=
  let size := request.body.length
  if server.config.maxBodySize < size then .error (.bodyTooLarge size server.config.maxBodySize)
  else .ok ()

/-- The hooks of a phase, as they are registered when it begins. -/
def runPhase {σ : Type} (phase : Phase) (request : Request) (context : A.Context)
    (server : Server A) (state : σ) : Stage A σ A.Context :=
  let ran := runHooks phase request 0 (server.hooks phase) context server
  ⟨ran.server, state, ran.events,
    match ran.outcome with
    | .error message => .error (.hook message)
    | .ok () => .ok ran.context⟩

/-- The call of a method with an argument; the receiver it leaves is kept. -/
def invoke {σ : Type} (descriptor : Descriptor A) (context : A.Context) (params : Value)
    (server : Server A) (state : σ) : Stage A σ (A.Context × Value) :=
  let called := descriptor.method.call (server.receiverOf descriptor) context params
  let outcome := called.outcome.map fun reply => (called.context, reply)
  match called.notes with
  | none => ⟨server, state, [], outcome⟩
  | some notes =>
    ⟨{ server with receivers := server.receivers.insert descriptor.service called.receiver }, state,
      .called descriptor.service descriptor.name :: notes.map .note, outcome⟩

/-- Everything between the choice of the codec and the writing of the response. -/
def dispatch (codec : Codec) (request : Request) (server : Server A) (state : codec.State) :
    Stage A codec.State Value :=
  (Stage.ofResult server state (server.checkSize request)).andThen fun server state _ =>
  (Stage.ofStep server (codec.method state)).andThen fun server state name =>
  (Stage.ofResult server state (server.registry.get name)).andThen fun server state descriptor =>
  (runPhase .before request A.fresh server state).andThen fun server state context =>
  (Stage.ofStep server (codec.read state)).andThen fun server state params =>
  (invoke descriptor context params server state).andThen fun server state (context, reply) =>
  (runPhase .after request context server state).andThen fun server state _ =>
  Stage.ofResult server state (.ok reply)

/-! ## Responses -/

/-- A served request. -/
structure Served (A : Application) where
  server : Server A
  events : List Event
  response : Response

/-- A response to success says that its content type is to be taken as it is. -/
def noSniff (response : Response) : Response :=
  if response.isSuccess then response.withHeader "x-content-type-options" "nosniff" else response

/-- Serves a request with the codec chosen for it. -/
def serveWith (codec : Codec) (server : Server A) (request : Request) : Served A :=
  let started := codec.start request
  let opening := started.2.map Notice.event
  let stage := dispatch codec request server started.1
  match stage.outcome with
  | .ok reply =>
    let step := codec.writeReply reply stage.state
    ⟨stage.server, opening ++ stage.events ++ step.events, noSniff step.answer⟩
  | .error failure =>
    let step := codec.writeError 400 failure stage.state
    ⟨stage.server, opening ++ stage.events ++ step.events, step.answer⟩

/-- A request that no codec answers. -/
def refuse (server : Server A) (failure : RpcError) : Served A :=
  ⟨server, [], .plain failure.status failure.message⟩

/-- Serves a request. -/
def serve (server : Server A) (request : Request) : Served A :=
  if request.verb ≠ "POST" then server.refuse (.methodNotAllowed request.verb)
  else
    match server.selectCodec request with
    | .error failure => server.refuse failure
    | .ok codec => serveWith codec server request

/-- A request for which there is a codec is served with that codec. -/
theorem serve_of_selected {server : Server A} {request : Request} {codec : Codec}
    (post : request.verb = "POST") (selected : server.selectCodec request = .ok codec) :
    server.serve request = serveWith codec server request := by
  rw [serve, if_neg (not_not_intro post), selected]

end Server

end RemoteCall
