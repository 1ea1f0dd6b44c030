import Mathlib.Logic.Relation
import RemoteCall.Proofs.Response
import RemoteCall.Server.Serve

/-!
# The course of a request

The stages of a request as a transition system: a `Moment` says which stage
comes next, what the stages before it have found and what has happened so far.
A stage that succeeds leads to the next moment (`Advances`), a stage that fails
ends the course (`Halts`).  The rules know nothing of how the server chains its
stages; they say for each stage when it succeeds, when it fails, and what it
reports.

Hooks take part by the scripts that they play, and only scripts that register
nothing are played here.
-/

namespace RemoteCall

variable {A : Application}

/-- `Plays script notes context outcome`: the script registers nothing, reports
`notes` in order, and ends with `context` and `outcome`. -/
inductive Script.Plays : Script A → List String → A.Context → Except String Unit → Prop where
  | finish (context : A.Context) (outcome : Except String Unit) :
      Plays (.finish context outcome) [] context outcome
  | note (text : String) {next : Script A} {notes : List String} {context : A.Context}
      {outcome : Except String Unit} :
      Plays next notes context outcome → Plays (.note text next) (text :: notes) context outcome

/-- A script that registers nothing can be played to its end. -/
theorem Script.Quiet.exists_plays {script : Script A} (quiet : script.Quiet) :
    ∃ notes context outcome, script.Plays notes context outcome := by
  induction quiet with
  | finish context outcome => exact ⟨[], context, outcome, .finish context outcome⟩
  | note text _ ih =>
      rcases ih with ⟨notes, context, outcome, plays⟩
      exact ⟨text :: notes, context, outcome, plays.note text⟩

namespace Server

/-- A server none of whose hooks registers anything. -/
def Quiet (server : Server A) : Prop :=
  ∀ phase, ∀ hook ∈ server.hooks phase, ∀ request context, (hook request context).Quiet

/-- The run of a method on the present state of its receiver and a blank reply. -/
def handle (now : Server A) (descriptor : Descriptor A) (context : A.Context)
    (args : descriptor.method.Args) : Invocation A descriptor.method.Reply :=
  descriptor.method.run (now.receiverOf descriptor) context args descriptor.method.blank

/-- The server with the receiver that a method has left behind. -/
def keep (now : Server A) (descriptor : Descriptor A) (receiver : A.Receiver) : Server A :=
  { now with receivers := now.receivers.insert descriptor.service receiver }

@[simp]
theorem keep_hooks (now : Server A) (descriptor : Descriptor A) (receiver : A.Receiver)
    (phase : Phase) : (now.keep descriptor receiver).hooks phase = now.hooks phase := by
  cases phase <;> rfl

/-! ## Moments -/

/-- The stage that a request is about to enter, with what the stages before it
have found. -/
inductive Point (A : Application) : Type 1 where
  /-- The length of the body is checked. -/
  | size
  /-- The codec is asked for the name of the method. -/
  | name
  /-- The method is looked up. -/
  | lookup (name : String)
  /-- The before-hook of that index runs, or they have all run. -/
  | before (descriptor : Descriptor A) (index : Nat) (context : A.Context)
  /-- The codec is asked for the argument. -/
  | argument (descriptor : Descriptor A) (context : A.Context)
  /-- The argument is decoded. -/
  | decoding (descriptor : Descriptor A) (context : A.Context) (params : Value)
  /-- The method runs. -/
  | handler (descriptor : Descriptor A) (context : A.Context) (args : descriptor.method.Args)
  /-- The reply is converted. -/
  | conversion (descriptor : Descriptor A) (context : A.Context)
      (reply : descriptor.method.Reply)
  /-- The after-hook of that index runs, or they have all run. -/
  | after (descriptor : Descriptor A) (index : Nat) (context : A.Context) (reply : Value)
  /-- The response is written. -/
  | encoding (descriptor : Descriptor A) (reply : Value)

/-- A request under way: the next stage, the server and the state of the codec
as they are now, and what has happened so far. -/
structure Moment (A : Application) (σ : Type) where
  point : Point A
  server : Server A
  state : σ
  log : List Event

/-- The first moment after a codec has been chosen. -/
def opening (codec : Codec) (server : Server A) (request : Request) : Moment A codec.State :=
  ⟨.size, server, (codec.start request).1, (codec.start request).2.map Notice.event⟩

/-- What happens when a hook runs. -/
def hookLog (phase : Phase) (index : Nat) (notes : List String) : List Event :=
  .hook phase index :: notes.map .note

/-- What happens when a method runs. -/
def callLog (descriptor : Descriptor A) (notes : List String) : List Event :=
  .called descriptor.service descriptor.name :: notes.map .note

/-- A stage succeeds. -/
inductive Advances (codec : Codec) (request : Request) :
    Moment A codec.State → Moment A codec.State → Prop where
  | size {now state log} :
      request.body.length ≤ now.config.maxBodySize →
      Advances codec request ⟨.size, now, state, log⟩ ⟨.name, now, state, log⟩
  | name {now state log name} :
      (codec.method state).answer = .ok name →
      Advances codec request ⟨.name, now, state, log⟩
        ⟨.lookup name, now, (codec.method state).state, log ++ (codec.method state).events⟩
  | lookup {now state log name descriptor} :
      now.registry.get name = .ok descriptor →
      Advances codec request ⟨.lookup name, now, state, log⟩
        ⟨.before descriptor 0 A.fresh, now, state, log⟩
  | before {now state log descriptor index context hook notes next} :
      (now.hooks .before)[index]? = some hook →
      (hook request context).Plays notes next (.ok ()) →
      Advances codec request ⟨.before descriptor index context, now, state, log⟩
        ⟨.before descriptor (index + 1) next, now, state, log ++ hookLog .before index notes⟩
  | beforeDone {now state log descriptor context} :
      Advances codec request
        ⟨.before descriptor (now.hooks .before).length context, now, state, log⟩
        ⟨.argument descriptor context, now, state, log⟩
  | argument {now state log descriptor context params} :
      (codec.read state).answer = .ok params →
      Advances codec request ⟨.argument descriptor context, now, state, log⟩
        ⟨.decoding descriptor context params, now, (codec.read state).state,
          log ++ (codec.read state).events⟩
  | decoding {now state log descriptor context params args} :
      descriptor.method.decode params = .ok args →
      Advances codec request ⟨.decoding descriptor context params, now, state, log⟩
        ⟨.handler descriptor context args, now, state, log⟩
  | handler {now state log descriptor context args reply} :
      (now.handle descriptor context args).outcome = .ok reply →
      Advances codec request ⟨.handler descriptor context args, now, state, log⟩
        ⟨.conversion descriptor (now.handle descriptor context args).context reply,
          now.keep descriptor (now.handle descriptor context args).receiver, state,
          log ++ callLog descriptor (now.handle descriptor context args).notes⟩
  | conversion {now state log descriptor context reply value} :
      (descriptor.method.encode reply).toValue = .ok value →
      Advances codec request ⟨.conversion descriptor context reply, now, state, log⟩
        ⟨.after descriptor 0 context value, now, state, log⟩
  | after {now state log descriptor index context value hook notes next} :
      (now.hooks .after)[index]? = some hook →
      (hook request context).Plays notes next (.ok ()) →
      Advances codec request ⟨.after descriptor index context value, now, state, log⟩
        ⟨.after descriptor (index + 1) next value, now, state, log ++ hookLog .after index notes⟩
  | afterDone {now state log descriptor context value} :
      Advances codec request
        ⟨.after descriptor (now.hooks .after).length context value, now, state, log⟩
        ⟨.encoding descriptor value, now, state, log⟩

/-- A stage fails, with an error, and leaves the server, the codec and the log behind. -/
inductive Halts (codec : Codec) (request : Request) :
    Moment A codec.State → RpcError → Server A → codec.State → List Event → Prop where
  | size {now state log} :
      now.config.maxBodySize < request.body.length →
      Halts codec request ⟨.size, now, state, log⟩
        (.bodyTooLarge request.body.length now.config.maxBodySize) now state log
  | name {now state log failure} :
      (codec.method state).answer = .error failure →
      Halts codec request ⟨.name, now, state, log⟩ failure
        now (codec.method state).state (log ++ (codec.method state).events)
  | lookup {now state log name failure} :
      now.registry.get name = .error failure →
      Halts codec request ⟨.lookup name, now, state, log⟩ failure now state log
  | before {now state log descriptor index context hook notes next message} :
      (now.hooks .before)[index]? = some hook →
      (hook request context).Plays notes next (.error message) →
      Halts codec request ⟨.before descriptor index context, now, state, log⟩ (.hook message)
        now state (log ++ hookLog .before index notes)
  | argument {now state log descriptor context failure} :
      (codec.read state).answer = .error failure →
      Halts codec request ⟨.argument descriptor context, now, state, log⟩ failure
        now (codec.read state).state (log ++ (codec.read state).events)
  | decoding {now state log descriptor context params mismatch} :
      descriptor.method.decode params = .error mismatch →
      Halts codec request ⟨.decoding descriptor context params, now, state, log⟩
        (.invalidParams mismatch) now state log
  | handler {now state log descriptor context args message} :
      (now.handle descriptor context args).outcome = .error message →
      Halts codec request ⟨.handler descriptor context args, now, state, log⟩ (.handler message)
        (now.keep descriptor (now.handle descriptor context args).receiver) state
        (log ++ callLog descriptor (now.handle descriptor context args).notes)
  | conversion {now state log descriptor context reply reason} :
      (descriptor.method.encode reply).toValue = .error reason →
      Halts codec request ⟨.conversion descriptor context reply, now, state, log⟩ (.reply reason)
        now state log
  | after {now state log descriptor index context value hook notes next message} :
      (now.hooks .after)[index]? = some hook →
      (hook request context).Plays notes next (.error message) →
      Halts codec request ⟨.after descriptor index context value, now, state, log⟩ (.hook message)
        now state (log ++ hookLog .after index notes)

/-- The moments that a request gets to: every stage before has succeeded. -/
def Reaches (codec : Codec) (server : Server A) (request : Request) :
    Moment A codec.State → Prop :=
  Relation.ReflTransGen (Advances codec request) (opening codec server request)

/-- The response to a request, by the first stage that fails: the verb and the
choice of a codec are answered in plain text, every later stage by the codec, and
if no stage fails, the codec writes the reply. -/
inductive Answered (server : Server A) (request : Request) : Served A → Prop where
  | verb {response : Response} :
      request.verb ≠ "POST" →
      response.IsPlainText 405 ("rpc: POST method required, received " ++ request.verb) →
      Answered server request ⟨server, [], response⟩
  | codec {contentType} {response : Response} :
      request.verb = "POST" →
      server.selectCodec request = .error (.unsupportedContentType contentType) →
      response.IsPlainText 415 ("rpc: unrecognized Content-Type: " ++ contentType) →
      Answered server request ⟨server, [], response⟩
  | failed {codec moment failure now state log} :
      request.verb = "POST" →
      server.selectCodec request = .ok codec →
      Reaches codec server request moment →
      Halts codec request moment failure now state log →
      Answered server request
        ⟨now, log ++ (codec.writeError 400 failure state).events,
          (codec.writeError 400 failure state).answer⟩
  | replied {codec descriptor value now state log} {response : Response} :
      request.verb = "POST" →
      server.selectCodec request = .ok codec →
      Reaches codec server request ⟨.encoding descriptor value, now, state, log⟩ →
      response.SentFor (codec.writeReply value state).answer →
      Answered server request
        ⟨now, log ++ (codec.writeReply value state).events, response⟩

/-- A request gets to a stage. -/
def Enters (server : Server A) (request : Request) (point : Point A) : Prop :=
  request.verb = "POST" ∧ ∃ codec, server.selectCodec request = .ok codec ∧
    ∃ now state log, Reaches codec server request ⟨point, now, state, log⟩

end Server

end RemoteCall
