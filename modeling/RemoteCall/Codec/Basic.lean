import RemoteCall.Failure
import RemoteCall.Http

/-!
# Codecs

A codec takes part in a request as a machine: it starts with the request, is
asked for the method and for the argument, and writes the response.  Every
question may change its state.  What a codec reports meanwhile is `Notice`s: it
can neither start a hook nor call a method, so those events are not its to report.

The state belongs to one request.  A codec keeps nothing from one request to the
next, and it sees nothing of the server.
-/

namespace RemoteCall

/-- When a hook runs. -/
inductive Phase where
  /-- Before the argument is read and the method is called. -/
  | before
  /-- After the method has succeeded, before the response is written. -/
  | after
  deriving DecidableEq, Repr

/-- What a codec reports. -/
inductive Notice where
  /-- Something in words. -/
  | note (text : String)
  /-- The body is decoded. -/
  | decoded
  deriving DecidableEq, Repr

/-- What happens while a request is served. -/
inductive Event where
  /-- Something that a codec, a hook or a method reports. -/
  | note (text : String)
  /-- The body is decoded. -/
  | decoded
  /-- A hook starts, by its place in the list of its phase. -/
  | hook (phase : Phase) (index : Nat)
  /-- A method is called. -/
  | called (service method : String)
  deriving DecidableEq, Repr

/-- What a codec reports, among the events of the request. -/
def Notice.event : Notice → Event
  | .note text => .note text
  | .decoded => .decoded

/-- The answer of a machine, with its next state and what it reported meanwhile. -/
structure Step (σ α : Type) where
  state : σ
  notices : List Notice
  answer : α

/-- What happened during a step. -/
def Step.events {σ α : Type} (step : Step σ α) : List Event :=
  step.notices.map Notice.event

/-- A wire format as the server uses it.  Every request starts afresh: nothing of the state of one
request reaches another. -/
structure Codec where
  /-- What is kept between the questions of one request. -/
  State : Type
  start : Request → State × List Notice
  /-- The name of the method, as `Service.Method`. -/
  method : State → Step State (Except RpcError String)
  /-- The argument of the method. -/
  read : State → Step State (Except RpcError Value)
  /-- The response that carries a reply. -/
  writeReply : Value → State → Step State Response
  /-- The response of the given status that carries an error. -/
  writeError : Nat → RpcError → State → Step State Response

end RemoteCall
