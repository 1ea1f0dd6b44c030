import RemoteCall.Data.Datum
import RemoteCall.Failure

/-!
# Methods

An application brings a type of contexts, of which every request gets a fresh
one, and a type of receivers, which carry state from one request to the next.
A method of the application takes both, an argument and a blank reply.  It is
called with a neutral value in place of the argument, and its reply is
converted to one.
-/

namespace RemoteCall

/-- What an application brings to a server. -/
structure Application where
  /-- What hooks and methods share during one request. -/
  Context : Type
  /-- The name of that type, which is also its identity: what is declared for a type of this
  name is declared for this type. -/
  contextType : String
  /-- The context of a new request. -/
  fresh : Context
  /-- The name, and by it the identity, of the type under which hooks take the request. -/
  requestType : String
  /-- What a service keeps between requests. -/
  Receiver : Type

/-- What a run of a method leaves behind. -/
structure Invocation (A : Application) (Reply : Type) where
  receiver : A.Receiver
  context : A.Context
  /-- What the method reports, in order. -/
  notes : List String
  outcome : Except String Reply

/-- A method of an application. -/
structure Method (A : Application) where
  Args : Type
  Reply : Type
  argsType : String
  replyType : String
  decode : Value → Except Mismatch Args
  /-- The reply before the method has filled it in. -/
  blank : Reply
  run : A.Receiver → A.Context → Args → Reply → Invocation A Reply
  encode : Reply → Datum

/-- What a call of a method leaves behind. -/
structure Called (A : Application) where
  receiver : A.Receiver
  context : A.Context
  /-- What the method reported, unless it did not run. -/
  notes : Option (List String)
  outcome : Except RpcError Value

namespace Method

variable {A : Application}

/-- Decodes the argument, runs the method and converts the reply. -/
def call (method : Method A) (receiver : A.Receiver) (context : A.Context) (params : Value) :
    Called A :=
  match method.decode params with
  | .error mismatch => ⟨receiver, context, none, .error (.invalidParams mismatch)⟩
  | .ok args =>
    let run := method.run receiver context args method.blank
    let outcome :=
      match run.outcome with
      | .error message => .error (.handler message)
      | .ok reply => (method.encode reply).toValue.mapError .reply
    ⟨run.receiver, run.context, some run.notes, outcome⟩

end Method

end RemoteCall
