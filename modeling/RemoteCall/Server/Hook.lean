import RemoteCall.Codec.Basic
import RemoteCall.Service.Registry

/-!
# Hooks

A hook sees the request and the context.  What it does is a script: it may
report something and it may register things with the running server, and it
ends with the context as it leaves it and with success or an error.  A hook
cannot look up what the server has, beyond the answers to its own
registrations, and it remembers nothing from one request to the next: its
script depends on the request and the context alone.

Hooks and services declare the types that they are written for by name, and
the name stands for the type: two types are the same if they have one name.
-/

namespace RemoteCall

mutual

/-- What a hook does.  There is no step that asks the server for anything, and none that keeps
anything for later requests. -/
inductive Script (A : Application) : Type 1 where
  /-- Ends, with the context left behind. -/
  | finish (context : A.Context) (outcome : Except String Unit)
  /-- Reports something and goes on. -/
  | note (text : String) (next : Script A)
  /-- Registers something and goes on with the answer. -/
  | register (what : Registration A) (next : Except RpcError Unit → Script A)

/-- What can be registered with a server. -/
inductive Registration (A : Application) : Type 1 where
  /-- A codec for a content type. -/
  | codec (contentType : String) (codec : Codec)
  /-- A service, under a name or its default name. -/
  | service (service : Service A) (name : Option String)
  /-- A hook, with the types that it declares for the request and for the context. -/
  | hook (phase : Phase) (requestType contextType : String)
      (run : Request → A.Context → Script A)

end

instance (A : Application) : Inhabited (Script A) :=
  ⟨.finish A.fresh (.ok ())⟩

/-- A hook of the right types.  It is a function, so that it acts alike whenever the request and
the context are alike. -/
abbrev Hook (A : Application) := Request → A.Context → Script A

/-- Whether a script registers nothing. -/
inductive Script.Quiet {A : Application} : Script A → Prop where
  | finish (context : A.Context) (outcome : Except String Unit) : Quiet (.finish context outcome)
  | note (text : String) {next : Script A} : Quiet next → Quiet (.note text next)

end RemoteCall
