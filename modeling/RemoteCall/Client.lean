import RemoteCall.Codec.WireFormat

/-!
# Clients

A client writes calls, each with an identifier of its own, and reads the
answers.  The identifiers of one client are consecutive, whatever the formats;
a call that cannot be written uses up its identifier too.
-/

namespace RemoteCall

/-- What a client keeps between calls. -/
structure Client where
  /-- The identifier of the next call.  It starts over after `2^64` calls. -/
  nextId : UInt64 := 1

namespace Client

/-- The envelope of a call, as it is written. -/
def call (method : String) (argument : Datum) (id : UInt64) : Datum :=
  .record
    [("method", .string method),
     ("params", .sequence [argument]),
     ("id", .integer (.ofUInt64 id))]

/-- Writes a call of the method with a single argument. -/
def encode (client : Client) (F : WireFormat) (method : String) (argument : Datum) :
    Client × Except RpcError Bytes :=
  ({ client with nextId := client.nextId + 1 }, F.write (call method argument client.nextId))

end Client

/-- What an answer says: an error if it holds one, otherwise its result, read by `read`. -/
def Answer.outcome {α : Type} (answer : Answer) (read : Value → Except Mismatch α) :
    Except RpcError α :=
  match answer.body with
  | .null =>
    if answer.head.isNull then .error .nullResult
    else (read answer.head).mapError fun mismatch => .json (.data mismatch)
  | .string message => .error (.remote message)
  | other => .error (.remote (Json.valueText other))

/-- What the answer in a response body says. -/
def decodeAnswer {α : Type} (F : WireFormat) (read : Value → Except Mismatch α) (body : Bytes) :
    Except RpcError α := do
  let answer ← F.readAnswer body
  answer.outcome read

end RemoteCall
