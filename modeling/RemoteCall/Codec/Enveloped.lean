import RemoteCall.Codec.Basic
import RemoteCall.Codec.WireFormat

/-!
# Codecs of envelopes

The codec of a wire format decodes the body at the first question for the
method or the argument, and no earlier: a request that is refused before costs
no decoding, and its response carries no identifier.

A call without an identifier is a notification; its reply is an empty body.
-/

namespace RemoteCall

namespace Envelope

/-- The single argument of a call: the one item of a list, or anything else but null. -/
def singleParam : Value → Except CodecFault Value
  | .null => .error .missingParams
  | .array [v] => .ok v
  | .array items => .error (.paramCount items.length)
  | v => .ok v

/-- The envelope of an answer, as it is written. -/
def answer (result error id : Value) : Datum :=
  .record [("result", .value result), ("error", .value error), ("id", .value id)]

end Envelope

/-- The state of a codec of envelopes: the body, and what decoding it gave. -/
structure Enveloped where
  body : Bytes
  /-- None while the body has not been decoded. -/
  decoded : Option (Except String Call) := none

namespace Enveloped

variable (F : WireFormat)

/-- The state in which the body has been decoded. -/
def decode (state : Enveloped) : Enveloped × List Notice × Except String Call :=
  match state.decoded with
  | some result => (state, [], result)
  | none =>
    let result := (F.readCall state.body).mapError RpcError.detail
    ({ state with decoded := some result }, [.decoded], result)

/-- Decodes the body and answers from the call in it. -/
def ask {α : Type} (answer : Call → Except CodecFault α) (state : Enveloped) :
    Step Enveloped (Except RpcError α) :=
  let (state, notices, result) := state.decode F
  let answer : Except CodecFault α :=
    match result with
    | .ok call => answer call
    | .error detail => .error (.undecodable F.name detail)
  ⟨state, notices, answer.mapError .codec⟩

/-- The identifier that a response carries: that of the call, once it has been decoded. -/
def id (state : Enveloped) : Value :=
  match state.decoded with
  | some (.ok call) => call.id
  | _ => .null

/-- Whether a call without an identifier has been decoded. -/
def isNotification (state : Enveloped) : Bool :=
  match state.decoded with
  | some (.ok call) => call.id.isNull
  | _ => false

/-- A response that carries an envelope. -/
def respond (status : Nat) (envelope : Datum) : Response :=
  match F.write envelope with
  | .ok body => .make status F.contentType body
  | .error failure => .plain 400 failure.message

/-- The response to a call that succeeded. -/
def writeReply (reply : Value) (state : Enveloped) : Response :=
  if state.isNotification then .make 200 F.contentType []
  else respond F 200 (Envelope.answer reply .null state.id)

/-- The response to a call that failed. -/
def writeError (status : Nat) (failure : RpcError) (state : Enveloped) : Response :=
  respond F status (Envelope.answer .null (.string failure.message) state.id)

end Enveloped

/-- The codec of a wire format. -/
def WireFormat.codec (F : WireFormat) : Codec :=
  { State := Enveloped
    start := fun request => ({ body := request.body }, [])
    method := Enveloped.ask F fun call => .ok call.head
    read := Enveloped.ask F fun call => Envelope.singleParam call.body
    writeReply := fun reply state => ⟨state, [], Enveloped.writeReply F reply state⟩
    writeError := fun status failure state =>
      ⟨state, [], Enveloped.writeError F status failure state⟩ }

end RemoteCall
