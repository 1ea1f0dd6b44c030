import RemoteCall.Failure
import RemoteCall.Json.Record
import RemoteCall.Json.Writer
import RemoteCall.MessagePack.Record
import RemoteCall.MessagePack.Writer

/-!
# Wire formats

A wire format writes data, and reads values and the two kinds of envelope.
JSON and MessagePack are the formats that come with the library.
-/

namespace RemoteCall

/-- A format of envelopes. -/
structure WireFormat where
  /-- Its name, in messages. -/
  name : String
  /-- The content type of the responses written in it. -/
  contentType : String
  write : Datum → Except RpcError Bytes
  readValue : Bytes → Except RpcError Value
  readCall : Bytes → Except RpcError Call
  readAnswer : Bytes → Except RpcError Answer

namespace WireFormat

/-- JSON texts. -/
def json : WireFormat :=
  { name := "JSON"
    contentType := "application/json; charset=utf-8"
    write := fun d => (Json.writeDatum d).mapError .json
    readValue := fun s => (Json.readValue s).mapError .json
    readCall := fun s => (Json.readCall s).mapError .json
    readAnswer := fun s => (Json.readAnswer s).mapError .json }

/-- MessagePack data. -/
def messagePack : WireFormat :=
  { name := "MsgPack"
    contentType := "application/msgpack"
    write := fun d => (MessagePack.writeDatum d).mapError .messagePackEncode
    readValue := fun s => (MessagePack.readValue s).mapError .messagePackDecode
    readCall := fun s => (MessagePack.readCall s).mapError .messagePackDecode
    readAnswer := fun s => (MessagePack.readAnswer s).mapError .messagePackDecode }

end WireFormat

end RemoteCall
