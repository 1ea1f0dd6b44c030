import RemoteCall.Json.Error
import RemoteCall.MessagePack.Error

/-!
# Failures

Everything that can go wrong, by its cause: registrations that the application
gets refused, requests that the server answers with an error, and what a client
finds in an answer.  `RpcError.message` is the text that travels to the other
side.
-/

namespace RemoteCall

/-- What a codec cannot make sense of in the envelope of a call. -/
inductive CodecFault where
  /-- The body is no envelope of the format. -/
  | undecodable (format detail : String)
  /-- The envelope carries no argument. -/
  | missingParams
  /-- The envelope carries a list of arguments that are not one. -/
  | paramCount (count : Nat)
  /-- What a codec of the application says. -/
  | other (text : String)
  deriving DecidableEq

/-- The text of a codec fault. -/
def CodecFault.message : CodecFault → String
  | undecodable format detail => s!"invalid {format} request: {detail}"
  | missingParams => "method request ill-formed: missing params field"
  | paramCount count => s!"method request ill-formed: expected 1 param, got {count}"
  | other text => text

/-- Why a registration, a request or an answer failed. -/
inductive RpcError where
  /-- Neither an explicit name nor the receiver type gives a service name. -/
  | noServiceName (typeName : String)
  /-- The service name cannot be part of `Service.Method`. -/
  | invalidServiceName (name : String)
  /-- A service of that name is registered already. -/
  | duplicateService (name : String)
  /-- The receiver has no method for the context type of the server. -/
  | noSuitableMethods (name : String)
  /-- A hook declares a parameter of another type than the server's. -/
  | malformedHook (parameter expected found : String)
  /-- The verb of the request is not POST. -/
  | methodNotAllowed (verb : String)
  /-- No codec is registered for the content type. -/
  | unsupportedContentType (contentType : String)
  /-- The method name is not of the form `Service.Method`. -/
  | illFormedMethod (name : String)
  /-- No service has the first part of the method name. -/
  | serviceNotFound (name : String)
  /-- The service has no method of the second part of the method name. -/
  | methodNotFound (name : String)
  /-- The body is longer than the configured limit. -/
  | bodyTooLarge (size limit : Nat)
  /-- The envelope makes no sense to the codec. -/
  | codec (fault : CodecFault)
  /-- JSON that cannot be read or written. -/
  | json (error : Json.Error)
  /-- A datum that cannot be written as MessagePack. -/
  | messagePackEncode (error : MessagePack.Error)
  /-- MessagePack data that cannot be read. -/
  | messagePackDecode (error : MessagePack.Error)
  /-- The argument is not of the type that the method takes. -/
  | invalidParams (mismatch : Mismatch)
  /-- The reply has no neutral form. -/
  | reply (reason : Refusal)
  /-- A hook stopped the request. -/
  | hook (message : String)
  /-- The method failed. -/
  | handler (message : String)
  /-- The other side answered with an error. -/
  | remote (message : String)
  /-- The other side answered with neither a result nor an error. -/
  | nullResult

namespace RpcError

/-- The text of a failure. -/
def message : RpcError → String
  | noServiceName typeName => s!"rpc: no service name for type {Text.quoted typeName}"
  | invalidServiceName name => s!"rpc: invalid service name {Text.quoted name}"
  | duplicateService name => s!"rpc: service {Text.quoted name} already defined"
  | noSuitableMethods name => s!"rpc: {Text.quoted name} has no exported methods of suitable type"
  | malformedHook parameter expected found =>
    s!"rpc: middleware ill-formed: {parameter} parameter is {found}, expected {expected}"
  | methodNotAllowed verb => s!"rpc: POST method required, received {verb}"
  | unsupportedContentType contentType => s!"rpc: unrecognized Content-Type: {contentType}"
  | illFormedMethod name => s!"rpc: service/method request ill-formed: {Text.quoted name}"
  | serviceNotFound name => s!"rpc: can't find service {Text.quoted name}"
  | methodNotFound name => s!"rpc: can't find method {Text.quoted name}"
  | bodyTooLarge size limit =>
    s!"rpc: request body of {size} bytes exceeds limit of {limit} bytes"
  | codec fault => s!"rpc: {fault.message}"
  | json error => s!"rpc: JSON error: {error.message}"
  | messagePackEncode error => s!"rpc: MsgPack encode error: {error.message}"
  | messagePackDecode error => s!"rpc: MsgPack decode error: {error.message}"
  | invalidParams mismatch => s!"rpc: invalid params: {mismatch.message .json}"
  | reply reason => s!"rpc: reply encoding failed: {reason.message}"
  | hook message => message
  | handler message => message
  | remote message => message
  | nullResult => "rpc: unexpected null result"

/-- The text of the fault underneath, without the words put in front of it, where a fault of
reading or writing data is underneath; otherwise the whole text. -/
def detail : RpcError → String
  | json error => error.message
  | messagePackEncode error => error.message
  | messagePackDecode error => error.message
  | failure => failure.message

/-- The status of a response that carries the failure. -/
def status : RpcError → Nat
  | methodNotAllowed _ => 405
  | unsupportedContentType _ => 415
  | _ => 400

end RpcError

end RemoteCall
