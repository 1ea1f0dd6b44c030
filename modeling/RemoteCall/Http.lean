import RemoteCall.Table
import RemoteCall.Text.Utf8

/-!
# Requests and responses

What a server needs of HTTP: the verb, the headers and the body of a request;
the status, the headers and the body of a response.
-/

namespace RemoteCall

/-- A text with ASCII letters in lower case. -/
def lowerAscii (text : String) : String :=
  String.ofList (text.toList.map Char.toLower)

/-- A request. -/
structure Request where
  verb : String
  /-- Names and values, in the order received. -/
  headers : List (String × Bytes)
  body : Bytes

/-- The first value of a header, whose name may be in any case; `name` is in lower case. -/
def Request.header? (request : Request) (name : String) : Option Bytes :=
  (request.headers.find? fun header => lowerAscii header.1 = name).map Prod.snd

/-- A response.  Header names are in lower case. -/
structure Response where
  status : Nat
  headers : Table String
  body : Bytes

namespace Response

/-- A response whose only header is its content type. -/
def make (status : Nat) (contentType : String) (body : Bytes) : Response :=
  ⟨status, Table.empty.insert "content-type" contentType, body⟩

/-- A plain-text response, where there is no codec to write one. -/
def plain (status : Nat) (message : String) : Response :=
  make status "text/plain; charset=utf-8" (Utf8.encode message)

/-- The response with a header in place of one of that name. -/
def withHeader (response : Response) (name value : String) : Response :=
  { response with headers := response.headers.insert name value }

/-- Whether the status is one of success. -/
def isSuccess (response : Response) : Bool :=
  200 ≤ response.status && response.status < 300

end Response

end RemoteCall
