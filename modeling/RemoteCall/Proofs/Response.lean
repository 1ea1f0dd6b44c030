import RemoteCall.Http

/-!
# What a response delivers

From outside, a response is its status, the value of each of its headers and its
body.  `Delivers` says what these are, whatever the response was made by, and
leaves nothing open: responses that deliver the same are equal.
-/

namespace RemoteCall.Response

/-- A response has this status, these headers and no others, and this body. -/
structure Delivers (response : Response) (status : Nat) (headers : List (String × String))
    (body : Bytes) : Prop where
  status_eq : response.status = status
  header_eq : ∀ name, response.headers.find? name = headers.lookup name
  body_eq : response.body = body

/-- A response is a plain text. -/
def IsPlainText (response : Response) (status : Nat) (text : String) : Prop :=
  response.Delivers status [("content-type", "text/plain; charset=utf-8")] (Utf8.encode text)

/-- A response is what was written, except that one of success says in a header that its
content type is to be taken as it is. -/
structure SentFor (sent written : Response) : Prop where
  status_eq : sent.status = written.status
  header_eq : ∀ name, sent.headers.find? name =
    if name = "x-content-type-options" ∧ 200 ≤ written.status ∧ written.status < 300 then
      some "nosniff"
    else written.headers.find? name
  body_eq : sent.body = written.body

/-! ## Equal responses -/

theorem eq_of_headers {response other : Response} (status : response.status = other.status)
    (headers : ∀ name, response.headers.find? name = other.headers.find? name)
    (body : response.body = other.body) : response = other := by
  have sameHeaders : response.headers = other.headers := Table.ext_find? headers
  rcases response with ⟨_, _, _⟩
  rcases other with ⟨_, _, _⟩
  obtain rfl := status
  obtain rfl := sameHeaders
  obtain rfl := body
  rfl

theorem Delivers.unique {response other : Response} {status : Nat}
    {headers : List (String × String)} {body : Bytes}
    (delivers : response.Delivers status headers body)
    (delivers' : other.Delivers status headers body) : response = other :=
  eq_of_headers (delivers.status_eq.trans delivers'.status_eq.symm)
    (fun name => (delivers.header_eq name).trans (delivers'.header_eq name).symm)
    (delivers.body_eq.trans delivers'.body_eq.symm)

theorem SentFor.unique {written sent sent' : Response} (isSent : sent.SentFor written)
    (isSent' : sent'.SentFor written) : sent = sent' :=
  eq_of_headers (isSent.status_eq.trans isSent'.status_eq.symm)
    (fun name => (isSent.header_eq name).trans (isSent'.header_eq name).symm)
    (isSent.body_eq.trans isSent'.body_eq.symm)

/-! ## The responses that are made -/

/-- A header that is put into a response stands before those of the same name. -/
theorem Delivers.withHeader {response : Response} {status : Nat}
    {headers : List (String × String)} {body : Bytes}
    (delivers : response.Delivers status headers body) (name value : String) :
    (response.withHeader name value).Delivers status ((name, value) :: headers) body := by
  refine ⟨delivers.status_eq, ?_, delivers.body_eq⟩
  intro other
  rw [Response.withHeader, Table.find?_insert, delivers.header_eq]
  by_cases same : other = name
  · simp [same]
  · have differs : (other == name) = false := beq_false_of_ne same
    simp only [if_neg same, List.lookup_cons, differs]

theorem delivers_make (status : Nat) (contentType : String) (body : Bytes) :
    (make status contentType body).Delivers status [("content-type", contentType)] body := by
  have bare : (⟨status, .empty, body⟩ : Response).Delivers status [] body :=
    ⟨rfl, fun _ => rfl, rfl⟩
  exact bare.withHeader "content-type" contentType

theorem isPlainText_plain (status : Nat) (text : String) :
    (plain status text).IsPlainText status text :=
  delivers_make status "text/plain; charset=utf-8" (Utf8.encode text)

theorem IsPlainText.eq_plain {response : Response} {status : Nat} {text : String}
    (told : response.IsPlainText status text) : response = plain status text :=
  Delivers.unique told (delivers_make status "text/plain; charset=utf-8" (Utf8.encode text))

end RemoteCall.Response
