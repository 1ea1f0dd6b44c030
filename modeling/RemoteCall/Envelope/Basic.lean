import RemoteCall.Data.Value
import RemoteCall.Data.Mismatch

/-!
# Envelopes

Calls and answers travel in envelopes of three members.  A call names its
method first, an answer gives the result; parameters or the error come second,
and the identifier that ties an answer to its call comes last.

```text
call:    {"method": "Service.Method", "params": [<argument>], "id": <any>}
answer:  {"result": <reply>, "error": null, "id": <id>}
failure: {"result": null, "error": "<message>", "id": <id>}
```

Members that may be absent are null then, and a null member is as good as an
absent one.
-/

namespace RemoteCall

/-- An envelope whose first member is read as `α`. -/
structure Envelope (α : Type) where
  head : α
  body : Value
  id : Value

/-- A call as it is received: method, parameters, identifier. -/
abbrev Call := Envelope String

/-- An answer as it is received: result, error, identifier. -/
abbrev Answer := Envelope Value

namespace Envelope

/-- One of the members. -/
inductive Member where
  | head
  | body
  | id
  deriving DecidableEq, Repr

/-- The member at a place, counted from zero. -/
def Member.ofIndex? : Nat → Option Member
  | 0 => some .head
  | 1 => some .body
  | 2 => some .id
  | _ => none

/-- The names of an envelope and of its members. -/
structure Layout (α : Type) where
  /-- The name of the record, in messages. -/
  record : String
  head : String
  body : String
  /-- What stands in for an absent first member, unless it is required. -/
  absentHead : Option α

namespace Layout

variable {α : Type} (layout : Layout α)

/-- The member of that name. -/
def member? (name : String) : Option Member :=
  if name = layout.head then some .head
  else if name = layout.body then some .body
  else if name = "id" then some .id
  else none

/-- The name of a member. -/
def nameOf : Member → String
  | .head => layout.head
  | .body => layout.body
  | .id => "id"

/-- What an envelope is called where another kind of data was met. -/
def expectation : String :=
  "struct " ++ layout.record

end Layout

/-- The envelope of a call. -/
def callLayout : Layout String :=
  { record := "ServerRequest", head := "method", body := "params", absentHead := none }

/-- The envelope of an answer. -/
def answerLayout : Layout Value :=
  { record := "Envelope", head := "result", body := "error", absentHead := some .null }

/-- An envelope of which some members have been read. -/
structure Draft (α : Type) where
  head : Option α := none
  body : Option Value := none
  id : Option Value := none

namespace Draft

variable {α : Type}

/-- Whether a member has been read. -/
def has (draft : Draft α) : Member → Bool
  | .head => draft.head.isSome
  | .body => draft.body.isSome
  | .id => draft.id.isSome

/-- The envelope, if its first member has been read or need not be. -/
def finish (layout : Layout α) (draft : Draft α) (missing : Mismatch) :
    Except Mismatch (Envelope α) :=
  match draft.head.or layout.absentHead with
  | some head => .ok ⟨head, draft.body.getD .null, draft.id.getD .null⟩
  | none => .error missing

/-- The envelope made of named members. -/
def finishNamed (layout : Layout α) (draft : Draft α) : Except Mismatch (Envelope α) :=
  draft.finish layout (.missingField layout.head)

/-- The envelope made of members in order. -/
def finishSequence (layout : Layout α) (draft : Draft α) : Except Mismatch (Envelope α) :=
  draft.finish layout (.length 0 (layout.expectation ++ " with 3 elements"))

end Draft

end Envelope

end RemoteCall
