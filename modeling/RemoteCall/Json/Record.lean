import RemoteCall.Json.Reader
import RemoteCall.Envelope.Basic

/-!
# Reading envelopes from JSON texts

An envelope is an object, whose unknown members are passed over, or a list of
its members in order.  A mismatch of the envelope as a whole (a member that is
missing or comes twice) is reported after the bracket that closes it, or as far
on the way there as the text is well-formed.
-/

namespace RemoteCall.Json

open Ascii Envelope

/-- Why the reading of a record stopped. -/
inductive Stop where
  /-- A fault with a place of its own. -/
  | fault (fault : Fault)
  /-- A mismatch, to be reported where the record ends. -/
  | mismatch (mismatch : Mismatch) (rest : Bytes)

/-- Turns a fault into a reason to stop. -/
def orStop {α : Type} : Except Fault α → Except Stop α
  | .ok v => .ok v
  | .error fault => .error (.fault fault)

/-- A text, and nothing else. -/
def onlyText (bound : Nat) : Read String := fun s =>
  match blanks s with
  | quote :: rest => text rest
  | openBracket :: rest =>
    .error (.here (.mismatch (.type .sequence "a string")) (openBracket :: rest))
  | openBrace :: rest => .error (.here (.mismatch (.type .map "a string")) (openBrace :: rest))
  | rest => do
    let (v, rest) ← valueWith none bound rest
    .error (.here (.mismatch (.type v.found "a string")) rest)

section Members

variable {α : Type} (layout : Layout α) (head : Read α) (other : Read Value)

/-- Reads a member into a draft. -/
def readMember (draft : Draft α) : Member → Read (Draft α)
  | .head, s => do
    let (v, s) ← head s
    .ok ({ draft with head := some v }, s)
  | .body, s => do
    let (v, s) ← other s
    .ok ({ draft with body := some v }, s)
  | .id, s => do
    let (v, s) ← other s
    .ok ({ draft with id := some v }, s)

/-- The rest of an object from the next key on; the closing brace is left. -/
def namedMembers (bound : Nat) : (steps : Nat) → Draft α → Bytes → Except Stop (Draft α × Bytes)
  | 0, _, s => .error (.fault (.next .endInObject s))
  | steps + 1, draft, s =>
    match s with
    | quote :: rest => do
      let (name, s) ← orStop (text rest)
      let (draft, s) ←
        match layout.member? name with
        | none => do .ok (draft, ← orStop (afterColon s >>= pass bound))
        | some member =>
          if draft.has member then .error (.mismatch (.duplicateField name) s)
          else orStop (afterColon s >>= readMember head other draft member)
      match blanks s with
      | [] => .error (.fault (.next .endInObject []))
      | closeBrace :: rest => .ok (draft, closeBrace :: rest)
      | comma :: rest =>
        match blanks rest with
        | [] => .error (.fault (.next .endInValue []))
        | closeBrace :: rest => .error (.fault (.next .trailingComma (closeBrace :: rest)))
        | rest => namedMembers bound steps draft rest
      | rest => .error (.fault (.next .expectedCommaOrBrace rest))
    | rest => .error (.fault (.next .keyNotText rest))

/-- The envelope whose members follow an opening brace; the closing brace is left. -/
def namedEnvelope (bound : Nat) (s : Bytes) : Except Stop (Envelope α × Bytes) := do
  let (draft, s) ←
    match blanks s with
    | [] => .error (.fault (.next .endInObject []))
    | closeBrace :: rest => .ok ({}, closeBrace :: rest)
    | rest => namedMembers layout head other bound bound {} rest
  match draft.finishNamed layout with
  | .ok envelope => .ok (envelope, s)
  | .error m => .error (.mismatch m s)

/-- The members of a list from the next place on, of which a comma has to come
first unless the list has just been opened; the closing bracket is left. -/
def orderedMembers : List Member → (first : Bool) → Draft α → Bytes → Except Stop (Draft α × Bytes)
  | [], _, draft, s => .ok (draft, s)
  | member :: members, first, draft, s =>
    match blanks s with
    | [] => .error (.fault (.next .endInList []))
    | closeBracket :: rest => .ok (draft, closeBracket :: rest)
    | byte :: rest => do
      let s ←
        if first then .ok (byte :: rest)
        else if byte = comma then
          match blanks rest with
          | [] => .error (.fault (.next .endInValue []))
          | closeBracket :: rest => .error (.fault (.next .trailingComma (closeBracket :: rest)))
          | rest => .ok rest
        else .error (.fault (.next .expectedCommaOrBracket (byte :: rest)))
      let (draft, s) ← orStop (readMember head other draft member s)
      orderedMembers members false draft s

/-- The envelope whose members follow an opening bracket; the closing bracket is left. -/
def orderedEnvelope (s : Bytes) : Except Stop (Envelope α × Bytes) := do
  let (draft, s) ← orderedMembers head other [.head, .body, .id] true {} s
  match draft.finishSequence layout with
  | .ok envelope => .ok (envelope, s)
  | .error m => .error (.mismatch m s)

/-- What follows the closing bracket of a list. -/
def afterList (s : Bytes) : Except Fault Bytes :=
  match blanks s with
  | [] => .error (.next .endInList [])
  | closeBracket :: rest => .ok rest
  | comma :: rest =>
    match blanks rest with
    | closeBracket :: rest => .error (.next .trailingComma (closeBracket :: rest))
    | rest => .error (.next .trailingCharacters rest)
  | rest => .error (.next .trailingCharacters rest)

/-- What follows the closing brace of an object. -/
def afterObject (s : Bytes) : Except Fault Bytes :=
  match blanks s with
  | [] => .error (.next .endInObject [])
  | closeBrace :: rest => .ok rest
  | comma :: rest => .error (.next .trailingComma (comma :: rest))
  | rest => .error (.next .trailingCharacters rest)

/-- Closes a record: a mismatch is reported where the attempt to close it ended. -/
def closed (close : Bytes → Except Fault Bytes) :
    Except Stop (Envelope α × Bytes) → Except Fault (Envelope α × Bytes)
  | .ok (envelope, s) => do .ok (envelope, ← close s)
  | .error (.fault fault) => .error fault
  | .error (.mismatch m s) =>
    match close s with
    | .ok rest => .error (.here (.mismatch m) rest)
    | .error fault => .error (.here (.mismatch m) fault.rest)

/-- An envelope. -/
def envelope (bound : Nat) : Read (Envelope α) := fun s =>
  match blanks s with
  | [] => .error (.next .endInValue [])
  | openBracket :: rest => closed afterList (orderedEnvelope layout head other rest)
  | openBrace :: rest => closed afterObject (namedEnvelope layout head other bound rest)
  | rest => do
    let (v, rest) ← valueWith none bound rest
    .error (.here (.mismatch (.type v.found layout.expectation)) rest)

end Members

/-- The values inside an envelope. -/
def memberValue (bound : Nat) : Read Value :=
  value bound (deepest - 1)

/-- The call that a text denotes. -/
def readCall (s : Bytes) : Except Error Call :=
  whole (fun bound => envelope callLayout (onlyText bound) (memberValue bound) bound) s

/-- The answer that a text denotes. -/
def readAnswer (s : Bytes) : Except Error Answer :=
  whole (fun bound => envelope answerLayout (memberValue bound) (memberValue bound) bound) s

end RemoteCall.Json
