import RemoteCall.Json.Literal
import RemoteCall.Json.Numeral

/-!
# Reading JSON values

`value` reads one value from the front of a text.  Brackets may be nested to a
fixed depth: `room` counts those that may still be opened.  Every loop over
items or members carries a bound that the length of the text never lets it
reach.

`pass` reads a value that nobody wants.  It checks less, knows no depth limit,
and keeps the brackets that are open in a list of its own.
-/

namespace RemoteCall.Json

open Ascii

/-- Whether an octet may stand between tokens. -/
def isBlank (byte : UInt8) : Bool :=
  byte == space || byte == newline || byte == tab || byte == carriageReturn

/-- What follows the blanks in front. -/
def blanks (s : Bytes) : Bytes :=
  s.dropWhile isBlank

/-- What follows the given letters. -/
def word : (letters : Bytes) → Bytes → Except Fault Bytes
  | [], s => .ok s
  | _ :: _, [] => .error (.here .endInValue [])
  | letter :: letters, byte :: rest =>
    if byte = letter then word letters rest else .error (.here .expectedWord rest)

/-- What follows the letters of `null` after the first. -/
def restOfNull : Bytes := octets "ull"

/-- What follows the letters of `true` after the first. -/
def restOfTrue : Bytes := octets "rue"

/-- What follows the letters of `false` after the first. -/
def restOfFalse : Bytes := octets "alse"

/-- What follows a colon. -/
def afterColon (s : Bytes) : Except Fault Bytes :=
  match blanks s with
  | [] => .error (.next .endInObject [])
  | byte :: rest => if byte = colon then .ok rest else .error (.next .expectedColon (byte :: rest))

/-! ## Brackets -/

/-- The items from the next one on, behind those already `done`, latest first. -/
def moreItems {α : Type} (item : Read α) : (bound : Nat) → (done : List α) → Read (List α)
  | 0, _, s => .error (.next .endInList s)
  | bound + 1, done, s => do
    let (v, s) ← item s
    match blanks s with
    | [] => .error (.next .endInList [])
    | closeBracket :: rest => .ok ((v :: done).reverse, rest)
    | comma :: rest =>
      match blanks rest with
      | [] => .error (.next .endInValue [])
      | closeBracket :: rest => .error (.next .trailingComma (closeBracket :: rest))
      | rest => moreItems item bound (v :: done) rest
    | rest => .error (.next .expectedCommaOrBracket rest)

/-- The items after an opening bracket. -/
def items {α : Type} (item : Read α) (bound : Nat) : Read (List α) := fun s =>
  match blanks s with
  | [] => .error (.next .endInList [])
  | closeBracket :: rest => .ok ([], rest)
  | rest => moreItems item bound [] rest

/-- A key and what follows its colon. -/
def key : Read String
  | quote :: rest => do
    let (name, rest) ← text rest
    .ok (name, ← afterColon rest)
  | rest => .error (.next .keyNotText rest)

/-- The members from the next key on, behind those already `done`, latest first. -/
def moreMembers {α : Type} (item : Read α) :
    (bound : Nat) → (done : List (String × α)) → Read (List (String × α))
  | 0, _, s => .error (.next .endInObject s)
  | bound + 1, done, s => do
    let (name, s) ← key s
    let (v, s) ← item s
    match blanks s with
    | [] => .error (.next .endInObject [])
    | closeBrace :: rest => .ok (((name, v) :: done).reverse, rest)
    | comma :: rest =>
      match blanks rest with
      | [] => .error (.next .endInValue [])
      | closeBrace :: rest => .error (.next .trailingComma (closeBrace :: rest))
      | rest => moreMembers item bound ((name, v) :: done) rest
    | rest => .error (.next .expectedCommaOrBrace rest)

/-- The members after an opening brace. -/
def members {α : Type} (item : Read α) (bound : Nat) : Read (List (String × α)) := fun s =>
  match blanks s with
  | [] => .error (.next .endInObject [])
  | closeBrace :: rest => .ok ([], rest)
  | rest => moreMembers item bound [] rest

/-! ## Values -/

/-- A value, given the reader of values inside its brackets, if any may be opened. -/
def valueWith (inner : Option (Read Value)) (bound : Nat) : Read Value := fun s =>
  match blanks s with
  | [] => .error (.next .endInValue [])
  | byte :: rest =>
    if byte = quote then do
      let (chars, rest) ← text rest
      .ok (.string chars, rest)
    else if byte = openBrace then
      match inner with
      | none => .error (.next .tooDeep (byte :: rest))
      | some inner => do
        let (entries, rest) ← members inner bound rest
        .ok (.ofMembers entries, rest)
    else if byte = openBracket then
      match inner with
      | none => .error (.next .tooDeep (byte :: rest))
      | some inner => do
        let (entries, rest) ← items inner bound rest
        .ok (.array entries, rest)
    else if byte = lowerN then do .ok (.null, ← word restOfNull rest)
    else if byte = lowerT then do .ok (.bool true, ← word restOfTrue rest)
    else if byte = lowerF then do .ok (.bool false, ← word restOfFalse rest)
    else if byte = minus ∨ isDigit byte then number (byte :: rest)
    else .error (.next .expectedValue (byte :: rest))

/-- A value with at most `room` brackets open at once. -/
def value (bound : Nat) : (room : Nat) → Read Value
  | 0 => valueWith none bound
  | room + 1 => valueWith (some (value bound room)) bound

/-- How many brackets may be open at once in a text. -/
def deepest : Nat := 127

/-! ## Values that nobody wants -/

/-- An open bracket. -/
inductive Bracket where
  | list
  | object
  deriving DecidableEq

/-- What follows the value that starts here, and then the brackets that are `open`
around it are closed; `bound` bounds the number of values and brackets. -/
def passFrom : (bound : Nat) → (outer : List Bracket) → Bytes → Except Fault Bytes
  | 0, _, s => .error (.next .endInValue s)
  | bound + 1, outer, s =>
    match blanks s with
    | [] => .error (.next .endInValue [])
    | byte :: rest =>
      if byte = quote then do closeBrackets bound outer true (← passString .plain rest)
      else if byte = openBrace then closeBrackets bound (.object :: outer) false rest
      else if byte = openBracket then closeBrackets bound (.list :: outer) false rest
      else if byte = lowerN then do closeBrackets bound outer true (← word restOfNull rest)
      else if byte = lowerT then do closeBrackets bound outer true (← word restOfTrue rest)
      else if byte = lowerF then do closeBrackets bound outer true (← word restOfFalse rest)
      else if byte = minus ∨ isDigit byte then do
        closeBrackets bound outer true (← passNumber (byte :: rest))
      else .error (.next .expectedValue (byte :: rest))
where
  /-- Goes on after a value (`filled`) or after an opening bracket. -/
  closeBrackets : (bound : Nat) → List Bracket → (filled : Bool) → Bytes → Except Fault Bytes
    | _, [], _, s => .ok s
    | 0, _ :: _, _, s => .error (.next .endInValue s)
    | bound + 1, .list :: outer, filled, s =>
      match blanks s with
      | [] => .error (.next .endInList [])
      | closeBracket :: rest => closeBrackets bound outer true rest
      | comma :: rest =>
        if filled then passFrom bound (.list :: outer) rest
        else passFrom bound (.list :: outer) (comma :: rest)
      | rest =>
        if filled then .error (.next .expectedCommaOrBracket rest)
        else passFrom bound (.list :: outer) rest
    | bound + 1, .object :: outer, filled, s =>
      match blanks s with
      | [] => .error (.next .endInObject [])
      | closeBrace :: rest => closeBrackets bound outer true rest
      | comma :: rest =>
        if filled then passMember bound outer (blanks rest)
        else passMember bound outer (comma :: rest)
      | rest =>
        if filled then .error (.next .expectedCommaOrBrace rest)
        else passMember bound outer rest
  /-- Goes on where a key is due. -/
  passMember : (bound : Nat) → List Bracket → Bytes → Except Fault Bytes
    | 0, _, s => .error (.next .endInValue s)
    | bound + 1, outer, s =>
      match s with
      | [] => .error (.next .endInObject [])
      | quote :: rest => do
        passFrom bound (.object :: outer) (← afterColon (← passString .plain rest))
      | rest => .error (.next .keyNotText rest)

/-- What follows a value that nobody wants. -/
def pass (bound : Nat) (s : Bytes) : Except Fault Bytes :=
  passFrom (3 * bound + 3) [] s

/-! ## Whole texts -/

/-- A text that holds what `read` reads and no more; `read` is told the length of the text. -/
def whole {α : Type} (read : (bound : Nat) → Read α) (s : Bytes) : Except Error α :=
  match read s.length s with
  | .error fault => .error (fault.locate s)
  | .ok (v, rest) =>
    match blanks rest with
    | [] => .ok v
    | rest => .error ((Fault.next .trailingCharacters rest).locate s)

/-- The value that a text denotes. -/
def readValue (s : Bytes) : Except Error Value :=
  whole (fun bound => value bound deepest) s

end RemoteCall.Json
