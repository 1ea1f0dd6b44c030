import RemoteCall.Json.Record
import RemoteCall.Proofs.Envelope.Projection
import RemoteCall.Proofs.Json.Passing

/-!
# Envelopes in JSON texts as parts of values

A text that denotes a value is read as the envelope that this value is, and as no
envelope if the value is none.
-/

namespace RemoteCall.Json

open Ascii Envelope

/-! ## Members -/

section Members

variable {α : Type} {layout : Layout α} {accept : Value → Option α} {head : Read α}
  {other : Read Value} {bound : Nat}

/-- Whether a reader reads what another reads, as far as that is accepted. -/
def Selects (accept : Value → Option α) (head : Read α) (other : Read Value) : Prop :=
  ∀ s v rest, other s = .ok (v, rest) → (head s).toOption = (accept v).map fun a => (a, rest)

theorem orStop_toOption {β : Type} (read : Except Fault β) :
    (orStop read).toOption = read.toOption := by
  cases read <;> rfl

theorem readMember_toOption (selects : Selects accept head other) {s rest : Bytes} {v : Value}
    (read : other s = .ok (v, rest)) (draft : Draft α) (member : Member) :
    (readMember head other draft member s).toOption
      = (draft.put? accept member v).map fun filled => (filled, rest) := by
  cases member with
  | head =>
      have first := selects s v rest read
      rw [readMember, toOption_bind, first, Draft.put?]
      cases accept v <;> rfl
  | body =>
      simp only [readMember, read, bind, Except.bind]
      rfl
  | id =>
      simp only [readMember, read, bind, Except.bind]
      rfl

/-- Reads what belongs to a key into a draft. -/
def readNamed (layout : Layout α) (head : Read α) (other : Read Value) (bound : Nat)
    (draft : Draft α) (name : String) (s : Bytes) : Except Stop (Draft α × Bytes) :=
  match layout.member? name with
  | none => do .ok (draft, ← orStop (afterColon s >>= pass bound))
  | some member =>
    if draft.has member then .error (.mismatch (.duplicateField name) s)
    else orStop (afterColon s >>= readMember head other draft member)

/-- Goes on after a member. -/
def nextNamed (layout : Layout α) (head : Read α) (other : Read Value) (bound steps : Nat)
    (read : Draft α × Bytes) : Except Stop (Draft α × Bytes) :=
  match blanks read.2 with
  | [] => .error (.fault (.next .endInObject []))
  | closeBrace :: rest => .ok (read.1, closeBrace :: rest)
  | comma :: rest =>
    match blanks rest with
    | [] => .error (.fault (.next .endInValue []))
    | closeBrace :: rest => .error (.fault (.next .trailingComma (closeBrace :: rest)))
    | rest => namedMembers layout head other bound steps read.1 rest
  | rest => .error (.fault (.next .expectedCommaOrBrace rest))

theorem namedMembers_quote (steps : Nat) (draft : Draft α) {name : String} {rest s : Bytes}
    (named : text rest = .ok (name, s)) :
    namedMembers layout head other bound (steps + 1) draft (quote :: rest)
      = readNamed layout head other bound draft name s
          >>= nextNamed layout head other bound steps := by
  conv => lhs; unfold namedMembers
  split
  next same =>
      obtain ⟨-, rfl⟩ := List.cons.inj same
      simp only [named, orStop, bind, Except.bind, readNamed]
      cases layout.member? name with
      | none =>
          simp only
          split <;> rfl
      | some member =>
          simp only
          split
          · rfl
          · split <;> rfl
  next other => exact absurd rfl (other _)

theorem readNamed_toOption (selects : Selects accept head other) {s content after : Bytes}
    {name : String} {v : Value} (colonRead : afterColon s = .ok content)
    (passed : pass bound content = .ok after) (read : other content = .ok (v, after))
    (draft : Draft α) :
    (readNamed layout head other bound draft name s).toOption
      = (draft.putNamed? layout accept (name, v)).map fun filled => (filled, after) := by
  unfold readNamed Draft.putNamed?
  cases layout.member? name with
  | none => simp only [colonRead, bind, Except.bind, passed, orStop, Except.toOption, Option.map]
  | some member =>
      simp only
      split
      · rfl
      · rw [orStop_toOption, toOption_bind, colonRead]
        exact readMember_toOption selects read draft member

/-- What is read as the members of an object fills a draft, member by member. -/
theorem namedMembers_toOption (selects : Selects accept head (memberValue bound)) {steps : Nat}
    {done ms : List (String × Value)} {s rest : Bytes}
    (read : moreMembers (memberValue bound) steps done s = .ok (ms, rest))
    (long : s.length ≤ bound) :
    ∃ later, ms = done.reverse ++ later ∧ ∀ draft,
      (namedMembers layout head (memberValue bound) bound steps draft s).toOption
        = (later.foldlM (Draft.putNamed? layout accept) draft).map
            fun filled => (filled, closeBrace :: rest) := by
  induction steps generalizing done s with
  | zero => cases read
  | succ steps ih =>
      simp only [moreMembers, bind, Except.bind] at read
      split at read
      next => cases read
      next named keyRead =>
      rcases named with ⟨name, content⟩
      simp only at read
      split at read
      next => cases read
      next first firstRead =>
      rcases first with ⟨v, after⟩
      have keyShorter := length_lt_of_key keyRead
      have valueShorter := length_lt_of_value firstRead
      obtain ⟨tail, middle, rfl, textRead, colonRead⟩ := exists_of_key keyRead
      have passed : pass bound content = .ok after := pass_of_value firstRead (by omega)
      have begun (draft : Draft α) :
          (namedMembers layout head (memberValue bound) bound (steps + 1) draft
              (quote :: tail)).toOption
            = (draft.putNamed? layout accept (name, v)).bind fun filled =>
                (nextNamed layout head (memberValue bound) bound steps
                  (filled, after)).toOption := by
        rw [namedMembers_quote steps draft textRead, toOption_bind,
          readNamed_toOption selects colonRead passed firstRead, Option.bind_map]
        rfl
      simp only at read
      split at read
      next => cases read
      next closing shape =>
          obtain ⟨rfl, rfl⟩ := Prod.mk.inj (Except.ok.inj read)
          refine ⟨[(name, v)], by simp, fun draft => ?_⟩
          rw [begun]
          simp only [nextNamed, shape]
          cases put : draft.putNamed? layout accept (name, v) <;> simp [put, Except.toOption]
      next following shape =>
          have shorter := length_lt_of_blanks shape
          have blanksShorter := length_blanks_le following
          split at read
          next => cases read
          next => cases read
          next notEmpty notClosing =>
              obtain ⟨later, rfl, goesOn⟩ := ih read (by omega)
              refine ⟨(name, v) :: later, by simp, fun draft => ?_⟩
              rw [begun, List.foldlM_cons]
              have next (filled : Draft α) :
                  nextNamed layout head (memberValue bound) bound steps (filled, after)
                    = namedMembers layout head (memberValue bound) bound steps filled
                        (blanks following) := by
                simp only [nextNamed, shape]
              simp only [next, goesOn]
              cases draft.putNamed? layout accept (name, v) <;> rfl
      next => cases read

/-- Finishes a draft whose members have been read. -/
def finished (finish : Draft α → Except Mismatch (Envelope α)) (read : Draft α × Bytes) :
    Except Stop (Envelope α × Bytes) :=
  match finish read.1 with
  | .ok envelope => .ok (envelope, read.2)
  | .error m => .error (.mismatch m read.2)

/-- The draft that has been read, if the record is closed behind it, and what follows. -/
def closing (close : Bytes → Except Fault Bytes) (read : Except Stop (Draft α × Bytes)) :
    Option (Draft α × Bytes) :=
  read.toOption.bind fun filled => (close filled.2).toOption.map fun rest => (filled.1, rest)

theorem closed_toOption (close : Bytes → Except Fault Bytes)
    (read : Except Stop (Draft α × Bytes)) (finish : Draft α → Except Mismatch (Envelope α)) :
    (closed close (read >>= finished finish)).toOption
      = (closing close read).bind fun filled =>
          (finish filled.1).toOption.map fun envelope => (envelope, filled.2) := by
  cases read with
  | error stop =>
      cases stop with
      | fault fault => rfl
      | mismatch m s =>
          simp only [bind, Except.bind, closed]
          split <;> rfl
  | ok filled =>
      rcases filled with ⟨draft, s⟩
      simp only [bind, Except.bind, finished, closing]
      cases made : finish draft with
      | ok envelope =>
          simp only [closed, bind, Except.bind]
          cases after : close s <;> simp [made, after, Except.toOption]
      | error m =>
          simp only [closed]
          cases after : close s <;> simp [made, after, Except.toOption]

/-- The members after an opening brace, read into a draft. -/
def startNamed (layout : Layout α) (head : Read α) (other : Read Value) (bound : Nat) (s : Bytes) :
    Except Stop (Draft α × Bytes) :=
  match blanks s with
  | [] => .error (.fault (.next .endInObject []))
  | closeBrace :: rest => .ok ({}, closeBrace :: rest)
  | rest => namedMembers layout head other bound bound {} rest

section

variable (layout head other bound) {s : Bytes}

theorem startNamed_of_nil (shape : blanks s = []) :
    startNamed layout head other bound s = .error (.fault (.next .endInObject [])) := by
  simp only [startNamed, shape]

theorem startNamed_of_closing {rest : Bytes} (shape : blanks s = closeBrace :: rest) :
    startNamed layout head other bound s = .ok ({}, closeBrace :: rest) := by
  unfold startNamed
  rw [shape]
  rfl

theorem startNamed_of_first (notEmpty : blanks s ≠ [])
    (notClosing : ∀ rest, blanks s ≠ closeBrace :: rest) :
    startNamed layout head other bound s
      = namedMembers layout head other bound bound {} (blanks s) := by
  unfold startNamed
  split
  next shape => exact absurd shape notEmpty
  next shape => exact absurd shape (notClosing _)
  next => rfl

theorem namedEnvelope_eq (s : Bytes) :
    namedEnvelope layout head other bound s
      = startNamed layout head other bound s >>= finished (·.finishNamed layout) := by
  unfold namedEnvelope
  split
  next shape =>
      rw [startNamed_of_nil layout head other bound shape]
      rfl
  next shape =>
      rw [startNamed_of_closing layout head other bound shape]
      rfl
  next notEmpty notClosing =>
      rw [startNamed_of_first layout head other bound notEmpty notClosing]
      rfl

end

/-- An object that is read as a value is read as the envelope that its members make up. -/
theorem namedEnvelope_toOption (selects : Selects accept head (memberValue bound))
    (distinct : layout.Distinct) {ms : List (String × Value)} {s rest : Bytes}
    (read : members (memberValue bound) bound s = .ok (ms, rest)) (long : s.length ≤ bound)
    (once : ∀ member, (ms.map Prod.fst).count (layout.nameOf member) ≤ 1) :
    (closed afterObject (namedEnvelope layout head (memberValue bound) bound s)).toOption
      = (layout.ofValue? accept (.ofMembers ms)).map fun envelope => (envelope, rest) := by
  have found : (startNamed layout head (memberValue bound) bound s).toOption
      = (ms.foldlM (Draft.putNamed? layout accept) {}).map
          fun filled => (filled, closeBrace :: rest) := by
    unfold members at read
    split at read
    next => cases read
    next shape =>
        obtain ⟨rfl, rfl⟩ := Prod.mk.inj (Except.ok.inj read)
        rw [startNamed_of_closing layout head (memberValue bound) bound shape]
        rfl
    next notEmpty notClosing =>
        have blanksShorter := length_blanks_le s
        obtain ⟨later, rfl, goesOn⟩ := namedMembers_toOption selects read (by omega)
        rw [startNamed_of_first layout head (memberValue bound) bound notEmpty notClosing]
        exact goesOn {}
  have closes : closing afterObject (startNamed layout head (memberValue bound) bound s)
      = (ms.foldlM (Draft.putNamed? layout accept) {}).map fun filled => (filled, rest) := by
    rw [closing, found, Option.bind_map]
    cases ms.foldlM (Draft.putNamed? layout accept) {} <;> rfl
  rw [namedEnvelope_eq, closed_toOption, closes, ← Draft.finishNamed_members distinct once]
  cases ms.foldlM (Draft.putNamed? layout accept) {} <;> rfl

/-! ## Items -/

section Start

variable {s : Bytes} (notEmpty : s ≠ []) (notClosing : ∀ rest, s ≠ closeBracket :: rest)

include notEmpty notClosing

theorem orderedMembers_first (trimmed : blanks s = s) (member : Member) (members : List Member)
    (draft : Draft α) :
    orderedMembers head other (member :: members) true draft s
      = orStop (readMember head other draft member s)
          >>= fun filled => orderedMembers head other members false filled.1 filled.2 := by
  rw [orderedMembers]
  split
  next shape => exact absurd (trimmed.symm.trans shape) notEmpty
  next shape => exact absurd (trimmed.symm.trans shape) (notClosing _)
  next _ shape =>
      rw [← shape, trimmed]
      rfl

theorem orderedMembers_next {before following : Bytes} (comes : blanks before = comma :: following)
    (shape : blanks following = s) (member : Member) (members : List Member) (draft : Draft α) :
    orderedMembers head other (member :: members) false draft before
      = orderedMembers head other (member :: members) true draft s := by
  have trimmed : blanks s = s := shape ▸ blanks_blanks following
  rw [orderedMembers_first notEmpty notClosing trimmed, orderedMembers]
  split
  next empty => cases comes.symm.trans empty
  next closes => exact absurd (List.cons.inj (comes.symm.trans closes)).1 (by decide)
  next =>
      obtain ⟨rfl, rfl⟩ := List.cons.inj (comes.symm.trans ‹_›)
      simp only [Bool.false_eq_true, if_false, if_true, shape]
      split
      next => exact absurd rfl notEmpty
      next => exact absurd rfl (notClosing _)
      next => rfl

end Start

/-- What is read as the items of an array fills a draft, item by item, if there are no
more of them than members. -/
theorem orderedMembers_closing (selects : Selects accept head other) {steps : Nat}
    {done vs : List Value} {s rest : Bytes}
    (read : moreItems other steps done s = .ok (vs, rest)) (trimmed : blanks s = s)
    (notEmpty : s ≠ []) (notClosing : ∀ rest, s ≠ closeBracket :: rest) :
    ∃ later, vs = done.reverse ++ later ∧ 0 < later.length ∧ ∀ member members draft,
      closing afterList (orderedMembers head other (member :: members) true draft s)
        = if later.length ≤ members.length + 1 then
            (Draft.putItems? accept draft ((member :: members).zip later)).map
              fun filled => (filled, rest)
          else none := by
  induction steps generalizing done s with
  | zero => cases read
  | succ steps ih =>
      simp only [moreItems, bind, Except.bind] at read
      split at read
      next => cases read
      next first firstRead =>
      rcases first with ⟨v, after⟩
      have begun (member : Member) (members : List Member) (draft : Draft α) :
          closing afterList (orderedMembers head other (member :: members) true draft s)
            = (draft.put? accept member v).bind fun filled =>
                closing afterList (orderedMembers head other members false filled after) := by
        have put := readMember_toOption selects firstRead draft member
        rw [orderedMembers_first notEmpty notClosing trimmed, closing, toOption_bind,
          orStop_toOption, put, Option.bind_map, Option.bind_assoc]
        rfl
      simp only at read
      split at read
      next => cases read
      next tail shape =>
          obtain ⟨rfl, rfl⟩ := Prod.mk.inj (Except.ok.inj read)
          refine ⟨[v], by simp, by simp, fun member members draft => ?_⟩
          have ends (filled : Draft α) :
              closing afterList (orderedMembers head other members false filled after)
                = some (filled, tail) := by
            cases members with
            | nil =>
                have closes : afterList after = .ok tail := by simp only [afterList, shape]
                simp [orderedMembers, closing, closes, Except.toOption]
            | cons =>
                simp only [orderedMembers, shape]
                rfl
          have few : [v].length ≤ members.length + 1 := by simp
          rw [begun, if_pos few]
          simp only [ends]
          cases put : draft.put? accept member v <;> simp [Draft.putItems?, put]
      next following shape =>
          split at read
          next => cases read
          next => cases read
          next nextNotEmpty nextNotClosing =>
              obtain ⟨later, rfl, some, goesOn⟩ := ih read (blanks_blanks following) nextNotEmpty
                nextNotClosing
              refine ⟨v :: later, by simp, by simp, fun member members draft => ?_⟩
              rw [begun]
              cases members with
              | nil =>
                  have refuses : afterList after
                      = .error (.next .trailingCharacters (blanks following)) := by
                    simp only [afterList, shape]
                  have tooMany : ¬ (v :: later).length ≤ ([] : List Member).length + 1 := by
                    simp only [List.length_cons, List.length_nil]
                    omega
                  rw [if_neg tooMany]
                  simp [orderedMembers, closing, refuses, Except.toOption]
              | cons next members =>
                  have count : (v :: later).length ≤ (next :: members).length + 1
                      ↔ later.length ≤ members.length + 1 := by
                    simp only [List.length_cons]
                    omega
                  simp only [orderedMembers_next nextNotEmpty nextNotClosing shape rfl, goesOn,
                    count]
                  cases put : draft.put? accept member v with
                  | none => simp [Draft.putItems?, put]
                  | some filled => simp [Draft.putItems?, put]
      next => cases read

theorem orderedEnvelope_eq (s : Bytes) :
    orderedEnvelope layout head other s
      = orderedMembers head other [.head, .body, .id] true {} s
          >>= finished (·.finishSequence layout) :=
  rfl

theorem orderedMembers_blanks (member : Member) (members : List Member) (draft : Draft α)
    (s : Bytes) :
    orderedMembers head other (member :: members) true draft (blanks s)
      = orderedMembers head other (member :: members) true draft s := by
  simp only [orderedMembers, blanks_blanks]

/-- An array that is read as a value is read as the envelope that its items make up. -/
theorem orderedEnvelope_toOption (selects : Selects accept head other) {steps : Nat}
    {vs : List Value} {s rest : Bytes} (read : items other steps s = .ok (vs, rest)) :
    (closed afterList (orderedEnvelope layout head other s)).toOption
      = (layout.ofValue? accept (.array vs)).map fun envelope => (envelope, rest) := by
  have found : closing afterList (orderedMembers head other [.head, .body, .id] true {} s)
      = if vs.length ≤ 3 then
          (Draft.putItems? accept {} ([.head, .body, .id].zip vs)).map fun filled => (filled, rest)
        else none := by
    unfold items at read
    split at read
    next => cases read
    next shape =>
        obtain ⟨rfl, rfl⟩ := Prod.mk.inj (Except.ok.inj read)
        simp only [orderedMembers, shape]
        rfl
    next notEmpty notClosing =>
        obtain ⟨later, rfl, -, closes⟩ := orderedMembers_closing selects read (blanks_blanks s)
          notEmpty notClosing
        rw [← orderedMembers_blanks]
        exact closes .head [.body, .id] {}
  rw [orderedEnvelope_eq, closed_toOption, found]
  by_cases few : vs.length ≤ 3
  · rw [if_pos few, ← Draft.finishSequence_items few]
    cases Draft.putItems? accept {} ([.head, .body, .id].zip vs) <;> rfl
  · rw [if_neg few, Layout.ofValue?, if_neg few]
    rfl

end Members

/-! ## Envelopes -/

/-- The names of the members of the object that a text denotes, in the order of the text. -/
def memberNames (s : Bytes) : List String :=
  match blanks s with
  | openBrace :: rest =>
    match members (memberValue s.length) s.length rest with
    | .ok (ms, _) => ms.map Prod.fst
    | .error _ => []
  | _ => []

/-- A text denotes the object of the members that are read after its brace. -/
theorem readValue_of_members {s after : Bytes} {ms : List (String × Value)}
    (shape : blanks s = openBrace :: after)
    (read : members (memberValue s.length) s.length after = .ok (ms, [])) :
    readValue s = .ok (.ofMembers ms) := by
  have valueRead : value s.length deepest s = .ok (.ofMembers ms, []) := by
    change valueWith (some (memberValue s.length)) s.length s = _
    unfold valueWith
    simp only [shape, read]
    rfl
  rw [readValue, whole, valueRead]
  rfl

section Envelopes

variable {α : Type} {layout : Layout α} {accept : Value → Option α} {head : Read α}

/-- A value is read as the envelope that it is. -/
theorem envelope_toOption {s rest : Bytes} {v : Value}
    (selects : Selects accept head (memberValue s.length)) (distinct : layout.Distinct)
    (read : value s.length deepest s = .ok (v, rest))
    (once : ∀ member, (memberNames s).count (layout.nameOf member) ≤ 1) :
    (envelope layout head (memberValue s.length) s.length s).toOption
      = (layout.ofValue? accept v).map fun envelope => (envelope, rest) := by
  obtain ⟨byte, after, shape, readAs⟩ := readAs_of_valueWith read
  have scalar (beginsOther : byte ≠ openBracket ∧ byte ≠ openBrace) :
      (envelope layout head (memberValue s.length) s.length s).toOption = none := by
    unfold envelope
    rw [shape]
    split
    next empty => cases empty
    next bracket => exact absurd (List.cons.inj bracket).1 beginsOther.1
    next brace => exact absurd (List.cons.inj brace).1 beginsOther.2
    next =>
        rw [toOption_bind]
        apply Option.bind_eq_none_iff.2
        intro found _
        rfl
  cases readAs with
  | string textRead => exact scalar (by decide)
  | @object _ _ _ ms found membersRead =>
      obtain rfl := Option.some.inj found
      have names : memberNames s = ms.map Prod.fst := by
        unfold memberNames
        split
        next after' shape' =>
            obtain rfl := (List.cons.inj (shape.symm.trans shape')).2
            have inside : members (memberValue s.length) s.length after = .ok (ms, rest) :=
              membersRead
            rw [inside]
        next notBrace => exact absurd shape (notBrace after)
      have opened : envelope layout head (memberValue s.length) s.length s
          = closed afterObject
              (namedEnvelope layout head (memberValue s.length) s.length after) := by
        unfold envelope
        rw [shape]
        rfl
      have shorter := length_lt_of_blanks shape
      rw [opened]
      rw [names] at once
      exact namedEnvelope_toOption selects distinct membersRead (Nat.le_of_lt shorter) once
  | array found itemsRead =>
      obtain rfl := Option.some.inj found
      have opened : envelope layout head (memberValue s.length) s.length s
          = closed afterList (orderedEnvelope layout head (memberValue s.length) after) := by
        unfold envelope
        rw [shape]
        rfl
      rw [opened]
      exact orderedEnvelope_toOption selects itemsRead
  | null => exact scalar (by decide)
  | true => exact scalar (by decide)
  | false => exact scalar (by decide)
  | number numeric numberRead =>
      have none : layout.ofValue? accept v = none := by
        rcases number_kind numberRead with ⟨n, rfl⟩ | ⟨x, rfl⟩
        · rfl
        · exact layout.ofValue?_ofDouble accept x
      rw [none]
      exact scalar ⟨numeric.ne (by decide), numeric.ne (by decide)⟩

/-- A text that denotes a value is read as the envelope that this value is. -/
theorem whole_envelope_toOption {s : Bytes} {v : Value}
    (selects : Selects accept head (memberValue s.length)) (distinct : layout.Distinct)
    (read : readValue s = .ok v)
    (once : ∀ member, (memberNames s).count (layout.nameOf member) ≤ 1)
    {whole' : (bound : Nat) → Read (Envelope α)}
    (reads : whole' s.length s = envelope layout head (memberValue s.length) s.length s) :
    (whole whole' s).toOption = layout.ofValue? accept v := by
  unfold readValue whole at read
  split at read
  next => cases read
  next w rest valueRead =>
  split at read
  next shape =>
      obtain rfl := Except.ok.inj read
      have found := envelope_toOption selects distinct valueRead once
      rw [← reads] at found
      unfold whole
      cases made : whole' s.length s with
      | error fault =>
          rw [made] at found
          cases projected : layout.ofValue? accept w with
          | none => rfl
          | some => simp [projected, Except.toOption] at found
      | ok pair =>
          rw [made] at found
          obtain ⟨envelope, projected, rfl⟩ := Option.map_eq_some_iff.1 found.symm
          simp only [shape, projected]
          rfl
  next => cases read

end Envelopes

/-! ## Calls -/

theorem selects_self (other : Read Value) : Selects some other other := by
  intro s v rest read
  rw [read]
  rfl

/-- A text that denotes a value is read as the answer that this value is. -/
theorem readAnswer_toOption {s : Bytes} {v : Value} (read : readValue s = .ok v)
    (once : ∀ member, (memberNames s).count (answerLayout.nameOf member) ≤ 1) :
    (readAnswer s).toOption = answerLayout.ofValue? some v :=
  whole_envelope_toOption (selects_self _) answerLayout_distinct read once rfl

end RemoteCall.Json
