import RemoteCall.MessagePack.Record

/-!
# Items that are passed over

An item that is read as a value or as an envelope is passed over too, and with the same rest.
Passing over counts items alone: the entries of a map are two items each, whatever
stands in the place of a key.
-/

namespace RemoteCall.MessagePack

/-! ## Items that hold no others -/

/-- The value of an item that is no text and holds no other items. -/
def Item.scalar? : Item → Option Value
  | .nil => some .null
  | .bool b => some (.bool b)
  | .unsigned n => some (integerValue n)
  | .signed n => some (integerValue n)
  | .single x => some (.ofDouble x.convert)
  | .double x => some (.ofDouble x)
  | _ => none

/-- The octets of an item that may stand for a key. -/
def Item.keyOctets? : Item → Option Bytes
  | .text octets => some octets
  | .bytes octets => some octets
  | _ => none

/-- What a value is read from, by the item in front and what follows that. -/
inductive ReadAs (inner : Option (Nat × Read Value)) : Item → Bytes → Value → Bytes → Prop where
  | scalar {it : Item} {s : Bytes} {v : Value} : it.scalar? = some v → ReadAs inner it s v s
  | text {octets s : Bytes} {chars : String} :
      textOf octets = .ok chars → ReadAs inner (.text octets) s (.string chars) s
  | array {count room : Nat} {read : Read Value} {s rest : Bytes} {vs : List Value} :
      inner = some (room, read) → items read count [] s = .ok (vs, rest) →
        ReadAs inner (.array count) s (.array vs) rest
  | map {count room : Nat} {read : Read Value} {s rest : Bytes} {ms : List (String × Value)} :
      inner = some (room, read) → entries room read (firstKey room) count [] s = .ok (ms, rest) →
        ReadAs inner (.map count) s (.ofMembers ms) rest

theorem value_succ (room : Nat) : value (room + 1) = valueWith (some (room, value room)) :=
  rfl

theorem mistyped_toOption {α : Type} (room : Nat) (expected : String) (it : Item) :
    (mistyped room expected it : Except Error α).toOption = none := by
  cases it with
  | text octets =>
      simp only [mistyped]
      cases textOf octets <;> rfl
  | array | map | extension =>
      simp only [mistyped]
      split <;> rfl
  | _ => rfl

theorem mistyped_ne_ok {α : Type} {room : Nat} {expected : String} {it : Item} {a : α} :
    mistyped room expected it ≠ .ok a := by
  intro accepted
  have refused := mistyped_toOption (α := α) room expected it
  rw [accepted] at refused
  cases refused

theorem readAs_of_valueWith {inner : Option (Nat × Read Value)} {s rest : Bytes} {v : Value}
    (read : valueWith inner s = .ok (v, rest)) :
    ∃ it after, item s = .ok (it, after) ∧ ReadAs inner it after v rest := by
  simp only [valueWith, bind, Except.bind] at read
  split at read
  next => cases read
  next found itemRead =>
  rcases found with ⟨it, after⟩
  refine ⟨it, after, itemRead, ?_⟩
  cases it with
  | text octets =>
      simp only at read
      split at read
      next => cases read
      next textRead =>
          obtain ⟨rfl, rfl⟩ := Prod.mk.inj (Except.ok.inj read)
          exact .text textRead
  | array count =>
      cases inner with
      | none => cases read
      | some inside =>
          rcases inside with ⟨room, readItem⟩
          simp only at read
          split at read
          next => cases read
          next itemsRead =>
              obtain ⟨rfl, rfl⟩ := Prod.mk.inj (Except.ok.inj read)
              exact .array rfl itemsRead
  | map count =>
      cases inner with
      | none => cases read
      | some inside =>
          rcases inside with ⟨room, readItem⟩
          simp only at read
          split at read
          next => cases read
          next entriesRead =>
              obtain ⟨rfl, rfl⟩ := Prod.mk.inj (Except.ok.inj read)
              exact .map rfl entriesRead
  | bytes | extension =>
      cases inner with
      | none => exact absurd read mistyped_ne_ok
      | some inside => exact absurd read mistyped_ne_ok
  | nil | bool | unsigned | signed | single | double =>
      obtain ⟨rfl, rfl⟩ := Prod.mk.inj (Except.ok.inj read)
      exact .scalar rfl

/-! ## Keys -/

theorem decode?_of_textOf {octets : Bytes} {chars : String} (read : textOf octets = .ok chars) :
    Utf8.decode? octets = some chars := by
  unfold textOf Utf8.decode at read
  cases decoded : Utf8.decode? octets with
  | none =>
      rw [decoded] at read
      cases read
  | some text =>
      rw [decoded] at read
      rw [Except.ok.inj read]

/-- Whether a reader reads keys: texts, or byte strings that stand for texts. -/
def ReadsKeys (key : Read String) : Prop :=
  ∀ s name rest, key s = .ok (name, rest) → ∃ it octets, item s = .ok (it, rest) ∧
    it.keyOctets? = some octets ∧ Utf8.decode? octets = some name

theorem firstKey_readsKeys (room : Nat) : ReadsKeys (firstKey room) := by
  intro s name rest read
  simp only [firstKey, bind, Except.bind] at read
  split at read
  next => cases read
  next found itemRead =>
  rcases found with ⟨it, after⟩
  cases it with
  | text octets =>
      simp only at read
      split at read
      next => cases read
      next textRead =>
          obtain ⟨rfl, rfl⟩ := Prod.mk.inj (Except.ok.inj read)
          exact ⟨.text octets, octets, itemRead, rfl, decode?_of_textOf textRead⟩
  | _ => exact absurd read mistyped_ne_ok

theorem text_readsKeys (room : Nat) : ReadsKeys (text room) := by
  intro s name rest read
  simp only [text, bind, Except.bind] at read
  split at read
  next => cases read
  next found itemRead =>
  rcases found with ⟨it, after⟩
  cases it with
  | text octets =>
      simp only at read
      split at read
      next => cases read
      next textRead =>
          obtain ⟨rfl, rfl⟩ := Prod.mk.inj (Except.ok.inj read)
          exact ⟨.text octets, octets, itemRead, rfl, decode?_of_textOf textRead⟩
  | bytes octets =>
      simp only at read
      split at read
      next decoded =>
          obtain ⟨rfl, rfl⟩ := Prod.mk.inj (Except.ok.inj read)
          exact ⟨.bytes octets, octets, itemRead, rfl, decoded⟩
      next => cases read
  | _ => exact absurd read mistyped_ne_ok

/-! ## Passing over -/

/-- Whether an item holds no others and takes no octets beyond its own. -/
def Item.IsLeaf : Item → Prop
  | .array _ | .map _ | .extension _ => False
  | _ => True

theorem Item.isLeaf_of_scalar? {it : Item} {v : Value} (scalar : it.scalar? = some v) :
    it.IsLeaf := by
  cases it with
  | array | map | extension => cases scalar
  | _ => trivial

theorem passWith_leaf {inner : Option (Bytes → Except Error Bytes)} {s rest : Bytes} {it : Item}
    (read : item s = .ok (it, rest)) (leaf : it.IsLeaf) : passWith inner s = .ok rest := by
  simp only [passWith, read, bind, Except.bind]
  cases it with
  | array | map | extension => exact leaf.elim
  | _ => cases inner <;> rfl

/-- Whether all that a reader reads is passed over. -/
def PassedOver {α : Type} (read : Read α) (pass : Bytes → Except Error Bytes) : Prop :=
  ∀ s v rest, read s = .ok (v, rest) → pass s = .ok rest

theorem exists_pass_eq (room : Nat) : ∃ inner, pass room = passWith inner := by
  cases room with
  | zero => exact ⟨none, rfl⟩
  | succ room => exact ⟨some (pass room), rfl⟩

/-- Whether a reader reads single items that hold no others. -/
def ReadsLeaves {α : Type} (read : Read α) : Prop :=
  ∀ s a rest, read s = .ok (a, rest) → ∃ it, item s = .ok (it, rest) ∧ it.IsLeaf

theorem ReadsLeaves.passedOver {α : Type} {read : Read α} (readsLeaves : ReadsLeaves read)
    (room : Nat) : PassedOver read (pass room) := by
  intro s a rest done
  obtain ⟨it, itemRead, leaf⟩ := readsLeaves s a rest done
  obtain ⟨inner, same⟩ := exists_pass_eq room
  exact same ▸ passWith_leaf itemRead leaf

theorem ReadsKeys.readsLeaves {key : Read String} (readsKeys : ReadsKeys key) :
    ReadsLeaves key := by
  intro s name rest read
  obtain ⟨it, octets, itemRead, isKey, -⟩ := readsKeys s name rest read
  refine ⟨it, itemRead, ?_⟩
  cases it with
  | array | map | extension => cases isKey
  | _ => trivial

theorem passItems_of_items {read : Read Value} {pass : Bytes → Except Error Bytes}
    (passed : PassedOver read pass) {count : Nat} {done vs : List Value} {s rest : Bytes}
    (itemsRead : items read count done s = .ok (vs, rest)) :
    passItems pass count s = .ok rest := by
  induction count generalizing done s with
  | zero =>
      obtain ⟨-, rfl⟩ := Prod.mk.inj (Except.ok.inj itemsRead)
      rfl
  | succ count ih =>
      simp only [items, bind, Except.bind] at itemsRead
      split at itemsRead
      next => cases itemsRead
      next first firstRead =>
          rw [passItems, passed s first.1 first.2 firstRead]
          exact ih itemsRead

theorem passItems_of_entries {room : Nat} {read : Read Value} {key : Read String}
    {pass : Bytes → Except Error Bytes} (keysPassed : PassedOver key pass)
    (laterKeysPassed : PassedOver (text room) pass) (passed : PassedOver read pass) {count : Nat}
    {done ms : List (String × Value)} {s rest : Bytes}
    (entriesRead : entries room read key count done s = .ok (ms, rest)) :
    passItems pass (2 * count) s = .ok rest := by
  induction count generalizing key done s with
  | zero =>
      obtain ⟨-, rfl⟩ := Prod.mk.inj (Except.ok.inj entriesRead)
      rfl
  | succ count ih =>
      simp only [entries, bind, Except.bind] at entriesRead
      split at entriesRead
      next => cases entriesRead
      next named nameRead =>
      split at entriesRead
      next => cases entriesRead
      next first firstRead =>
          have twice : 2 * (count + 1) = (2 * count + 1) + 1 := by omega
          rw [twice, passItems, keysPassed s named.1 named.2 nameRead]
          change (do passItems pass (2 * count) (← pass named.2)) = _
          rw [passed named.2 first.1 first.2 firstRead]
          exact ih laterKeysPassed entriesRead

/-- What is read as a value is passed over, with the same depth left. -/
theorem value_passedOver (room : Nat) : PassedOver (value room) (pass room) := by
  induction room with
  | zero =>
      intro s v rest read
      obtain ⟨it, after, itemRead, readAs⟩ := readAs_of_valueWith read
      cases readAs with
      | scalar scalar => exact passWith_leaf itemRead (Item.isLeaf_of_scalar? scalar)
      | text => exact passWith_leaf itemRead trivial
      | array inside => cases inside
      | map inside => cases inside
  | succ room ih =>
      intro s v rest read
      obtain ⟨it, after, itemRead, readAs⟩ := readAs_of_valueWith read
      cases readAs with
      | scalar scalar => exact passWith_leaf itemRead (Item.isLeaf_of_scalar? scalar)
      | text => exact passWith_leaf itemRead trivial
      | array inside itemsRead =>
          obtain ⟨rfl, rfl⟩ := Prod.mk.inj (Option.some.inj inside)
          simp only [pass, passWith, itemRead, bind, Except.bind]
          exact passItems_of_items ih itemsRead
      | map inside entriesRead =>
          obtain ⟨rfl, rfl⟩ := Prod.mk.inj (Option.some.inj inside)
          simp only [pass, passWith, itemRead, bind, Except.bind]
          exact passItems_of_entries ((firstKey_readsKeys room).readsLeaves.passedOver room)
            ((text_readsKeys room).readsLeaves.passedOver room) ih entriesRead

/-! ## Records -/

namespace Fields

variable {ι σ β : Type} {F : Fields ι σ}

/-- What the fields of a record make of the rest of the octets. -/
def concluded (result : Except Mismatch β) (s : Bytes) : Except Error (β × Bytes) :=
  match result with
  | .ok v => .ok (v, s)
  | .error m => .error (.mismatch m)

theorem eq_of_concluded {result : Except Mismatch β} {v : β} {s rest : Bytes}
    (finished : concluded result s = .ok (v, rest)) : s = rest := by
  cases result with
  | ok => exact (Prod.mk.inj (Except.ok.inj finished)).2
  | error => cases finished

theorem key_readsLeaves (room : Nat) : ReadsLeaves (F.key room) := by
  intro s field? rest read
  unfold key at read
  cases found : item s with
  | error =>
      simp only [found, bind, Except.bind] at read
      cases read
  | ok pair =>
      rcases pair with ⟨it, after⟩
      simp only [found, bind, Except.bind] at read
      have same (e : Error) (refusedOrNot :
          (if F.strict then .error e else .ok (none, after)) = Except.ok (field?, rest)) :
          after = rest := by
        split at refusedOrNot
        next => cases refusedOrNot
        next => exact (Prod.mk.inj (Except.ok.inj refusedOrNot)).2
      cases it with
      | unsigned n =>
          refine ⟨.unsigned n, ?_, trivial⟩
          simp only at read
          split at read
          next => rw [(Prod.mk.inj (Except.ok.inj read)).2]
          next => rw [same _ read]
      | text octets =>
          refine ⟨.text octets, ?_, trivial⟩
          simp only at read
          split at read
          next =>
            split at read
            next => rw [(Prod.mk.inj (Except.ok.inj read)).2]
            next => rw [same _ read]
          next => rw [same _ read]
      | bytes octets =>
          refine ⟨.bytes octets, ?_, trivial⟩
          simp only at read
          split at read
          next => rw [(Prod.mk.inj (Except.ok.inj read)).2]
          next => rw [same _ read]
      | _ => exact absurd read mistyped_ne_ok

variable {room : Nat} (fillPassed : ∀ field state, PassedOver (F.fill field state) (pass room))

include fillPassed

theorem passItems_of_named {count : Nat} {start state : σ} {s rest : Bytes}
    (read : F.named room count start s = .ok (state, rest)) :
    passItems (pass room) (2 * count) s = .ok rest := by
  induction count generalizing start s with
  | zero =>
      obtain ⟨-, rfl⟩ := Prod.mk.inj (Except.ok.inj read)
      rfl
  | succ count ih =>
      have twice : 2 * (count + 1) = (2 * count + 1) + 1 := by omega
      simp only [named, bind, Except.bind] at read
      split at read
      next => cases read
      next keyed keyRead =>
      rcases keyed with ⟨field?, after⟩
      rw [twice, passItems, (key_readsLeaves room).passedOver room s field? after keyRead]
      change (do passItems (pass room) (2 * count) (← pass room after)) = _
      cases field? with
      | none =>
          simp only at read
          split at read
          next => cases read
          next passed =>
              rw [passed]
              exact ih read
      | some field =>
          simp only at read
          split at read
          next => cases read
          split at read
          next => cases read
          next filled fillRead =>
              rw [fillPassed field start after filled.1 filled.2 fillRead]
              exact ih read

theorem passItems_of_ordered {fields : List ι} {count : Nat} {start state : σ} {s rest : Bytes}
    (read : F.ordered fields count start s = .ok (state, rest)) :
    passItems (pass room) count s = .ok rest := by
  induction fields generalizing count start s with
  | nil =>
      cases count with
      | zero =>
          obtain ⟨-, rfl⟩ := Prod.mk.inj (Except.ok.inj read)
          rfl
      | succ count => cases read
  | cons field fields ih =>
      cases count with
      | zero =>
          obtain ⟨-, rfl⟩ := Prod.mk.inj (Except.ok.inj read)
          rfl
      | succ count =>
          simp only [ordered, bind, Except.bind] at read
          split at read
          next => cases read
          next filled fillRead =>
              rw [passItems, fillPassed field start s filled.1 filled.2 fillRead]
              exact ih read

/-- What is read as a record is passed over. -/
theorem record_passedOver (start : σ) (finishNamed finishOrdered : σ → Except Mismatch β) :
    PassedOver (F.record (room + 1) start finishNamed finishOrdered) (pass (room + 1)) := by
  intro s v rest read
  unfold record at read
  cases found : item s with
  | error =>
      simp only [found, bind, Except.bind] at read
      cases read
  | ok pair =>
      rcases pair with ⟨it, inside⟩
      simp only [found, bind, Except.bind] at read
      rw [pass, passWith, found]
      cases it with
      | map count =>
          simp only at read
          split at read
          next => cases read
          next namedRead =>
              obtain rfl := eq_of_concluded read
              exact passItems_of_named fillPassed namedRead
      | array count =>
          simp only at read
          split at read
          next =>
            split at read
            next => cases read
            next orderedRead =>
                obtain rfl := eq_of_concluded read
                exact passItems_of_ordered fillPassed orderedRead
          next =>
            split at read
            next => cases read
            next => cases read
      | bytes octets =>
          simp only at read
          split at read
          next => cases read
          next =>
              obtain rfl := eq_of_concluded read
              rfl
      | _ => exact absurd read mistyped_ne_ok

end Fields

/-! ## Envelopes -/

open Envelope

section Envelopes

variable {α : Type} {layout : Layout α} {head : Read α}

/-- What is read as an envelope is passed over. -/
theorem envelope_passedOver (headPassed : PassedOver head (pass (deepest - 1))) :
    PassedOver (envelope layout head (value (deepest - 1))) (pass deepest) := by
  have room : deepest - 1 + 1 = deepest := by decide
  have filled (member : Member) (draft : Draft α) :
      PassedOver ((envelopeFields layout head (value (deepest - 1))).fill member draft)
        (pass (deepest - 1)) := by
    intro s found rest read
    cases member with
    | head =>
        simp only [envelopeFields, bind, Except.bind] at read
        split at read
        next => cases read
        next done =>
            obtain ⟨-, rfl⟩ := Prod.mk.inj (Except.ok.inj read)
            exact headPassed s _ _ done
    | body | id =>
        simp only [envelopeFields, bind, Except.bind] at read
        split at read
        next => cases read
        next done =>
            obtain ⟨-, rfl⟩ := Prod.mk.inj (Except.ok.inj read)
            exact value_passedOver (deepest - 1) s _ _ done
  have passed := Fields.record_passedOver filled {} (·.finishNamed layout) (·.finishSequence layout)
  rw [room] at passed
  exact passed

end Envelopes

end RemoteCall.MessagePack
