import RemoteCall.MessagePack.Record
import RemoteCall.Proofs.Envelope.Projection
import RemoteCall.Proofs.MessagePack.Passing
import RemoteCall.Proofs.MessagePack.Reader

/-!
# Envelopes in MessagePack data as parts of values

Data that denote a value are read as the envelope that this value is, and as no
envelope if the value is none.
-/

namespace RemoteCall.MessagePack

open Envelope

section Members

variable {α : Type} {layout : Layout α} {accept : Value → Option α} {head : Read α}
  {other : Read Value}

/-- Whether a reader reads what another reads, as far as that is accepted. -/
def Selects (accept : Value → Option α) (head : Read α) (other : Read Value) : Prop :=
  ∀ s v rest, other s = .ok (v, rest) → (head s).toOption = (accept v).map fun a => (a, rest)

theorem fill_toOption (selects : Selects accept head other) {s rest : Bytes} {v : Value}
    (read : other s = .ok (v, rest)) (draft : Draft α) (member : Member) :
    ((envelopeFields layout head other).fill member draft s).toOption
      = (draft.put? accept member v).map fun filled => (filled, rest) := by
  cases member with
  | head =>
      have first := selects s v rest read
      simp only [envelopeFields, toOption_bind, first, Draft.put?]
      cases accept v <;> rfl
  | body =>
      simp only [envelopeFields, read, bind, Except.bind]
      rfl
  | id =>
      simp only [envelopeFields, read, bind, Except.bind]
      rfl

theorem named?_eq_member? (layout : Layout α) (head : Read α) (other : Read Value)
    (name : String) : (envelopeFields layout head other).named? name = layout.member? name := by
  simp only [Fields.named?, envelopeFields, List.find?_cons, List.find?_nil, Layout.nameOf,
    Layout.member?, eq_comm (b := name)]
  by_cases isHead : name = layout.head
  · simp [← isHead]
  by_cases isBody : name = layout.body
  · simp [isHead, ← isBody]
  by_cases isId : name = "id"
  · simp [isHead, isBody, ← isId]
  · simp [isHead, isBody, isId]

/-- A key that is read as a name is read as the member of that name. -/
theorem key_of_readsKeys (layout : Layout α) (head : Read α) (other : Read Value)
    {key : Read String} (readsKeys : ReadsKeys key) {s rest : Bytes} {name : String}
    (read : key s = .ok (name, rest)) (room : Nat) :
    (envelopeFields layout head other).key room s = .ok (layout.member? name, rest) := by
  obtain ⟨it, octets, itemRead, isKey, decoded⟩ := readsKeys s name rest read
  have found := named?_eq_member? layout head other name
  simp only [Fields.key, itemRead, bind, Except.bind]
  cases it with
  | text octets =>
      obtain rfl := Option.some.inj isKey
      simp only [Utf8.decode, decoded, found]
      cases layout.member? name <;> rfl
  | bytes octets =>
      obtain rfl := Option.some.inj isKey
      simp only [decoded, Option.bind, found]
      cases layout.member? name <;> rfl
  | _ => cases isKey

/-- What is read as the entries of a map fills a draft, entry by entry. -/
theorem named_toOption (layout : Layout α) {room : Nat} (selects : Selects accept head other)
    (passed : PassedOver other (pass room)) {readRoom : Nat} {key : Read String}
    (readsKeys : ReadsKeys key) {count : Nat} {done ms : List (String × Value)} {s rest : Bytes}
    (read : entries readRoom other key count done s = .ok (ms, rest)) :
    ∃ later, ms = done.reverse ++ later ∧ ∀ draft,
      ((envelopeFields layout head other).named room count draft s).toOption
        = (later.foldlM (Draft.putNamed? layout accept) draft).map fun filled =>
            (filled, rest) := by
  induction count generalizing key done s with
  | zero =>
      obtain ⟨rfl, rfl⟩ := Prod.mk.inj (Except.ok.inj read)
      exact ⟨[], by simp, fun draft => rfl⟩
  | succ count ih =>
      simp only [entries, bind, Except.bind] at read
      split at read
      next => cases read
      next entry keyRead =>
      rcases entry with ⟨name, content⟩
      simp only at read
      split at read
      next => cases read
      next first firstRead =>
      rcases first with ⟨v, after⟩
      obtain ⟨later, rfl, goesOn⟩ := ih (text_readsKeys readRoom) read
      refine ⟨(name, v) :: later, by simp, fun draft => ?_⟩
      have known := key_of_readsKeys layout head other readsKeys keyRead room
      rw [Fields.named, known, List.foldlM_cons, Draft.putNamed?]
      cases layout.member? name with
      | none =>
          simp only [bind, Except.bind, passed content v after firstRead]
          exact goesOn draft
      | some member =>
          have has : (envelopeFields layout head other).has draft member = draft.has member := rfl
          simp only [bind, Except.bind, has]
          split
          next => rfl
          next =>
              change (_ >>= _ : Except Error (Draft α × Bytes)).toOption = _
              rw [toOption_bind, fill_toOption selects firstRead]
              cases draft.put? accept member v with
              | none => rfl
              | some filled => exact goesOn filled

theorem ordered_toOption (layout : Layout α) (selects : Selects accept head other) {count : Nat}
    {done vs : List Value} {s rest : Bytes} (read : items other count done s = .ok (vs, rest)) :
    ∃ later, vs = done.reverse ++ later ∧ later.length = count ∧ ∀ members draft,
      count ≤ members.length →
        ((envelopeFields layout head other).ordered members count draft s).toOption
          = (Draft.putItems? accept draft (members.zip later)).map fun filled =>
              (filled, rest) := by
  induction count generalizing done s with
  | zero =>
      obtain ⟨rfl, rfl⟩ := Prod.mk.inj (Except.ok.inj read)
      refine ⟨[], by simp, rfl, fun members draft _ => ?_⟩
      cases members <;> rfl
  | succ count ih =>
      simp only [items, bind, Except.bind] at read
      split at read
      next => cases read
      next first firstRead =>
      rcases first with ⟨v, after⟩
      obtain ⟨later, rfl, length, goesOn⟩ := ih read
      refine ⟨v :: later, by simp, by simp [length], fun members draft few => ?_⟩
      cases members with
      | nil => cases few
      | cons member members =>
          rw [Fields.ordered, toOption_bind, fill_toOption selects firstRead]
          cases put : draft.put? accept member v with
          | none => simp [Draft.putItems?, put]
          | some filled =>
              have left := goesOn members filled (Nat.le_of_succ_le_succ few)
              simpa [Draft.putItems?, put] using left

end Members

/-! ## Records -/

namespace Fields

variable {ι σ β : Type} (F : Fields ι σ) (room : Nat) (start : σ)
  (finishNamed finishOrdered : σ → Except Mismatch β) {s inside : Bytes} {count : Nat}

theorem record_map_toOption (itemRead : item s = .ok (.map count, inside)) :
    (F.record (room + 1) start finishNamed finishOrdered s).toOption
      = (F.named room count start inside).toOption.bind fun filled =>
          (finishNamed filled.1).toOption.map fun v => (v, filled.2) := by
  simp only [record, itemRead, bind, Except.bind]
  cases F.named room count start inside with
  | error => rfl
  | ok filled =>
      simp only [Except.toOption, Option.bind]
      cases finishNamed filled.1 <;> rfl

theorem record_array_toOption (itemRead : item s = .ok (.array count, inside)) :
    (F.record (room + 1) start finishNamed finishOrdered s).toOption
      = if count ≤ F.order.length then
          (F.ordered F.order count start inside).toOption.bind fun filled =>
            (finishOrdered filled.1).toOption.map fun v => (v, filled.2)
        else none := by
  simp only [record, itemRead, bind, Except.bind]
  split
  · cases F.ordered F.order count start inside with
    | error => rfl
    | ok filled =>
        simp only [Except.toOption, Option.bind]
        cases finishOrdered filled.1 <;> rfl
  · cases F.ordered F.order F.order.length start inside <;> rfl

theorem record_scalar_toOption {it : Item} (itemRead : item s = .ok (it, inside))
    (leaf : it.IsLeaf) (noBytes : ∀ octets, it ≠ .bytes octets) :
    (F.record room start finishNamed finishOrdered s).toOption = none := by
  simp only [record, itemRead, bind, Except.bind]
  cases it with
  | array | map | extension => exact leaf.elim
  | bytes octets => exact absurd rfl (noBytes octets)
  | _ => exact mistyped_toOption room F.expectation _

end Fields

/-! ## Envelopes -/

/-- The names of the members of the object that data denote, in the order of the data. -/
def memberNames (s : Bytes) : List String :=
  match item s with
  | .ok (.map count, rest) =>
    match entries (deepest - 1) (value (deepest - 1)) (firstKey (deepest - 1)) count [] rest with
    | .ok (ms, _) => ms.map Prod.fst
    | .error _ => []
  | _ => []

section Envelopes

variable {α : Type} {layout : Layout α} {accept : Value → Option α} {head : Read α}

theorem ofValue?_integerValue (n : Int) : layout.ofValue? accept (integerValue n) = none := by
  unfold integerValue
  split <;> rfl

theorem ofValue?_of_scalar? {it : Item} {v : Value} (scalar : it.scalar? = some v) :
    layout.ofValue? accept v = none := by
  cases it with
  | single | double =>
      obtain rfl := Option.some.inj scalar
      exact layout.ofValue?_ofDouble accept _
  | unsigned | signed =>
      obtain rfl := Option.some.inj scalar
      exact ofValue?_integerValue _
  | nil | bool =>
      obtain rfl := Option.some.inj scalar
      rfl
  | _ => cases scalar

/-- A value is read as the envelope that it is. -/
theorem envelope_toOption (selects : Selects accept head (value (deepest - 1)))
    (distinct : layout.Distinct) {s rest : Bytes} {v : Value}
    (read : value deepest s = .ok (v, rest))
    (once : ∀ member, (memberNames s).count (layout.nameOf member) ≤ 1) :
    (envelope layout head (value (deepest - 1)) s).toOption
      = (layout.ofValue? accept v).map fun envelope => (envelope, rest) := by
  have room : deepest - 1 + 1 = deepest := by decide
  rw [← room, value_succ] at read
  obtain ⟨it, after, itemRead, readAs⟩ := readAs_of_valueWith read
  unfold envelope
  cases readAs with
  | @scalar it _ _ scalar =>
      rw [Fields.record_scalar_toOption _ _ _ _ _ itemRead (Item.isLeaf_of_scalar? scalar),
        ofValue?_of_scalar? scalar]
      · rfl
      · rintro octets rfl
        cases scalar
  | text =>
      rw [Fields.record_scalar_toOption _ _ _ _ _ itemRead trivial]
      · rfl
      · rintro octets ⟨⟩
  | @array count _ _ _ _ vs found itemsRead =>
      obtain ⟨rfl, rfl⟩ := Prod.mk.inj (Option.some.inj found)
      obtain ⟨later, shape, length, goesOn⟩ := ordered_toOption layout selects itemsRead
      rw [List.reverse_nil, List.nil_append] at shape
      subst shape
      have order : (envelopeFields layout head (value (deepest - 1))).order = [.head, .body, .id] :=
        rfl
      have opened := Fields.record_array_toOption (envelopeFields layout head (value (deepest - 1)))
        (deepest - 1) {} (·.finishNamed layout) (·.finishSequence layout) itemRead
      rw [room, order] at opened
      rw [opened]
      by_cases few : vs.length ≤ 3
      · have fits : count ≤ [Member.head, .body, .id].length := length ▸ few
        rw [if_pos fits, goesOn [.head, .body, .id] {} fits, ← Draft.finishSequence_items few,
          Option.bind_map]
        cases Draft.putItems? accept {} ([.head, .body, .id].zip vs) <;> rfl
      · have tooMany : ¬ count ≤ [Member.head, .body, .id].length := length ▸ few
        rw [if_neg tooMany, Layout.ofValue?, if_neg few]
        rfl
  | @map count _ _ _ _ ms found entriesRead =>
      obtain ⟨rfl, rfl⟩ := Prod.mk.inj (Option.some.inj found)
      have names : memberNames s = ms.map Prod.fst := by
        simp only [memberNames, itemRead, entriesRead]
      rw [names] at once
      obtain ⟨later, shape, goesOn⟩ := named_toOption layout selects
        (value_passedOver (deepest - 1)) (firstKey_readsKeys (deepest - 1)) entriesRead
      rw [List.reverse_nil, List.nil_append] at shape
      subst shape
      have opened := Fields.record_map_toOption (envelopeFields layout head (value (deepest - 1)))
        (deepest - 1) {} (·.finishNamed layout) (·.finishSequence layout) itemRead
      rw [room] at opened
      rw [opened, goesOn {}, ← Draft.finishNamed_members distinct once, Option.bind_map]
      cases ms.foldlM (Draft.putNamed? layout accept) {} <;> rfl

end Envelopes

/-! ## Calls -/

theorem front_toOption {α : Type} (read : Read α) (s : Bytes) :
    (front read s).toOption = (read s).toOption.map Prod.fst := by
  unfold front
  cases read s <;> rfl

/-- Data that denote a value are read, in front, as the envelope that this value is. -/
theorem front_envelope_toOption {α : Type} {layout : Layout α} {accept : Value → Option α}
    {head : Read α} (selects : Selects accept head (value (deepest - 1)))
    (distinct : layout.Distinct) {s : Bytes} {v : Value} (read : readValue s = .ok v)
    (once : ∀ member, (memberNames s).count (layout.nameOf member) ≤ 1) :
    (front (envelope layout head (value (deepest - 1))) s).toOption
      = layout.ofValue? accept v := by
  have found : (readValue s).toOption = some v := toOption_eq_some_iff.2 read
  rw [readValue, front_toOption, Option.map_eq_some_iff] at found
  obtain ⟨⟨w, rest⟩, valueRead, rfl⟩ := found
  rw [front_toOption, envelope_toOption selects distinct (toOption_eq_some_iff.1 valueRead) once]
  cases layout.ofValue? accept w <;> rfl

theorem selects_self (other : Read Value) : Selects some other other := by
  intro s v rest read
  rw [read]
  rfl

/-- Data that denote a value are read as the answer that this value is. -/
theorem readAnswer_toOption {s : Bytes} {v : Value} (read : readValue s = .ok v)
    (once : ∀ member, (memberNames s).count (answerLayout.nameOf member) ≤ 1) :
    (readAnswer s).toOption = answerLayout.ofValue? some v :=
  front_envelope_toOption (selects_self _) answerLayout_distinct read once

end RemoteCall.MessagePack
