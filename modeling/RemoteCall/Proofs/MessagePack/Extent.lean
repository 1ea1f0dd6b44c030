import RemoteCall.Proofs.MessagePack.Passing

/-!
# The extent of MessagePack data

A reader of MessagePack data stops where the item in front ends, and what it finds
there does not depend on anything behind.  So the octets that an item takes up are
the same for whoever reads it or passes over it, and no item is the front of a
longer one.
-/

namespace RemoteCall.MessagePack

/-! ## Fronts -/

section Fronts

variable {α β γ δ : Type} {make : α → Bytes → γ} {join : β → Bytes → δ}

/-- Whether a front of the octets is taken and settles what is made of it, whatever follows;
`make` puts this together with what is left. -/
def TakesFront (make : α → Bytes → γ) (take : Bytes → Except Error γ) : Prop :=
  ∀ s found, take s = .ok found → ∃ a front rest, found = make a rest ∧ s = front ++ rest ∧
    ∀ more, take (front ++ more) = .ok (make a more)

/-- Whether a reader takes a front of the octets, whatever follows. -/
abbrev ReadsFront (read : Read α) : Prop :=
  TakesFront Prod.mk read

/-- Whether a front of the octets is passed over, whatever follows. -/
abbrev PassesFront (pass : Bytes → Except Error Bytes) : Prop :=
  TakesFront (fun (_ : Unit) rest => rest) pass

namespace TakesFront

theorem ok (a : α) : TakesFront make fun s => .ok (make a s) := by
  intro s found taken
  obtain rfl := Except.ok.inj taken
  exact ⟨a, [], s, rfl, rfl, fun more => rfl⟩

theorem of_ne_ok {take : Bytes → Except Error γ} (refused : ∀ s found, take s ≠ .ok found) :
    TakesFront make take := by
  intro s found taken
  exact absurd taken (refused s found)

theorem error (e : Error) : TakesFront make fun _ => .error e :=
  .of_ne_ok fun _ _ => nofun

theorem mistyped (room : Nat) (expected : String) (it : Item) :
    TakesFront make fun _ => mistyped room expected it :=
  .of_ne_ok fun _ _ => mistyped_ne_ok

theorem bind {take : Bytes → Except Error γ} {next : γ → Except Error δ}
    (first : TakesFront make take) (goesOn : ∀ a, TakesFront join fun s => next (make a s)) :
    TakesFront join fun s => take s >>= next := by
  intro s found both
  cases begun : take s with
  | error =>
      simp only [begun, Bind.bind, Except.bind] at both
      cases both
  | ok middle =>
      simp only [begun, Bind.bind, Except.bind] at both
      obtain ⟨a, front, left, rfl, rfl, same⟩ := first s middle begun
      obtain ⟨b, back, rest, rfl, rfl, sameBehind⟩ := goesOn a left found both
      refine ⟨b, front ++ back, rest, rfl, (List.append_assoc ..).symm, fun more => ?_⟩
      simp only [List.append_assoc, same, Bind.bind, Except.bind]
      exact sameBehind more

theorem given {x : Except Error β} {next : β → Bytes → Except Error γ}
    (goesOn : ∀ b, TakesFront make (next b)) :
    TakesFront make fun s => x >>= fun b => next b s := by
  cases x with
  | error e => exact .error e
  | ok b => exact goesOn b

end TakesFront

section

variable {read : Read α} {s rest : Bytes} {a : α}

theorem ReadsFront.extend (readsFront : ReadsFront read) (done : read s = .ok (a, rest))
    (more : Bytes) : read (s ++ more) = .ok (a, rest ++ more) := by
  obtain ⟨_, front, _, same, rfl, settled⟩ := readsFront s _ done
  obtain ⟨rfl, rfl⟩ := Prod.mk.inj same
  rw [List.append_assoc]
  exact settled (rest ++ more)

theorem ReadsFront.retract (readsFront : ReadsFront read) {more : Bytes}
    (done : read (s ++ more) = .ok (a, rest ++ more)) : read s = .ok (a, rest) := by
  obtain ⟨_, front, _, same, shape, settled⟩ := readsFront _ _ done
  obtain ⟨rfl, rfl⟩ := Prod.mk.inj same
  rw [← List.append_assoc] at shape
  obtain rfl := List.append_cancel_right shape
  exact settled rest

theorem PassesFront.extend {pass : Bytes → Except Error Bytes} (passesFront : PassesFront pass)
    (done : pass s = .ok rest) (more : Bytes) : pass (s ++ more) = .ok (rest ++ more) := by
  obtain ⟨_, front, _, rfl, rfl, settled⟩ := passesFront s _ done
  rw [List.append_assoc]
  exact settled (rest ++ more)

end

end Fronts

/-! ## Items -/

theorem exists_of_takeOnto {count : Nat} {taken s octets rest : Bytes}
    (found : Bytes.takeOnto count taken s = some (octets, rest)) :
    ∃ front, s = front ++ rest ∧
      ∀ more, Bytes.takeOnto count taken (front ++ more) = some (octets, more) := by
  induction count generalizing taken s with
  | zero =>
      obtain ⟨rfl, rfl⟩ := Prod.mk.inj (Option.some.inj found)
      exact ⟨[], rfl, fun more => rfl⟩
  | succ count ih =>
      cases s with
      | nil => cases found
      | cons byte s =>
          obtain ⟨front, rfl, same⟩ := ih found
          exact ⟨byte :: front, rfl, same⟩

theorem natural_readsFront (width : Nat) : ReadsFront (natural width) := by
  intro s found read
  unfold natural at read
  split at read
  next taken =>
      obtain rfl := Except.ok.inj read
      obtain ⟨front, rfl, same⟩ := exists_of_takeOnto taken
      refine ⟨_, front, _, rfl, rfl, fun more => ?_⟩
      simp only [natural, Bytes.takeExact, same]
  next => cases read

theorem content_readsFront (length : Nat) : ReadsFront (content length) := by
  intro s found read
  unfold content at read
  split at read
  next taken =>
      obtain rfl := Except.ok.inj read
      obtain ⟨front, rfl, same⟩ := exists_of_takeOnto taken
      refine ⟨_, front, _, rfl, rfl, fun more => ?_⟩
      simp only [content, Bytes.takeExact, same]
  next => cases read

theorem size_readsFront (stored : Size) : ReadsFront (size stored) := by
  cases stored with
  | inMarker n => exact .ok n
  | after width => exact natural_readsFront width

theorem itemOf_readsFront (m : Marker) : ReadsFront (itemOf m) := by
  cases m with
  | reserved => exact .error _
  | nil | bool | positive | negative => exact .ok _
  | unsigned width | signed width => exact (natural_readsFront width).bind fun n => .ok _
  | single | double => exact (natural_readsFront _).bind fun n => .ok _
  | text stored =>
      exact (size_readsFront stored).bind fun length =>
        (content_readsFront length).bind fun octets => .ok _
  | bytes width =>
      exact (natural_readsFront width).bind fun length =>
        (content_readsFront length).bind fun octets => .ok _
  | array stored | map stored | extension stored =>
      exact (size_readsFront stored).bind fun count => .ok _

theorem marker_readsFront : ReadsFront marker := by
  intro s found read
  cases s with
  | nil => cases read
  | cons byte s =>
      obtain rfl := Except.ok.inj read
      exact ⟨_, [byte], s, rfl, rfl, fun more => rfl⟩

theorem item_readsFront : ReadsFront item :=
  marker_readsFront.bind itemOf_readsFront

/-! ## Passing over -/

theorem passItems_passesFront {pass : Bytes → Except Error Bytes} (passes : PassesFront pass)
    (count : Nat) : PassesFront (passItems pass count) := by
  induction count with
  | zero => exact .ok ()
  | succ count ih => exact passes.bind fun _ => ih

theorem passWith_passesFront {inner : Option (Bytes → Except Error Bytes)}
    (innerPassed : ∀ pass, inner = some pass → PassesFront pass) :
    PassesFront (passWith inner) := by
  unfold passWith
  refine .bind item_readsFront fun it => ?_
  cases inner with
  | none =>
      cases it with
      | array | map | extension => exact .error _
      | _ => exact .ok ()
  | some pass =>
      have passed := innerPassed pass rfl
      cases it with
      | array count => exact passItems_passesFront passed count
      | map count => exact passItems_passesFront passed (2 * count)
      | extension length =>
          exact .bind (natural_readsFront 1) fun tag =>
            .bind (content_readsFront length) fun octets => .ok ()
      | _ => exact .ok ()

theorem pass_passesFront (room : Nat) : PassesFront (pass room) := by
  induction room with
  | zero =>
      apply passWith_passesFront
      rintro pass ⟨⟩
  | succ room ih =>
      apply passWith_passesFront
      rintro pass ⟨⟩
      exact ih

/-! ## Values -/

theorem items_readsFront {α : Type} {read : Read α} (readFront : ReadsFront read) (count : Nat)
    (done : List α) : ReadsFront (items read count done) := by
  induction count generalizing done with
  | zero => exact .ok done.reverse
  | succ count ih => exact readFront.bind fun v => ih (v :: done)

theorem firstKey_readsFront (room : Nat) : ReadsFront (firstKey room) := by
  unfold firstKey
  refine item_readsFront.bind fun it => ?_
  cases it with
  | text octets => exact .given fun chars => .ok chars
  | _ => exact .mistyped room "a string key" _

theorem text_readsFront (room : Nat) : ReadsFront (text room) := by
  unfold text
  refine item_readsFront.bind fun it => ?_
  cases it with
  | text octets => exact .given fun chars => .ok chars
  | bytes octets =>
      cases decoded : Utf8.decode? octets with
      | none => simpa only [decoded] using .error _
      | some chars => simpa only [decoded] using .ok chars
  | _ => exact .mistyped room "a string" _

theorem entries_readsFront {α : Type} {room : Nat} {read : Read α} (readFront : ReadsFront read)
    {key : Read String} (keyFront : ReadsFront key) (count : Nat) (done : List (String × α)) :
    ReadsFront (entries room read key count done) := by
  induction count generalizing key done with
  | zero => exact .ok done.reverse
  | succ count ih =>
      exact keyFront.bind fun name => readFront.bind fun v =>
        ih (text_readsFront room) ((name, v) :: done)

theorem valueWith_readsFront {inner : Option (Nat × Read Value)}
    (innerFront : ∀ room read, inner = some (room, read) → ReadsFront read) :
    ReadsFront (valueWith inner) := by
  unfold valueWith
  refine item_readsFront.bind fun it => ?_
  cases inner with
  | none =>
      cases it with
      | nil | bool | unsigned | signed | single | double => exact .ok _
      | text octets => exact .given fun chars => .ok _
      | array | map => exact .error _
      | bytes | extension => exact .mistyped 0 "any valid JSON value" _
  | some inside =>
      rcases inside with ⟨room, read⟩
      have readFront := innerFront room read rfl
      cases it with
      | nil | bool | unsigned | signed | single | double => exact .ok _
      | text octets => exact .given fun chars => .ok _
      | array count => exact (items_readsFront readFront count []).bind fun vs => .ok _
      | map count =>
          exact (entries_readsFront readFront (firstKey_readsFront room) count []).bind fun ms =>
            .ok _
      | bytes | extension => exact .mistyped 1 "any valid JSON value" _

theorem value_readsFront (room : Nat) : ReadsFront (value room) := by
  induction room with
  | zero =>
      apply valueWith_readsFront
      rintro room read ⟨⟩
  | succ room ih =>
      apply valueWith_readsFront
      rintro room read ⟨⟩
      exact ih

/-! ## Records -/

namespace Fields

variable {ι σ β : Type} {F : Fields ι σ}

theorem concluded_readsFront (result : Except Mismatch β) : ReadsFront (concluded result) := by
  cases result with
  | ok v => exact .ok v
  | error m => exact .error _

theorem key_readsFront (room : Nat) : ReadsFront (F.key room) := by
  have unknown (e : Error) : ReadsFront fun s =>
      if F.strict then .error e else (.ok (none, s) : Except Error (Option ι × Bytes)) := by
    split
    next => exact .error e
    next => exact .ok none
  unfold key
  refine item_readsFront.bind fun it => ?_
  cases it with
  | unsigned n =>
      cases found : F.order[n]? with
      | some field => simpa only [found] using .ok (some field)
      | none => simpa only [found] using unknown _
  | text octets =>
      cases decoded : Utf8.decode octets with
      | ok chars =>
          cases found : F.named? chars with
          | some field => simpa only [decoded, found] using .ok (some field)
          | none => simpa only [decoded, found] using unknown _
      | error fault => simpa only [decoded] using unknown _
  | bytes octets =>
      cases found : (Utf8.decode? octets).bind F.named? with
      | some field => simpa only [found] using .ok (some field)
      | none => simpa only [found] using unknown _
  | _ => exact .mistyped room "field identifier" _

variable (fillFront : ∀ field state, ReadsFront (F.fill field state))

include fillFront

theorem named_readsFront (room count : Nat) (state : σ) :
    ReadsFront (F.named room count state) := by
  induction count generalizing state with
  | zero => exact .ok state
  | succ count ih =>
      refine (key_readsFront room).bind fun field? => ?_
      cases field? with
      | none => exact .bind (pass_passesFront room) fun _ => ih state
      | some field =>
          simp only
          split
          next => exact .error _
          next => exact (fillFront field state).bind ih

theorem ordered_readsFront (fields : List ι) (count : Nat) (state : σ) :
    ReadsFront (F.ordered fields count state) := by
  induction fields generalizing count state with
  | nil =>
      cases count with
      | zero => exact .ok state
      | succ count => exact .error _
  | cons field fields ih =>
      cases count with
      | zero => exact .ok state
      | succ count => exact (fillFront field state).bind (ih count)

theorem record_readsFront (room : Nat) (start : σ)
    (finishNamed finishOrdered : σ → Except Mismatch β) :
    ReadsFront (F.record room start finishNamed finishOrdered) := by
  unfold record
  refine item_readsFront.bind fun it => ?_
  cases it with
  | map count =>
      cases room with
      | zero => exact .error _
      | succ room =>
          exact (named_readsFront fillFront room count start).bind fun state =>
            concluded_readsFront (finishNamed state)
  | array count =>
      cases room with
      | zero => exact .error _
      | succ room =>
          simp only
          split
          next =>
            exact (ordered_readsFront fillFront F.order count start).bind fun state =>
              concluded_readsFront (finishOrdered state)
          next =>
            exact (ordered_readsFront fillFront F.order F.order.length start).bind fun state =>
              .error _
  | bytes octets => exact .given fun state => concluded_readsFront (finishOrdered state)
  | _ => exact .mistyped room F.expectation _

end Fields

/-! ## Envelopes -/

open Envelope

section Envelopes

variable {α : Type} {layout : Layout α} {head : Read α} {other : Read Value}

theorem envelopeFields_readsFront (headFront : ReadsFront head) (otherFront : ReadsFront other)
    (member : Member) (draft : Draft α) :
    ReadsFront ((envelopeFields layout head other).fill member draft) := by
  cases member with
  | head => exact headFront.bind fun v => .ok _
  | body | id => exact otherFront.bind fun v => .ok _

theorem envelope_readsFront (headFront : ReadsFront head) (otherFront : ReadsFront other) :
    ReadsFront (envelope layout head other) :=
  Fields.record_readsFront (envelopeFields_readsFront headFront otherFront) deepest {} _ _

end Envelopes

theorem front_eq_ok_iff {α : Type} {read : Read α} {s : Bytes} {a : α} :
    front read s = .ok a ↔ ∃ rest, read s = .ok (a, rest) := by
  unfold front
  constructor
  · intro found
    cases ended : read s with
    | error =>
        rw [ended] at found
        cases found
    | ok pair =>
        rw [ended] at found
        exact ⟨pair.2, congrArg Except.ok (Prod.ext (Except.ok.inj found) rfl)⟩
  · rintro ⟨rest, ended⟩
    rw [ended]
    rfl

/-- What stands behind a call plays no part in it. -/
theorem readCall_append {s : Bytes} {call : Call} (read : readCall s = .ok call) (more : Bytes) :
    readCall (s ++ more) = .ok call := by
  obtain ⟨rest, ended⟩ := front_eq_ok_iff.1 read
  have extended := (envelope_readsFront (text_readsFront _) (value_readsFront _)).extend ended more
  exact front_eq_ok_iff.2 ⟨rest ++ more, extended⟩

end RemoteCall.MessagePack
