import RemoteCall.Envelope.Basic
import RemoteCall.Proofs.Data.Value

/-!
# The envelope that a value is

A reader of envelopes takes members one by one, in the order in which they come,
and passes over those that it does not know.  `Layout.ofValue?` looks the members
up in a finished value instead: by their names in an object, by their places in
an array of three items at most.

The two ways agree on members of which none that the layout knows comes twice.
In the value such a member would be replaced by the later one; the reader
refuses it.
-/

namespace RemoteCall

/-- Of two computations in a row, a result is left if both have one. -/
theorem toOption_bind {ε α β : Type} (first : Except ε α) (second : α → Except ε β) :
    (first >>= second).toOption = first.toOption.bind fun a => (second a).toOption := by
  cases first <;> rfl

theorem toOption_mapError {ε δ α : Type} (f : ε → δ) (result : Except ε α) :
    (result.mapError f).toOption = result.toOption := by
  cases result <;> rfl

theorem toOption_eq_some_iff {ε α : Type} {result : Except ε α} {a : α} :
    result.toOption = some a ↔ result = .ok a := by
  cases result <;> simp [Except.toOption]

theorem toOption_eq_none_iff {ε α : Type} {result : Except ε α} :
    result.toOption = none ↔ ∃ e, result = .error e := by
  cases result <;> simp [Except.toOption]

/-! ## Looking up members -/

namespace Value

theorem lookup_eq_none_of_count {name : String} {members : List (String × Value)}
    (absent : (members.map Prod.fst).count name = 0) : members.lookup name = none := by
  rw [List.lookup_eq_none_iff]
  rintro ⟨other, v⟩ mem
  have different : name ≠ other := by
    rintro rfl
    exact List.count_eq_zero.1 absent (List.mem_map_of_mem mem)
  simpa using different

/-- A name that comes once at most is looked up to the one member that has it. -/
theorem lookup_eq_some_iff {name : String} {v : Value} {members : List (String × Value)}
    (once : (members.map Prod.fst).count name ≤ 1) :
    members.lookup name = some v ↔ (name, v) ∈ members := by
  induction members with
  | nil => simp
  | cons first rest ih =>
      rcases first with ⟨firstName, firstValue⟩
      by_cases same : firstName = name
      · subst same
        have absent : (rest.map Prod.fst).count firstName = 0 := by
          simpa [List.count_cons] using once
        have notLater : (firstName, v) ∉ rest := fun later =>
          List.count_eq_zero.1 absent (List.mem_map_of_mem later)
        simp [notLater, eq_comm]
      · have differs : (name == firstName) = false := by simpa using Ne.symm same
        have later := ih (by simpa [List.count_cons, same] using once)
        have notFirst : ((name, v) : String × Value) ≠ (firstName, firstValue) := fun whole =>
          same (Prod.mk.inj whole).1.symm
        simp [List.lookup_cons, differs, later, notFirst]

theorem lookup_of_perm {name : String} {members others : List (String × Value)}
    (perm : members.Perm others) (once : (members.map Prod.fst).count name ≤ 1) :
    members.lookup name = others.lookup name := by
  have onceToo : (others.map Prod.fst).count name ≤ 1 := (perm.map Prod.fst).count_eq name ▸ once
  apply Option.ext
  intro v
  rw [lookup_eq_some_iff once, lookup_eq_some_iff onceToo, perm.mem_iff]

/-- Members are dropped only in favour of others of the same name. -/
theorem lookup_keepLast {name : String} {members : List (String × Value)}
    (once : (members.map Prod.fst).count name ≤ 1) :
    (keepLast members).lookup name = members.lookup name := by
  induction members with
  | nil => rfl
  | cons first rest ih =>
      rcases first with ⟨firstName, firstValue⟩
      have later := ih (Nat.le_trans (List.count_le_count_cons ..) once)
      rw [keepLast_cons]
      split
      next none =>
          rw [none] at later
          simp [List.lookup_cons, ← later]
      next next kept same =>
          rw [same] at later
          split
          next dropped =>
              have notName : firstName ≠ name := by
                rintro rfl
                have inRest : next ∈ rest :=
                  (keepLast_sublist rest).subset (same ▸ List.mem_cons_self)
                have again : next.1 ∈ rest.map Prod.fst := List.mem_map_of_mem inRest
                rw [← (dropped : firstName = next.1)] at again
                have counted : 0 < (rest.map Prod.fst).count firstName := List.count_pos_iff.2 again
                have absent : (rest.map Prod.fst).count firstName = 0 := by
                  simpa [List.count_cons] using once
                omega
              have differs : (name == firstName) = false := by simpa using notName.symm
              rw [later]
              simp only [List.lookup_cons, differs]
          next =>
              rw [List.lookup_cons, later]
              rfl

/-- A name that comes once at most is found in the object that the members make up
as it is found among the members. -/
theorem member?_ofMembers_of_once {name : String} {members : List (String × Value)}
    (once : (members.map Prod.fst).count name ≤ 1) :
    (ofMembers members).member? name = members.lookup name := by
  let sorted := members.mergeSort fun a b => decide (a.1 ≤ b.1)
  have perm : sorted.Perm members := List.mergeSort_perm members _
  have onceSorted : (sorted.map Prod.fst).count name ≤ 1 :=
    (perm.map Prod.fst).count_eq name ▸ once
  exact (lookup_keepLast onceSorted).trans (lookup_of_perm perm onceSorted)

end Value

namespace Envelope

variable {α : Type}

/-! ## Looking up an envelope -/

/-- The place of a member in declared order, counted from zero. -/
def Member.place : Member → Nat
  | .head => 0
  | .body => 1
  | .id => 2

namespace Layout

variable (layout : Layout α) (accept : Value → Option α)

/-- The envelope of the members found: a first member has to be accepted, another member
that is not found is null. -/
def assemble (found : Member → Option Value) : Option (Envelope α) :=
  (match found .head with
    | some v => accept v
    | none => layout.absentHead).map
  fun head => ⟨head, (found .body).getD .null, (found .id).getD .null⟩

/-- The envelope that a value is: an object by the names of its members, an array of three
items at most by their places. -/
def ofValue? : Value → Option (Envelope α)
  | .object members => layout.assemble accept fun member => members.lookup (layout.nameOf member)
  | .array items =>
    if items.length ≤ 3 then layout.assemble accept fun member => items[member.place]? else none
  | _ => none

theorem ofValue?_ofDouble (x : Double) : layout.ofValue? accept (.ofDouble x) = none := by
  unfold Value.ofDouble
  split <;> rfl

theorem nameOf_mem (member : Member) :
    layout.nameOf member ∈ [layout.head, layout.body, "id"] := by
  cases member <;> simp [nameOf]

/-- Whether no two members have the same name. -/
def Distinct : Prop :=
  layout.body ≠ layout.head ∧ "id" ≠ layout.head ∧ "id" ≠ layout.body

theorem Distinct.member?_eq_some_iff {layout : Layout α} (distinct : layout.Distinct)
    {name : String} {member : Member} :
    layout.member? name = some member ↔ name = layout.nameOf member := by
  obtain ⟨bodyNotHead, idNotHead, idNotBody⟩ := distinct
  unfold member?
  constructor
  · intro known
    cases member <;> simp only [nameOf] <;> grind
  · rintro rfl
    cases member with
    | head => simp [nameOf]
    | body => simp [nameOf, bodyNotHead]
    | id => simp [nameOf, idNotHead, idNotBody]

end Layout

theorem answerLayout_distinct : answerLayout.Distinct := by
  refine ⟨?_, ?_, ?_⟩ <;> decide

/-! ## Reading members one after the other -/

namespace Draft

section

variable (layout : Layout α) (accept : Value → Option α)

/-- The draft with a member of the given value, if it may have that. -/
def put? (draft : Draft α) : Member → Value → Option (Draft α)
  | .head, v => (accept v).map fun head => { draft with head := some head }
  | .body, v => some { draft with body := some v }
  | .id, v => some { draft with id := some v }

/-- The draft after one more member of an object. -/
def putNamed? (draft : Draft α) (member : String × Value) : Option (Draft α) :=
  match layout.member? member.1 with
  | none => some draft
  | some known => if draft.has known then none else draft.put? accept known member.2

/-- The draft after members that are found where `found` says. -/
def with? (draft : Draft α) (found : Member → Option Value) : Option (Draft α) :=
  (match found .head with
    | some v => (accept v).map some
    | none => some draft.head).map
  fun head => ⟨head, (found .body).or draft.body, (found .id).or draft.id⟩

end

variable {layout : Layout α} {accept : Value → Option α}

/-- Whether members of an object can follow: none that has been read comes again, and
no other comes twice. -/
def Open (layout : Layout α) (draft : Draft α) (members : List (String × Value)) : Prop :=
  ∀ member, (members.map Prod.fst).count (layout.nameOf member)
    ≤ if draft.has member then 0 else 1

theorem has_put? {draft filled : Draft α} {member : Member} {v : Value}
    (put : draft.put? accept member v = some filled) (other : Member) :
    filled.has other = (draft.has other || other = member) := by
  cases member with
  | head =>
      obtain ⟨head, -, rfl⟩ := Option.map_eq_some_iff.1 put
      cases other <;> simp [has]
  | body =>
      obtain rfl := Option.some.inj put
      cases other <;> simp [has]
  | id =>
      obtain rfl := Option.some.inj put
      cases other <;> simp [has]

theorem Open.after_unknown {draft : Draft α} {name : String} {v : Value}
    {rest : List (String × Value)} (isOpen : draft.Open layout ((name, v) :: rest)) :
    draft.Open layout rest :=
  fun member => Nat.le_trans (List.count_le_count_cons ..) (isOpen member)

/-- A member that can follow has not been read, and can follow no more once it has. -/
theorem Open.after_known {draft filled : Draft α} {member : Member} {v : Value}
    {rest : List (String × Value)}
    (isOpen : draft.Open layout ((layout.nameOf member, v) :: rest))
    (put : draft.put? accept member v = some filled) :
    filled.Open layout rest := by
  intro other
  have bound := isOpen other
  rw [has_put? put]
  by_cases same : other = member
  · subst same
    rw [List.map_cons, List.count_cons_self] at bound
    simp only [Bool.or_true, decide_true, if_true]
    split at bound <;> omega
  · have counted : (rest.map Prod.fst).count (layout.nameOf other)
        ≤ (((layout.nameOf member, v) :: rest).map Prod.fst).count (layout.nameOf other) :=
      List.count_le_count_cons ..
    simp only [same, decide_false, Bool.or_false]
    exact Nat.le_trans counted bound

theorem Open.new {draft : Draft α} {member : Member} {v : Value} {rest : List (String × Value)}
    (isOpen : draft.Open layout ((layout.nameOf member, v) :: rest)) :
    draft.has member = false := by
  have bound := isOpen member
  rw [List.map_cons, List.count_cons_self] at bound
  cases read : draft.has member with
  | false => rfl
  | true => simp [read] at bound

/-- Putting a member first and finding others later is finding all of them, unless the
member is among the others. -/
theorem bind_put?_with? (draft : Draft α) (member : Member) (v : Value)
    {found : Member → Option Value} (absent : found member = none) :
    ((draft.put? accept member v).bind fun filled => filled.with? accept found)
      = draft.with? accept (fun other => if other = member then some v else found other) := by
  cases member with
  | head => cases accepted : accept v <;> simp [put?, with?, absent, accepted]
  | body => simp [put?, with?, absent]
  | id => simp [put?, with?, absent]

/-- Reading members in the order in which they come is finding each by its name. -/
theorem foldlM_putNamed? (distinct : layout.Distinct) {draft : Draft α}
    {members : List (String × Value)} (isOpen : draft.Open layout members) :
    members.foldlM (putNamed? layout accept) draft
      = draft.with? accept fun member => members.lookup (layout.nameOf member) := by
  induction members generalizing draft with
  | nil => simp [with?]
  | cons first rest ih =>
      rcases first with ⟨name, v⟩
      cases known : layout.member? name with
      | none =>
          have unnamed (member : Member) : (layout.nameOf member == name) = false := by
            have differs : name ≠ layout.nameOf member := fun same => by
              simp [distinct.member?_eq_some_iff.2 same] at known
            simpa using differs.symm
          have left := ih isOpen.after_unknown
          simp only [List.foldlM_cons, putNamed?, known, List.lookup_cons, unnamed]
          exact left
      | some member =>
          obtain rfl := distinct.member?_eq_some_iff.1 known
          have absent : rest.lookup (layout.nameOf member) = none := by
            have bound := isOpen member
            rw [List.map_cons, List.count_cons_self] at bound
            apply Value.lookup_eq_none_of_count
            split at bound <;> omega
          have named (other : Member) : (layout.nameOf other == layout.nameOf member)
              = decide (other = member) := by
            by_cases same : other = member
            · simp [same]
            · have apart : layout.nameOf other ≠ layout.nameOf member := fun equal => same <|
                Option.some.inj ((distinct.member?_eq_some_iff.2 rfl).symm.trans (equal ▸ known))
              simpa [same] using apart
          have others :
              (fun other => ((layout.nameOf member, v) :: rest).lookup (layout.nameOf other))
                = fun other => if other = member then some v
                  else rest.lookup (layout.nameOf other) := by
            funext other
            rw [List.lookup_cons, named]
            by_cases same : other = member <;> simp [same]
          have step : ((layout.nameOf member, v) :: rest).foldlM (putNamed? layout accept) draft
              = (draft.put? accept member v).bind
                  (rest.foldlM (putNamed? layout accept)) := by
            simp [putNamed?, known, isOpen.new]
          rw [others, step, ← bind_put?_with? draft member v absent]
          apply Option.bind_congr
          intro filled put
          exact ih (isOpen.after_known put)

theorem finish_with? (found : Member → Option Value) (missing : Mismatch) :
    ((({} : Draft α).with? accept found).bind fun draft => (draft.finish layout missing).toOption)
      = layout.assemble accept found := by
  cases first : found .head with
  | none => cases absent : layout.absentHead <;>
      simp [with?, Layout.assemble, first, finish, absent, Except.toOption]
  | some v => cases accepted : accept v <;>
      simp [with?, Layout.assemble, first, finish, accepted, Except.toOption]

/-- Reading the members of an object gives the envelope that the object is. -/
theorem finishNamed_members (distinct : layout.Distinct) {members : List (String × Value)}
    (once : ∀ member, (members.map Prod.fst).count (layout.nameOf member) ≤ 1) :
    ((members.foldlM (putNamed? layout accept) {}).bind
        fun draft => (draft.finishNamed layout).toOption)
      = layout.ofValue? accept (.ofMembers members) := by
  have isOpen : ({} : Draft α).Open layout members := by
    intro member
    have unread : ({} : Draft α).has member = false := by cases member <;> rfl
    simpa [unread] using once member
  have found : (fun member => members.lookup (layout.nameOf member))
      = fun member => (Value.ofMembers members).member? (layout.nameOf member) := by
    funext member
    exact (Value.member?_ofMembers_of_once (once member)).symm
  rw [foldlM_putNamed? distinct isOpen, found]
  exact finish_with? _ _

/-- The draft after the items of an array, each for the member in its place. -/
def putItems? (accept : Value → Option α) (draft : Draft α) (places : List (Member × Value)) :
    Option (Draft α) :=
  places.foldlM (fun draft place => draft.put? accept place.1 place.2) draft

/-- Reading the items of an array gives the envelope that the array is. -/
theorem finishSequence_items {items : List Value} (few : items.length ≤ 3) :
    ((putItems? accept {} ([.head, .body, .id].zip items)).bind
        fun draft => (draft.finishSequence layout).toOption)
      = layout.ofValue? accept (.array items) := by
  have found : putItems? accept {} ([.head, .body, .id].zip items)
      = ({} : Draft α).with? accept fun member => items[member.place]? := by
    rcases items with _ | ⟨first, _ | ⟨second, _ | ⟨third, _ | ⟨fourth, rest⟩⟩⟩⟩
    · rfl
    · cases accepted : accept first <;>
        simp [putItems?, put?, with?, Member.place, accepted]
    · cases accepted : accept first <;>
        simp [putItems?, put?, with?, Member.place, accepted]
    · cases accepted : accept first <;>
        simp [putItems?, put?, with?, Member.place, accepted]
    · simp only [List.length_cons] at few
      omega
  rw [found, Layout.ofValue?, if_pos few]
  exact finish_with? _ _

end Draft

end Envelope

end RemoteCall
