import RemoteCall.Data.Integer
import RemoteCall.Floating.Rounding

/-!
# Values

A `Value` is what crosses a codec: the data model common to all wire formats.
Its numbers are integers of at most 64 bits and finite floating-point numbers.
An object lists its members in ascending order of their keys, which
`Value.ofMembers` brings about: a later member replaces an earlier one of the
same key.
-/

namespace RemoteCall

/-- The neutral data that arguments and replies are converted to. -/
inductive Value where
  | null
  | bool (b : Bool)
  | integer (n : Integer)
  | float (x : Double) (finite : x.IsFinite)
  | string (text : String)
  | array (items : List Value)
  | object (members : List (String × Value))

namespace Value

instance : Inhabited Value :=
  ⟨null⟩

/-- A floating-point number, or null in place of one that is not finite. -/
def ofDouble (x : Double) : Value :=
  if finite : x.IsFinite then float x finite else null

/-- Whether the value is null. -/
def isNull : Value → Bool
  | null => true
  | _ => false

/-! ## Members -/

/-- Of neighbours with the same key, keeps the last. -/
def keepLast (members : List (String × Value)) : List (String × Value) :=
  members.foldr (fun member kept =>
    match kept with
    | [] => [member]
    | next :: _ => if member.1 = next.1 then kept else member :: kept) []

/-- The object with these members; of two with the same key the later one counts. -/
def ofMembers (members : List (String × Value)) : Value :=
  object (keepLast (members.mergeSort fun a b => a.1 ≤ b.1))

/-- The member of that name, if the value is an object that has it. -/
def member? (name : String) : Value → Option Value
  | object members => members.lookup name
  | _ => none

/-! ## Laws -/

theorem isNull_eq_false_iff {v : Value} : v.isNull = false ↔ v ≠ null := by
  cases v <;> simp [isNull]

@[simp]
theorem ofDouble_of_isFinite {x : Double} (finite : x.IsFinite) : ofDouble x = float x finite := by
  simp [ofDouble, finite]

theorem keepLast_of_ascending {members : List (String × Value)}
    (ascending : members.Pairwise fun a b => a.1 < b.1) : keepLast members = members := by
  induction members with
  | nil => rfl
  | cons first rest ih =>
    have ⟨after, restAscending⟩ := List.pairwise_cons.1 ascending
    have kept : keepLast rest = rest := ih restAscending
    rw [keepLast, List.foldr_cons]
    change (match keepLast rest with
      | [] => [first]
      | next :: _ => if first.1 = next.1 then keepLast rest else first :: keepLast rest) = _
    rw [kept]
    cases rest with
    | nil => rfl
    | cons next rest =>
      have different : first.1 ≠ next.1 := fun same =>
        String.lt_irrefl next.1 (same ▸ after next List.mem_cons_self)
      simp [different]

/-- Members that are in order already make up the object as they are. -/
theorem ofMembers_of_ascending {members : List (String × Value)}
    (ascending : members.Pairwise fun a b => a.1 < b.1) : ofMembers members = object members := by
  have sorted : members.mergeSort (fun a b => decide (a.1 ≤ b.1)) = members :=
    List.mergeSort_of_pairwise (ascending.imp fun h => by simpa using Std.le_of_lt h)
  rw [ofMembers, sorted, keepLast_of_ascending ascending]

end Value

end RemoteCall
