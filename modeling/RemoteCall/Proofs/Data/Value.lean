import RemoteCall.Data.Value
import RemoteCall.Text.Utf8

/-!
# The shape of values

What the formats need to know of a value before they can carry it: how deep it
is nested, whether the members of its objects are in order, whether it holds a
floating-point number, and whether its texts, arrays and objects are short
enough for a length of four octets.

`Value.normal` puts the members of all objects in order, as reading does.  A
value whose members are in order is its own normal form.
-/

namespace RemoteCall.Value

/-! ## Induction -/

/-- Induction over values: what holds of all items, or of all members, holds of
the array or the object that they make. -/
@[elab_as_elim]
theorem inductionOn {motive : Value → Prop} (null : motive null) (bool : ∀ b, motive (bool b))
    (integer : ∀ n, motive (integer n)) (float : ∀ x finite, motive (float x finite))
    (string : ∀ chars, motive (string chars))
    (array : ∀ items, (∀ item ∈ items, motive item) → motive (array items))
    (object : ∀ members, (∀ member ∈ members, motive member.2) → motive (object members)) :
    ∀ v : Value, motive v
  | .null => null
  | .bool b => bool b
  | .integer n => integer n
  | .float x finite => float x finite
  | .string chars => string chars
  | .array items => array items fun item _ =>
      inductionOn null bool integer float string array object item
  | .object members => object members fun member _ =>
      inductionOn null bool integer float string array object member.2
termination_by v => sizeOf v
decreasing_by
  · have smaller := List.sizeOf_lt_of_mem ‹item ∈ items›
    simp only [Value.array.sizeOf_spec]
    omega
  · have smaller := List.sizeOf_lt_of_mem ‹member ∈ members›
    rcases member with ⟨name, v⟩
    simp only [Value.object.sizeOf_spec, Prod.mk.sizeOf_spec] at smaller ⊢
    omega

/-! ## Depth -/

mutual

/-- How many arrays and objects stand inside one another. -/
def depth : Value → Nat
  | array items => depthOfItems items + 1
  | object members => depthOfMembers members + 1
  | _ => 0

/-- The greatest depth of an item. -/
def depthOfItems : List Value → Nat
  | [] => 0
  | item :: rest => max item.depth (depthOfItems rest)

/-- The greatest depth of a member. -/
def depthOfMembers : List (String × Value) → Nat
  | [] => 0
  | (_, v) :: rest => max v.depth (depthOfMembers rest)

end

theorem depthOfItems_le_iff {items : List Value} {limit : Nat} :
    depthOfItems items ≤ limit ↔ ∀ item ∈ items, item.depth ≤ limit := by
  induction items with
  | nil => simp [depthOfItems]
  | cons item rest ih => simp only [depthOfItems, Nat.max_le, ih, List.forall_mem_cons]

theorem depthOfMembers_le_iff {members : List (String × Value)} {limit : Nat} :
    depthOfMembers members ≤ limit ↔ ∀ member ∈ members, member.2.depth ≤ limit := by
  induction members with
  | nil => simp [depthOfMembers]
  | cons member rest ih => simp only [depthOfMembers, Nat.max_le, ih, List.forall_mem_cons]

/-- The items of an array have one level less. -/
theorem depth_array_le_succ_iff {items : List Value} {limit : Nat} :
    (array items).depth ≤ limit + 1 ↔ ∀ item ∈ items, item.depth ≤ limit := by
  rw [depth, Nat.add_le_add_iff_right, depthOfItems_le_iff]

/-- The members of an object have one level less. -/
theorem depth_object_le_succ_iff {members : List (String × Value)} {limit : Nat} :
    (object members).depth ≤ limit + 1 ↔ ∀ member ∈ members, member.2.depth ≤ limit := by
  rw [depth, Nat.add_le_add_iff_right, depthOfMembers_le_iff]

/-! ## Parts -/

/-- A value, one of its items or members, one of theirs, and so on. -/
inductive Part : Value → Value → Prop where
  | whole (v : Value) : Part v v
  | item {part item : Value} {items : List Value} :
      item ∈ items → Part part item → Part part (array items)
  | member {part : Value} {member : String × Value} {members : List (String × Value)} :
      member ∈ members → Part part member.2 → Part part (object members)

/-- Whether a condition holds of every part. -/
def Everywhere (condition : Value → Prop) (v : Value) : Prop :=
  ∀ part, Part part v → condition part

namespace Everywhere

variable {condition : Value → Prop}

theorem self {v : Value} (everywhere : Everywhere condition v) : condition v :=
  everywhere v (.whole v)

theorem item {item : Value} {items : List Value} (everywhere : Everywhere condition (array items))
    (mem : item ∈ items) : Everywhere condition item := by
  intro part inside
  exact everywhere part (.item mem inside)

theorem member {member : String × Value} {members : List (String × Value)}
    (everywhere : Everywhere condition (object members)) (mem : member ∈ members) :
    Everywhere condition member.2 := by
  intro part inside
  exact everywhere part (.member mem inside)

theorem of_array {items : List Value} (whole : condition (array items))
    (inItems : ∀ item ∈ items, Everywhere condition item) :
    Everywhere condition (array items) := by
  intro part inside
  cases inside with
  | whole => exact whole
  | item mem inside => exact inItems _ mem part inside

theorem of_object {members : List (String × Value)} (whole : condition (object members))
    (inMembers : ∀ member ∈ members, Everywhere condition member.2) :
    Everywhere condition (object members) := by
  intro part inside
  cases inside with
  | whole => exact whole
  | member mem inside => exact inMembers _ mem part inside

/-- What has no parts but itself satisfies a condition everywhere if it satisfies it at all. -/
theorem of_scalar {v : Value} (shallow : v.depth = 0) (whole : condition v) :
    Everywhere condition v := by
  intro part inside
  cases inside with
  | whole => exact whole
  | item => simp [depth] at shallow
  | member => simp [depth] at shallow

end Everywhere

/-- Whether the members of every object are in ascending order of their keys. -/
def Ordered : Value → Prop :=
  Everywhere fun
    | object members => members.Pairwise fun a b => a.1 < b.1
    | _ => True

/-- Whether no part is a floating-point number. -/
def FloatFree : Value → Prop :=
  Everywhere fun
    | float _ _ => False
    | _ => True

/-- Whether no object has two members of the same key. -/
def KeysDistinct : Value → Prop :=
  Everywhere fun
    | object members => (members.map Prod.fst).Nodup
    | _ => True

/-- What is too long for a length of four octets. -/
def lengthBound : Nat := 0x100000000

/-- Whether all texts, arrays and objects are short enough for a length of four octets. -/
def Short : Value → Prop :=
  Everywhere fun
    | string chars => (Utf8.encode chars).length < lengthBound
    | array items => items.length < lengthBound
    | object members => members.length < lengthBound ∧
        ∀ member ∈ members, (Utf8.encode member.1).length < lengthBound
    | _ => True

/-! ## Normal form -/

mutual

/-- The value with the members of every object in order; of two with the same key
the later one counts. -/
def normal : Value → Value
  | array items => array (normalItems items)
  | object members => ofMembers (normalMembers members)
  | v => v

/-- The normal forms of items. -/
def normalItems : List Value → List Value
  | [] => []
  | item :: rest => item.normal :: normalItems rest

/-- The members with their values in normal form. -/
def normalMembers : List (String × Value) → List (String × Value)
  | [] => []
  | (name, v) :: rest => (name, v.normal) :: normalMembers rest

end

theorem normalItems_eq_map (items : List Value) : normalItems items = items.map normal := by
  induction items with
  | nil => rfl
  | cons item rest ih => rw [normalItems, ih, List.map_cons]

theorem normalMembers_eq_map (members : List (String × Value)) :
    normalMembers members = members.map fun member => (member.1, member.2.normal) := by
  induction members with
  | nil => rfl
  | cons member rest ih => rw [normalMembers, ih, List.map_cons]

theorem normal_array (items : List Value) : (array items).normal = array (items.map normal) := by
  rw [normal, normalItems_eq_map]

theorem normal_object (members : List (String × Value)) :
    (object members).normal
      = ofMembers (members.map fun member => (member.1, member.2.normal)) := by
  rw [normal, normalMembers_eq_map]

/-- A value whose members are in order is its own normal form. -/
theorem normal_of_ordered {v : Value} (ordered : v.Ordered) : v.normal = v := by
  induction v using inductionOn with
  | null | bool | integer | float | string => rfl
  | array items ih =>
      have same : items.map normal = items := by
        apply (List.map_congr_left _).trans items.map_id
        intro item mem
        exact ih item mem (ordered.item mem)
      rw [normal_array, same]
  | object members ih =>
      have same : members.map (fun member => (member.1, member.2.normal)) = members := by
        apply (List.map_congr_left _).trans members.map_id
        intro member mem
        rw [ih member mem (ordered.member mem)]
        rfl
      rw [normal_object, same, ofMembers_of_ascending ordered.self]

/-! ## Members that count -/

theorem keepLast_cons (first : String × Value) (rest : List (String × Value)) :
    keepLast (first :: rest) =
      match keepLast rest with
      | [] => [first]
      | next :: kept => if first.1 = next.1 then next :: kept else first :: next :: kept := by
  change (match keepLast rest with
    | [] => [first]
    | next :: _ => if first.1 = next.1 then keepLast rest else first :: keepLast rest) = _
  cases keepLast rest <;> rfl

theorem keepLast_sublist (members : List (String × Value)) :
    (keepLast members).Sublist members := by
  induction members with
  | nil => exact List.Sublist.refl _
  | cons first rest ih =>
      rw [keepLast_cons]
      split
      next => exact (List.nil_sublist rest).cons_cons first
      next next kept same =>
          rw [same] at ih
          split
          · exact ih.cons first
          · exact ih.cons_cons first

/-- Of two members under one key the later one counts. -/
theorem ofMembers_same_key (name : String) (v w : Value) :
    ofMembers [(name, v), (name, w)] = object [(name, w)] := by
  have sorted : [(name, v), (name, w)].mergeSort (fun a b => decide (a.1 ≤ b.1))
      = [(name, v), (name, w)] := by
    simp [List.mergeSort]
  have last : keepLast [(name, w)] = [(name, w)] := rfl
  rw [ofMembers, sorted, keepLast_cons, last]
  exact congrArg object (if_pos rfl)

/-- The normal form has no members but those of the value, and so no more levels. -/
theorem depth_normal_le (v : Value) : v.normal.depth ≤ v.depth := by
  induction v using inductionOn with
  | null | bool | integer | float | string => exact Nat.le_refl _
  | array items ih =>
      rw [normal_array, depth, depth]
      apply Nat.succ_le_succ
      apply depthOfItems_le_iff.2
      intro item mem
      rcases List.mem_map.1 mem with ⟨given, memGiven, rfl⟩
      exact Nat.le_trans (ih given memGiven)
        (depthOfItems_le_iff.1 (Nat.le_refl _) _ memGiven)
  | object members ih =>
      rw [normal_object, ofMembers, depth, depth]
      apply Nat.succ_le_succ
      apply depthOfMembers_le_iff.2
      intro member mem
      have kept := List.mem_mergeSort.1 ((keepLast_sublist _).subset mem)
      rcases List.mem_map.1 kept with ⟨given, memGiven, rfl⟩
      exact Nat.le_trans (ih given memGiven)
        (depthOfMembers_le_iff.1 (Nat.le_refl _) _ memGiven)

/-! ## Distinct keys -/

/-- Members of distinct keys make up an object of just these members. -/
theorem exists_perm_ofMembers {members : List (String × Value)}
    (distinct : (members.map Prod.fst).Nodup) :
    ∃ sorted, ofMembers members = object sorted ∧ sorted.Perm members := by
  let sorted := members.mergeSort fun a b => decide (a.1 ≤ b.1)
  have perm : sorted.Perm members := List.mergeSort_perm members _
  have inOrder : sorted.Pairwise fun a b => decide (a.1 ≤ b.1) = true := by
    refine List.pairwise_mergeSort (fun a b c aLeB bLeC => ?_) (fun a b => ?_) members
    · exact decide_eq_true (String.le_trans (of_decide_eq_true aLeB) (of_decide_eq_true bLeC))
    · simpa using String.le_total a.1 b.1
  have apart : sorted.Pairwise fun a b => a.1 ≠ b.1 :=
    List.pairwise_map.1 ((perm.map Prod.fst).nodup_iff.2 distinct)
  have ascending : sorted.Pairwise fun a b => a.1 < b.1 :=
    inOrder.imp₂ (fun a b le ne => Std.lt_of_le_of_ne (of_decide_eq_true le) ne) apart
  refine ⟨sorted, ?_, perm⟩
  change object (keepLast sorted) = object sorted
  rw [keepLast_of_ascending ascending]

theorem lookup_of_distinct {name : String} {v : Value} {members : List (String × Value)}
    (distinct : (members.map Prod.fst).Nodup) (mem : (name, v) ∈ members) :
    members.lookup name = some v := by
  induction members with
  | nil => cases mem
  | cons first rest ih =>
      rcases first with ⟨firstName, firstValue⟩
      have ⟨firstAbsent, restDistinct⟩ := List.nodup_cons.1 distinct
      by_cases same : name = firstName
      · subst same
        rcases List.mem_cons.1 mem with whole | later
        · simp [(Prod.mk.inj whole).2]
        · exact absurd (List.mem_map_of_mem later) firstAbsent
      · have later : (name, v) ∈ rest :=
          (List.mem_cons.1 mem).resolve_left fun whole => same (Prod.mk.inj whole).1
        have differs : (name == firstName) = false := by simpa using same
        simp only [List.lookup_cons, differs, ih restDistinct later]

/-- A member of an object of distinct keys is found by its name. -/
theorem member?_ofMembers {name : String} {v : Value} {members : List (String × Value)}
    (distinct : (members.map Prod.fst).Nodup) (mem : (name, v) ∈ members) :
    (ofMembers members).member? name = some v := by
  rcases exists_perm_ofMembers distinct with ⟨sorted, made, perm⟩
  rw [made]
  exact lookup_of_distinct ((perm.map Prod.fst).nodup_iff.2 distinct) (perm.mem_iff.2 mem)

/-- Of distinct keys, none is lost and the depth is that of the normal form. -/
theorem depth_le_depth_normal {v : Value} (distinct : v.KeysDistinct) :
    v.depth ≤ v.normal.depth := by
  induction v using inductionOn with
  | null | bool | integer | float | string => exact Nat.zero_le _
  | array items ih =>
      rw [normal_array, depth, depth]
      apply Nat.succ_le_succ
      apply depthOfItems_le_iff.2
      intro item mem
      exact Nat.le_trans (ih item mem (distinct.item mem))
        (depthOfItems_le_iff.1 (Nat.le_refl _) _ (List.mem_map_of_mem mem))
  | object members ih =>
      have keys : ((members.map fun member => (member.1, member.2.normal)).map Prod.fst).Nodup := by
        rw [List.map_map]
        exact distinct.self
      rcases exists_perm_ofMembers keys with ⟨sorted, made, perm⟩
      rw [normal_object, made, depth, depth]
      apply Nat.succ_le_succ
      apply depthOfMembers_le_iff.2
      intro member mem
      apply Nat.le_trans (ih member mem (distinct.member mem))
      exact depthOfMembers_le_iff.1 (Nat.le_refl _) _ (perm.mem_iff.2 (List.mem_map_of_mem mem))

/-! ## Equality -/

mutual

/-- Whether two values are the same. -/
def same : Value → Value → Bool
  | null, null => true
  | bool b, bool c => b == c
  | integer m, integer n => m == n
  | float x _, float y _ => decide (x = y)
  | string text, string other => text == other
  | array items, array others => sameItems items others
  | object members, object others => sameMembers members others
  | _, _ => false

/-- Whether two lists hold the same values. -/
def sameItems : List Value → List Value → Bool
  | [], [] => true
  | v :: rest, w :: others => same v w && sameItems rest others
  | _, _ => false

/-- Whether two lists hold the same members. -/
def sameMembers : List (String × Value) → List (String × Value) → Bool
  | [], [] => true
  | (name, v) :: rest, (other, w) :: others => name == other && same v w && sameMembers rest others
  | _, _ => false

end

theorem sameItems_iff {items : List Value}
    (each : ∀ item ∈ items, ∀ w, same item w = true ↔ item = w) (others : List Value) :
    sameItems items others = true ↔ items = others := by
  induction items generalizing others with
  | nil => cases others <;> simp [sameItems]
  | cons item rest ih =>
      have first := each item List.mem_cons_self
      have left := ih fun other mem => each other (List.mem_cons_of_mem _ mem)
      cases others <;> simp [sameItems, first, left]

theorem sameMembers_iff {members : List (String × Value)}
    (each : ∀ member ∈ members, ∀ w, same member.2 w = true ↔ member.2 = w)
    (others : List (String × Value)) : sameMembers members others = true ↔ members = others := by
  induction members generalizing others with
  | nil => cases others <;> simp [sameMembers]
  | cons member rest ih =>
      rcases member with ⟨name, v⟩
      have first : ∀ w, same v w = true ↔ v = w := each (name, v) List.mem_cons_self
      have left := ih fun other mem => each other (List.mem_cons_of_mem _ mem)
      rcases others with _ | ⟨⟨other, w⟩, others⟩
      · simp [sameMembers]
      · simp [sameMembers, first, left]

theorem same_iff (v w : Value) : same v w = true ↔ v = w := by
  induction v using inductionOn generalizing w with
  | null | bool | integer | float | string => cases w <;> simp [same]
  | array items ih =>
      cases w with
      | array others => simp [same, sameItems_iff ih others]
      | _ => simp [same]
  | object members ih =>
      cases w with
      | object others => simp [same, sameMembers_iff ih others]
      | _ => simp [same]

instance : DecidableEq Value := fun v w =>
  decidable_of_iff _ (same_iff v w)

end RemoteCall.Value
