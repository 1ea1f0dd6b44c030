import RemoteCall.Proofs.MessagePack.Item
import RemoteCall.Proofs.MessagePack.Writer

/-!
# Reading back MessagePack values

The reader gives a written value back in normal form, whatever follows it,
provided that its texts, arrays and objects are short enough for their lengths
and that there is room for all arrays and objects inside one another.  Finite
floating-point numbers are among what is given back.
-/

namespace RemoteCall.MessagePack

/-! ## Items and entries -/

/-- Whether a reader gives a value back in normal form. -/
def Recovers (read : Read Value) (v : Value) : Prop :=
  ∀ rest, read (packing v ++ rest) = .ok (v.normal, rest)

/-- Whether a reader gives a short text back. -/
def RecoversText (read : Read String) : Prop :=
  ∀ name, (Utf8.encode name).length < Value.lengthBound →
    ∀ rest, read ((putText name []).reverse ++ rest) = .ok (name, rest)

theorem items_packItems {read : Read Value} {vs : List Value}
    (recovers : ∀ item ∈ vs, Recovers read item) (done : List Value) (rest : Bytes) :
    items read vs.length done (packItems vs ++ rest)
      = .ok (done.reverse ++ vs.map Value.normal, rest) := by
  induction vs generalizing done with
  | nil => simp [items, packItems]
  | cons first others ih =>
      have item := recovers first List.mem_cons_self (packItems others ++ rest)
      have left := ih (fun other mem => recovers other (List.mem_cons_of_mem _ mem))
        (first.normal :: done)
      rw [packItems, List.append_assoc, List.length_cons, items, item]
      simp only [bind, Except.bind, left]
      simp

theorem textOf_encode (chars : String) : textOf (Utf8.encode chars) = .ok chars := by
  simp [textOf]

theorem firstKey_recovers (room : Nat) : RecoversText (firstKey room) := by
  intro name short rest
  rw [firstKey, item_putText short]
  simp only [bind, Except.bind, textOf_encode]

theorem text_recovers (room : Nat) : RecoversText (text room) := by
  intro name short rest
  rw [text, item_putText short]
  simp only [bind, Except.bind, textOf_encode]

theorem entries_packMembers {room : Nat} {read : Read Value} {ms : List (String × Value)}
    (short : ∀ member ∈ ms, (Utf8.encode member.1).length < Value.lengthBound)
    (recovers : ∀ member ∈ ms, Recovers read member.2) {key : Read String}
    (keys : RecoversText key) (done : List (String × Value)) (rest : Bytes) :
    entries room read key ms.length done (packMembers ms ++ rest)
      = .ok (done.reverse ++ ms.map fun member => (member.1, member.2.normal), rest) := by
  induction ms generalizing key done with
  | nil => simp [entries, packMembers]
  | cons first others ih =>
      rcases first with ⟨name, v⟩
      have named := keys name (short (name, v) List.mem_cons_self)
        (packing v ++ (packMembers others ++ rest))
      have content := recovers (name, v) List.mem_cons_self (packMembers others ++ rest)
      have left := ih (fun other mem => short other (List.mem_cons_of_mem _ mem))
        (fun other mem => recovers other (List.mem_cons_of_mem _ mem)) (text_recovers room)
        ((name, v.normal) :: done)
      rw [packMembers, List.append_assoc, List.append_assoc, List.length_cons, entries, named]
      simp only [bind, Except.bind, content, left]
      simp

/-! ## Values -/

section Scalars

variable (inner : Option (Nat × Read Value)) (rest : Bytes)

theorem valueWith_integer (n : Integer) :
    valueWith inner (packing (.integer n) ++ rest) = .ok (.integer n, rest) := by
  have same : integerValue n.val = .integer n := by simp [integerValue]
  by_cases nonneg : 0 ≤ n.val
  · have kept : (n.val.toNat : Int) = n.val := Int.toNat_of_nonneg nonneg
    rw [packing, valueWith, item_putInteger_of_nonneg nonneg n.lt_bound]
    simp only [bind, Except.bind, kept, same]
  · have negative : n.val < 0 := Int.not_le.1 nonneg
    rw [packing, valueWith, item_putInteger_of_neg negative n.least_le]
    simp only [bind, Except.bind, same]

theorem valueWith_float (x : Double) (finite : x.IsFinite) :
    valueWith inner (packing (.float x finite) ++ rest) = .ok (.float x finite, rest) := by
  rw [packing, valueWith, item_putDouble]
  simp only [bind, Except.bind, Value.ofDouble_of_isFinite finite]

theorem valueWith_string {chars : String}
    (short : (Utf8.encode chars).length < Value.lengthBound) :
    valueWith inner (packing (.string chars) ++ rest) = .ok (.string chars, rest) := by
  rw [packing, valueWith, item_putText short]
  simp only [bind, Except.bind, textOf_encode]

end Scalars

theorem valueWith_array {room : Nat} {inner : Read Value} {vs : List Value}
    (short : vs.length < Value.lengthBound) (recovers : ∀ item ∈ vs, Recovers inner item)
    (rest : Bytes) :
    valueWith (some (room, inner)) (packing (.array vs) ++ rest)
      = .ok ((Value.array vs).normal, rest) := by
  rw [packing, List.append_assoc, valueWith, item_putArrayCount short]
  simp only [bind, Except.bind, items_packItems recovers, Value.normal_array]
  rfl

theorem valueWith_object {room : Nat} {inner : Read Value} {ms : List (String × Value)}
    (short : ms.length < Value.lengthBound)
    (names : ∀ member ∈ ms, (Utf8.encode member.1).length < Value.lengthBound)
    (recovers : ∀ member ∈ ms, Recovers inner member.2) (rest : Bytes) :
    valueWith (some (room, inner)) (packing (.object ms) ++ rest)
      = .ok ((Value.object ms).normal, rest) := by
  rw [packing, List.append_assoc, valueWith, item_putMapCount short]
  simp only [bind, Except.bind, entries_packMembers names recovers (firstKey_recovers room),
    Value.normal_object]
  rfl

theorem exists_value_eq (room : Nat) : ∃ inner, value room = valueWith inner := by
  cases room with
  | zero => exact ⟨none, rfl⟩
  | succ room => exact ⟨some (room, value room), rfl⟩

/-- A written value is read back in normal form, if there is room for its arrays and objects. -/
theorem value_recovers {v : Value} {room : Nat} (short : v.Short) (shallow : v.depth ≤ room) :
    Recovers (value room) v := by
  induction v using Value.inductionOn generalizing room with
  | null =>
      rcases exists_value_eq room with ⟨inner, same⟩
      intro rest
      exact same ▸ rfl
  | bool b =>
      rcases exists_value_eq room with ⟨inner, same⟩
      intro rest
      cases b <;> exact same ▸ rfl
  | integer n =>
      rcases exists_value_eq room with ⟨inner, same⟩
      intro rest
      exact same ▸ valueWith_integer inner rest n
  | float x finite =>
      rcases exists_value_eq room with ⟨inner, same⟩
      intro rest
      exact same ▸ valueWith_float inner rest x finite
  | string chars =>
      rcases exists_value_eq room with ⟨inner, same⟩
      intro rest
      exact same ▸ valueWith_string inner rest short.self
  | array vs ih =>
      cases room with
      | zero => exact absurd shallow (Nat.not_succ_le_zero _)
      | succ room =>
          have inside := Value.depth_array_le_succ_iff.1 shallow
          intro rest
          exact valueWith_array short.self
            (fun item mem => ih item mem (short.item mem) (inside item mem)) rest
  | object ms ih =>
      cases room with
      | zero => exact absurd shallow (Nat.not_succ_le_zero _)
      | succ room =>
          have inside := Value.depth_object_le_succ_iff.1 shallow
          intro rest
          exact valueWith_object short.self.1 short.self.2
            (fun member mem => ih member mem (short.member mem) (inside member mem)) rest

end RemoteCall.MessagePack
