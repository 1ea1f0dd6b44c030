/-!
# Integers of bounded width

The integers that every format can carry are those that fit 64 bits, with a
sign or without; the integer types of an application are narrower ranges.
-/

namespace RemoteCall

/-- An integer from `-2^63` up to, but not including, `2^64`. -/
structure Integer where
  val : Int
  least_le : -0x8000000000000000 ≤ val
  lt_bound : val < 0x10000000000000000
  deriving DecidableEq

namespace Integer

/-- The integer as one that fits, if it does. -/
def ofInt? (n : Int) : Option Integer :=
  if h : -0x8000000000000000 ≤ n ∧ n < 0x10000000000000000 then some ⟨n, h.1, h.2⟩ else none

/-- The number that 64 bits without a sign stand for. -/
def ofUInt64 (n : UInt64) : Integer :=
  ⟨n.toNat, by omega, by have := n.toNat_lt; omega⟩

instance : Inhabited Integer :=
  ⟨⟨0, by decide, by decide⟩⟩

@[simp]
theorem ofInt?_val (n : Integer) : ofInt? n.val = some n := by
  rw [ofInt?, dif_pos ⟨n.least_le, n.lt_bound⟩]

end Integer

/-- An integer type, by sign and width. -/
structure IntegerKind where
  signed : Bool
  bits : Nat
  deriving DecidableEq

namespace IntegerKind

/-- The name of the type, such as `i32` or `u8`. -/
def name (kind : IntegerKind) : String :=
  (if kind.signed then "i" else "u") ++ Nat.repr kind.bits

/-- Whether an integer belongs to the type. -/
def Holds (kind : IntegerKind) (n : Int) : Prop :=
  if kind.signed then
    -(Nat.pow 2 (kind.bits - 1) : Nat) ≤ n ∧ n < (Nat.pow 2 (kind.bits - 1) : Nat)
  else 0 ≤ n ∧ n < (Nat.pow 2 kind.bits : Nat)

instance (kind : IntegerKind) (n : Int) : Decidable (kind.Holds n) := by
  unfold Holds
  infer_instance

end IntegerKind

end RemoteCall
