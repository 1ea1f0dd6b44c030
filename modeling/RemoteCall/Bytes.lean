/-!
# Byte strings

Bodies, headers and encoded values are lists of octets.  This module has what
every format needs of them: taking an exact number of octets from the front
(nothing is taken when too few are left) and unsigned numbers written most
significant octet first.
-/

namespace RemoteCall

/-- A string of octets. -/
abbrev Bytes := List UInt8

namespace Bytes

/-- Collects `count` octets behind those already `taken`, latest first. -/
def takeOnto : Nat → Bytes → Bytes → Option (Bytes × Bytes)
  | 0, taken, rest => some (taken.reverse, rest)
  | _ + 1, _, [] => none
  | count + 1, taken, byte :: rest => takeOnto count (byte :: taken) rest

/-- The first `count` octets and what follows them, unless there are fewer. -/
def takeExact (count : Nat) (bytes : Bytes) : Option (Bytes × Bytes) :=
  takeOnto count [] bytes

/-- The number that the octets denote, most significant octet first. -/
def toNat (bytes : Bytes) : Nat :=
  bytes.foldl (fun value byte => 256 * value + byte.toNat) 0

/-- The `width` least significant octets of a number, most significant first. -/
def ofNat : (width : Nat) → Nat → Bytes
  | 0, _ => []
  | width + 1, value => ofNat width (value / 256) ++ [UInt8.ofNat value]

/-! ## Laws -/

theorem takeOnto_append (front taken rest : Bytes) :
    takeOnto front.length taken (front ++ rest) = some (taken.reverse ++ front, rest) := by
  induction front generalizing taken with
  | nil => simp [takeOnto]
  | cons byte front ih => simp [takeOnto, ih]

/-- Taking a front by its own length gives it back with the rest. -/
@[simp]
theorem takeExact_append (front rest : Bytes) :
    takeExact front.length (front ++ rest) = some (front, rest) := by
  simp [takeExact, takeOnto_append]

@[simp]
theorem length_ofNat (width value : Nat) : (ofNat width value).length = width := by
  induction width generalizing value with
  | zero => rfl
  | succ width ih => simp [ofNat, ih]

theorem toNat_append_singleton (bytes : Bytes) (byte : UInt8) :
    toNat (bytes ++ [byte]) = 256 * toNat bytes + byte.toNat := by
  simp [toNat]

/-- Reading back a number of `width` octets loses only what does not fit. -/
theorem toNat_ofNat (width value : Nat) :
    toNat (ofNat width value) = value % Nat.pow 256 width := by
  induction width generalizing value with
  | zero => simp [ofNat, toNat, Nat.mod_one]
  | succ width ih =>
    have last : (UInt8.ofNat value).toNat = value % 256 := by simp
    have step : Nat.pow 256 (width + 1) = 256 * Nat.pow 256 width := Nat.pow_succ'
    rw [ofNat, toNat_append_singleton, ih, last, step, Nat.mod_mul]
    omega

end Bytes

end RemoteCall
