import Mathlib.Data.List.TakeDrop
import Mathlib.Data.List.TakeWhile
import RemoteCall.Json.Numeral
import RemoteCall.Decimal.Notation

/-!
# Reading back JSON numbers

The digits of an integer are read back as that integer, provided that what
follows cannot go on a numeral.
-/

namespace RemoteCall.Json

open Ascii

/-! ## Digits -/

/-- The octets of the decimal digits of a natural number. -/
def natOctets (n : Nat) : Bytes :=
  (Decimal.natDigits n).map fun c => UInt8.ofNat c.toNat

theorem digitChar_octet (digit : Fin 10) :
    UInt8.ofNat (Nat.digitChar digit.val).toNat = ofDigit digit.val := by
  decide +revert

theorem isDigit_ofDigit (digit : Fin 10) : isDigit (ofDigit digit.val) = true := by
  decide +revert

theorem digitValue_ofDigit (digit : Fin 10) : digitValue (ofDigit digit.val) = digit.val := by
  decide +revert

theorem natOctets_of_lt {n : Nat} (small : n < 10) : natOctets n = [ofDigit n] := by
  have octet : UInt8.ofNat (Nat.digitChar n).toNat = ofDigit n := digitChar_octet ⟨n, small⟩
  rw [natOctets, Decimal.natDigits, Nat.toDigits_of_lt_base small, List.map_singleton, octet]

theorem natOctets_of_le {n : Nat} (large : 10 ≤ n) :
    natOctets n = natOctets (n / 10) ++ [ofDigit (n % 10)] := by
  have octet : UInt8.ofNat (Nat.digitChar (n % 10)).toNat = ofDigit (n % 10) :=
    digitChar_octet ⟨n % 10, Nat.mod_lt n (by decide)⟩
  rw [natOctets, Decimal.natDigits, Nat.toDigits_of_base_le (by decide) large, List.map_append,
    List.map_singleton, octet]
  rfl

theorem natOctets_ne_nil (n : Nat) : natOctets n ≠ [] := by
  simp [natOctets, Decimal.natDigits]

/-- Digits of a number are digits. -/
theorem isDigit_of_mem_natOctets {n : Nat} {byte : UInt8} (mem : byte ∈ natOctets n) :
    isDigit byte = true := by
  induction n using Nat.strongRecOn with
  | ind n ih =>
      by_cases small : n < 10
      · rw [natOctets_of_lt small, List.mem_singleton] at mem
        exact mem ▸ isDigit_ofDigit ⟨n, small⟩
      · have large : 10 ≤ n := Nat.le_of_not_lt small
        rw [natOctets_of_le large, List.mem_append, List.mem_singleton] at mem
        rcases mem with front | last
        · exact ih (n / 10) (by omega) front
        · exact last ▸ isDigit_ofDigit ⟨n % 10, Nat.mod_lt n (by decide)⟩

/-- The first digit of a positive number is not zero. -/
theorem natOctets_of_pos {n : Nat} (positive : 0 < n) :
    ∃ first others, natOctets n = first :: others ∧ first ≠ zero := by
  induction n using Nat.strongRecOn with
  | ind n ih =>
      by_cases small : n < 10
      · refine ⟨ofDigit n, [], natOctets_of_lt small, ?_⟩
        have nonzero : ∀ digit : Fin 10, 0 < digit.val → ofDigit digit.val ≠ zero := by decide
        exact nonzero ⟨n, small⟩ positive
      · have large : 10 ≤ n := Nat.le_of_not_lt small
        rcases ih (n / 10) (by omega) (by omega) with ⟨first, others, front, nonzero⟩
        refine ⟨first, others ++ [ofDigit (n % 10)], ?_, nonzero⟩
        rw [natOctets_of_le large, front, List.cons_append]

/-- The octets of an integer are its sign and its digits. -/
theorem octets_intText (n : Int) :
    octets (Decimal.intText n)
      = if n < 0 then minus :: natOctets n.natAbs else natOctets n.natAbs := by
  split
  next negative => simp [octets, Decimal.intText, negative, natOctets]
  next positive => simp [octets, Decimal.intText, positive, natOctets]

namespace Numeral

theorem gather_append {significand gathered : Nat} {digits : Bytes}
    (fits : gather significand digits = (gathered, 0)) (more : Bytes) :
    gather significand (digits ++ more) = gather gathered more := by
  induction digits generalizing significand with
  | nil =>
      rcases Prod.mk.inj fits with ⟨rfl, -⟩
      rfl
  | cons digit digits ih =>
      rw [gather] at fits
      rw [List.cons_append, gather]
      split at fits
      next below => rw [if_pos below, ih fits]
      next => cases fits

/-- The digits of a number of 64 bits make up its significand. -/
theorem gather_natOctets {n : Nat} (fits : n < 0x10000000000000000) :
    gather 0 (natOctets n) = (n, 0) := by
  induction n using Nat.strongRecOn with
  | ind n ih =>
      by_cases small : n < 10
      · have value : digitValue (ofDigit n) = n := digitValue_ofDigit ⟨n, small⟩
        rw [natOctets_of_lt small, gather, value]
        simp [gather, fits]
      · have large : 10 ≤ n := Nat.le_of_not_lt small
        have front : gather 0 (natOctets (n / 10)) = (n / 10, 0) :=
          ih (n / 10) (by omega) (by omega)
        have value : digitValue (ofDigit (n % 10)) = n % 10 :=
          digitValue_ofDigit ⟨n % 10, Nat.mod_lt n (by decide)⟩
        have whole : 10 * (n / 10) + n % 10 = n := Nat.div_add_mod n 10
        rw [natOctets_of_le large, gather_append front, gather, value, whole]
        simp [gather, fits]

/-! ## Cutting -/

/-- Whether a numeral cannot go on with what follows it. -/
def Ends : Bytes → Prop
  | [] => True
  | byte :: _ => isDigit byte = false ∧ byte ≠ point ∧ byte ≠ lowerE ∧ byte ≠ upperE

theorem span_digits {digits rest : Bytes} (allDigits : ∀ byte ∈ digits, isDigit byte = true)
    (ends : Ends rest) : (digits ++ rest).span isDigit = (digits, rest) := by
  rw [List.span_eq_takeWhile_dropWhile, List.takeWhile_append_of_pos allDigits,
    List.dropWhile_append_of_pos allDigits]
  cases rest with
  | nil => simp
  | cons byte rest => simp [ends.1]

theorem readWhole_natOctets (ended : Cause) (n : Nat) {rest : Bytes} (ends : Ends rest) :
    readWhole ended (natOctets n ++ rest) = .ok (natOctets n, rest) := by
  by_cases positive : 0 < n
  · rcases natOctets_of_pos positive with ⟨first, others, shape, nonzero⟩
    have allDigits : ∀ byte ∈ first :: others, isDigit byte = true := fun byte mem =>
      isDigit_of_mem_natOctets (shape ▸ mem)
    have firstDigit : isDigit first = true := allDigits first List.mem_cons_self
    have cut : (others ++ rest).span isDigit = (others, rest) :=
      span_digits (fun byte mem => allDigits byte (List.mem_cons_of_mem _ mem)) ends
    rw [shape]
    simp only [List.cons_append, readWhole, if_neg nonzero, if_pos firstDigit, cut]
  · have isZero : natOctets n = [zero] := by
      have : n = 0 := Nat.eq_zero_of_not_pos positive
      subst this
      rfl
    rw [isZero]
    cases rest with
    | nil => rfl
    | cons after rest => simp [readWhole, ends.1]

theorem readFraction_of_ends (ended : Cause) {rest : Bytes} (ends : Ends rest) :
    readFraction ended rest = .ok (none, rest) := by
  cases rest with
  | nil => rfl
  | cons byte rest => rw [readFraction, if_neg ends.2.1]

theorem readExponent_of_ends (ended : Cause) {rest : Bytes} (ends : Ends rest) :
    readExponent ended rest = .ok (none, rest) := by
  cases rest with
  | nil => rfl
  | cons byte rest => simp [readExponent, ends.2.2.1, ends.2.2.2]

/-- The parts of a numeral after its sign. -/
def readUnsigned (ended : Cause) (negative : Bool) : Read Numeral := fun s => do
  let (whole, s) ← readWhole ended s
  let (fraction, s) ← readFraction ended s
  let (exponent, s) ← readExponent ended s
  .ok (⟨negative, whole, fraction, exponent⟩, s)

theorem read_minus (ended : Cause) (s : Bytes) :
    read ended (minus :: s) = readUnsigned ended true s :=
  rfl

theorem read_of_ne_minus (ended : Cause) {first : UInt8} (noSign : first ≠ minus) (s : Bytes) :
    read ended (first :: s) = readUnsigned ended false (first :: s) := by
  unfold read
  split
  next sign =>
  split at sign
  next isMinus => exact absurd (List.cons.inj isMinus).1 noSign
  next =>
      rcases Prod.mk.inj sign with ⟨rfl, rfl⟩
      rfl

theorem natOctets_ne_minus (n : Nat) :
    ∃ first others, natOctets n = first :: others ∧ first ≠ minus := by
  cases shape : natOctets n with
  | nil => exact absurd shape (natOctets_ne_nil n)
  | cons first others =>
      have firstDigit : isDigit first = true :=
        isDigit_of_mem_natOctets (shape ▸ List.mem_cons_self)
      refine ⟨first, others, rfl, ?_⟩
      rintro rfl
      exact absurd firstDigit (by decide)

theorem readUnsigned_natOctets (ended : Cause) (negative : Bool) (n : Nat) {rest : Bytes}
    (ends : Ends rest) :
    readUnsigned ended negative (natOctets n ++ rest)
      = .ok (⟨negative, natOctets n, none, none⟩, rest) := by
  simp [readUnsigned, readWhole_natOctets ended n ends, readFraction_of_ends ended ends,
    readExponent_of_ends ended ends, bind, Except.bind]

/-- The octets of an integer are cut into its sign and its digits. -/
theorem read_intText (ended : Cause) (n : Int) {rest : Bytes} (ends : Ends rest) :
    read ended (octets (Decimal.intText n) ++ rest)
      = .ok (⟨decide (n < 0), natOctets n.natAbs, none, none⟩, rest) := by
  rw [octets_intText]
  split
  next negative =>
      rw [List.cons_append, read_minus, readUnsigned_natOctets ended true n.natAbs ends]
      simp [negative]
  next positive =>
      rcases natOctets_ne_minus n.natAbs with ⟨first, others, shape, noSign⟩
      have digits := readUnsigned_natOctets ended false n.natAbs ends
      rw [shape, List.cons_append] at digits ⊢
      rw [read_of_ne_minus ended noSign, digits]
      simp [positive]

theorem value_of_digits (n : Integer) :
    value ⟨decide (n.val < 0), natOctets n.val.natAbs, none, none⟩ = .ok (.integer n) := by
  have least := n.least_le
  have bound := n.lt_bound
  have gathered : gather 0 (natOctets n.val.natAbs) = (n.val.natAbs, 0) :=
    gather_natOctets (by omega)
  unfold value
  simp only [gathered]
  by_cases negative : n.val < 0
  · have nonzero : n.val.natAbs ≠ 0 := by omega
    have same : -(n.val.natAbs : Int) = n.val := by omega
    have notZero : (n.val.natAbs == 0) = false := beq_false_of_ne nonzero
    simp only [negative, decide_true, notZero, Bool.and_false, Bool.false_eq_true, if_false,
      if_true, same, Integer.ofInt?_val]
  · have same : (n.val.natAbs : Int) = n.val := by omega
    simp [negative, same]

/-! ## Numerals of any kind -/

section

variable {ended other : Cause} {s : Bytes}

/-- The cause that a reader gives where the text ends has no part in what it reads. -/
theorem readWhole_congr {found : Bytes × Bytes} (read : readWhole ended s = .ok found) :
    readWhole other s = .ok found := by
  cases s with
  | nil => cases read
  | cons byte rest => exact read

theorem readFraction_congr {found : Option Bytes × Bytes}
    (read : readFraction ended s = .ok found) : readFraction other s = .ok found := by
  cases s with
  | nil => exact read
  | cons byte rest =>
      by_cases isPoint : byte = point
      · simp only [readFraction, if_pos isPoint] at read ⊢
        rcases spanned : rest.span isDigit with ⟨_ | ⟨digit, digits⟩, _ | ⟨after, left⟩⟩
        all_goals rw [spanned] at read
        · cases read
        · cases read
        · exact read
        · exact read
      · simpa only [readFraction, if_neg isPoint] using read

theorem readPower_congr {found : Bytes × Bytes} (read : readPower ended s = .ok found) :
    readPower other s = .ok found := by
  cases s with
  | nil => cases read
  | cons byte rest => exact read

theorem readExponent_congr {found : Option (Bool × Bytes) × Bytes}
    (read : readExponent ended s = .ok found) : readExponent other s = .ok found := by
  cases s with
  | nil => exact read
  | cons byte rest =>
      by_cases isLetter : byte = lowerE ∨ byte = upperE
      · simp only [readExponent, if_pos isLetter, bind, Except.bind] at read ⊢
        split at read
        next => cases read
        next digits power =>
            rw [readPower_congr power]
            exact read
      · simpa only [readExponent, if_neg isLetter] using read

theorem read_congr {found : Numeral × Bytes} (done : read ended s = .ok found) :
    read other s = .ok found := by
  simp only [read, bind, Except.bind] at done ⊢
  split at done
  next => cases done
  next whole wholeRead =>
  split at done
  next => cases done
  next fraction fractionRead =>
  split at done
  next => cases done
  next exponent exponentRead =>
      rw [readWhole_congr wholeRead]
      simp only [readFraction_congr fractionRead, readExponent_congr exponentRead]
      exact done

end

/-- Whether an octet may stand in a numeral. -/
def Holds (byte : UInt8) : Prop :=
  isDigit byte = true ∨ byte ∈ [minus, plus, point, lowerE, upperE]

/-- Whether `rest` is left of `s` after octets that may stand in a numeral. -/
def Leaves (s rest : Bytes) : Prop :=
  ∃ front, s = front ++ rest ∧ ∀ byte ∈ front, Holds byte

theorem Leaves.refl (s : Bytes) : Leaves s s :=
  ⟨[], rfl, by simp⟩

theorem Leaves.trans {s middle rest : Bytes} (first : Leaves s middle)
    (second : Leaves middle rest) : Leaves s rest := by
  obtain ⟨front, rfl, frontHolds⟩ := first
  obtain ⟨back, rfl, backHolds⟩ := second
  refine ⟨front ++ back, (List.append_assoc ..).symm, ?_⟩
  intro byte mem
  rcases List.mem_append.1 mem with mem | mem
  · exact frontHolds byte mem
  · exact backHolds byte mem

theorem Leaves.cons {byte : UInt8} {s rest : Bytes} (holds : Holds byte) (leaves : Leaves s rest) :
    Leaves (byte :: s) rest := by
  obtain ⟨front, rfl, frontHolds⟩ := leaves
  exact ⟨byte :: front, rfl, List.forall_mem_cons.2 ⟨holds, frontHolds⟩⟩

theorem leaves_of_span {s digits rest : Bytes} (cut : s.span isDigit = (digits, rest)) :
    Leaves s rest := by
  rw [List.span_eq_takeWhile_dropWhile] at cut
  obtain ⟨rfl, rfl⟩ := Prod.mk.inj cut
  refine ⟨s.takeWhile isDigit, (List.takeWhile_append_dropWhile ..).symm, ?_⟩
  intro byte mem
  exact .inl (List.mem_takeWhile_imp mem)

theorem leaves_of_readWhole {ended : Cause} {s digits rest : Bytes}
    (read : readWhole ended s = .ok (digits, rest)) : rest.length < s.length ∧ Leaves s rest := by
  have shorter {byte : UInt8} {s : Bytes} (leaves : Leaves s rest) :
      rest.length < (byte :: s).length := by
    obtain ⟨front, rfl, -⟩ := leaves
    rw [List.length_cons, List.length_append]
    omega
  cases s with
  | nil => cases read
  | cons byte s =>
      by_cases isZero : byte = zero
      · have digit : Holds byte := isZero ▸ .inl rfl
        have rested : rest = s := by
          simp only [readWhole, if_pos isZero] at read
          split at read
          next => exact (Prod.mk.inj (Except.ok.inj read)).2.symm
          next =>
              split at read
              · cases read
              · exact (Prod.mk.inj (Except.ok.inj read)).2.symm
        subst rested
        exact ⟨shorter (.refl _), (Leaves.refl _).cons digit⟩
      · simp only [readWhole, if_neg isZero] at read
        split at read
        next digit =>
            rcases cut : s.span isDigit with ⟨others, left⟩
            rw [cut] at read
            obtain ⟨-, rfl⟩ := Prod.mk.inj (Except.ok.inj read)
            have leaves := leaves_of_span cut
            exact ⟨shorter leaves, leaves.cons (.inl digit)⟩
        next => cases read

theorem leaves_of_readFraction {ended : Cause} {s rest : Bytes} {digits : Option Bytes}
    (read : readFraction ended s = .ok (digits, rest)) : Leaves s rest := by
  cases s with
  | nil =>
      obtain ⟨-, rfl⟩ := Prod.mk.inj (Except.ok.inj read)
      exact .refl _
  | cons byte s =>
      by_cases isPoint : byte = point
      · simp only [readFraction, if_pos isPoint] at read
        rcases cut : s.span isDigit with ⟨_ | ⟨digit, others⟩, left⟩
        · rw [cut] at read
          cases left <;> cases read
        · rw [cut] at read
          obtain ⟨-, rfl⟩ := Prod.mk.inj (Except.ok.inj read)
          exact (leaves_of_span cut).cons (.inr (by simp [isPoint]))
      · simp only [readFraction, if_neg isPoint] at read
        obtain ⟨-, rfl⟩ := Prod.mk.inj (Except.ok.inj read)
        exact .refl _

theorem leaves_of_readPower {ended : Cause} {s digits rest : Bytes}
    (read : readPower ended s = .ok (digits, rest)) : Leaves s rest := by
  cases s with
  | nil => cases read
  | cons byte s =>
      simp only [readPower] at read
      split at read
      next digit =>
          rcases cut : s.span isDigit with ⟨others, left⟩
          rw [cut] at read
          obtain ⟨-, rfl⟩ := Prod.mk.inj (Except.ok.inj read)
          exact (leaves_of_span cut).cons (.inl digit)
      next => cases read

theorem leaves_of_readExponent {ended : Cause} {s rest : Bytes} {power : Option (Bool × Bytes)}
    (read : readExponent ended s = .ok (power, rest)) : Leaves s rest := by
  cases s with
  | nil =>
      obtain ⟨-, rfl⟩ := Prod.mk.inj (Except.ok.inj read)
      exact .refl _
  | cons byte s =>
      by_cases isLetter : byte = lowerE ∨ byte = upperE
      · have letterHolds : Holds byte := by
          rcases isLetter with rfl | rfl <;> exact .inr (by simp)
        simp only [readExponent, if_pos isLetter, bind, Except.bind] at read
        split at read
        next => cases read
        next found powerRead =>
        obtain ⟨-, rfl⟩ := Prod.mk.inj (Except.ok.inj read)
        have leaves := leaves_of_readPower powerRead
        refine .cons letterHolds ?_
        split at leaves
        next => exact leaves.cons (.inr (by simp))
        next => exact leaves.cons (.inr (by simp))
        next => exact leaves
      · simp only [readExponent, if_neg isLetter] at read
        obtain ⟨-, rfl⟩ := Prod.mk.inj (Except.ok.inj read)
        exact .refl _

theorem leaves_of_readUnsigned {ended : Cause} {negative : Bool} {s rest : Bytes}
    {numeral : Numeral} (done : readUnsigned ended negative s = .ok (numeral, rest)) :
    rest.length < s.length ∧ Leaves s rest := by
  simp only [readUnsigned, bind, Except.bind] at done
  split at done
  next => cases done
  next whole wholeRead =>
  split at done
  next => cases done
  next fraction fractionRead =>
  split at done
  next => cases done
  next exponent exponentRead =>
      obtain ⟨-, rfl⟩ := Prod.mk.inj (Except.ok.inj done)
      obtain ⟨shorter, leaves⟩ := leaves_of_readWhole wholeRead
      have later :=
        (leaves_of_readFraction fractionRead).trans (leaves_of_readExponent exponentRead)
      obtain ⟨front, shape, -⟩ := id later
      rw [shape, List.length_append] at shorter
      exact ⟨by omega, leaves.trans later⟩

/-- A numeral takes some octets, none of which has a meaning outside of numerals. -/
theorem leaves_of_read {ended : Cause} {s rest : Bytes} {numeral : Numeral}
    (done : read ended s = .ok (numeral, rest)) : rest.length < s.length ∧ Leaves s rest := by
  cases s with
  | nil => exact @leaves_of_readUnsigned ended false _ _ _ done
  | cons byte s =>
      by_cases isMinus : byte = minus
      · rw [isMinus, read_minus] at done
        obtain ⟨shorter, leaves⟩ := leaves_of_readUnsigned done
        exact ⟨Nat.lt_succ_of_lt shorter, leaves.cons (.inr (by simp [isMinus]))⟩
      · rw [read_of_ne_minus ended isMinus] at done
        exact leaves_of_readUnsigned done

theorem value_kind {numeral : Numeral} {v : Value} (evaluated : numeral.value = .ok v) :
    (∃ n, v = .integer n) ∨ ∃ x, v = .ofDouble x := by
  unfold value at evaluated
  split at evaluated
  split at evaluated
  next =>
      split at evaluated
      · exact .inr ⟨_, (Except.ok.inj evaluated).symm⟩
      simp only at evaluated
      split at evaluated
      · exact .inl ⟨_, (Except.ok.inj evaluated).symm⟩
      · exact .inr ⟨_, (Except.ok.inj evaluated).symm⟩
  next =>
      simp only at evaluated
      split at evaluated
      next =>
          split at evaluated
          · exact .inr ⟨_, (Except.ok.inj evaluated).symm⟩
          · cases evaluated
      next =>
          split at evaluated
          · split at evaluated
            · exact .inr ⟨_, (Except.ok.inj evaluated).symm⟩
            · cases evaluated
          · split at evaluated
            · cases evaluated
            · exact .inr ⟨_, (Except.ok.inj evaluated).symm⟩

end Numeral

/-- A number is an integer or a floating-point number, if it is finite. -/
theorem number_kind {s rest : Bytes} {v : Value} (read : number s = .ok (v, rest)) :
    (∃ n, v = .integer n) ∨ ∃ x, v = .ofDouble x := by
  simp only [number, bind, Except.bind] at read
  split at read
  next => cases read
  split at read
  next evaluated =>
      obtain ⟨rfl, -⟩ := Prod.mk.inj (Except.ok.inj read)
      exact Numeral.value_kind evaluated
  next => cases read

/-- An integer is read back from its octets. -/
theorem number_intText (n : Integer) {rest : Bytes} (ends : Numeral.Ends rest) :
    number (octets (Decimal.intText n.val) ++ rest) = .ok (.integer n, rest) := by
  unfold number
  rw [Numeral.read_intText .endInValue n.val ends]
  simp only [bind, Except.bind, Numeral.value_of_digits]

theorem passNumber_of_number {s rest : Bytes} {v : Value} (read : number s = .ok (v, rest)) :
    passNumber s = .ok rest := by
  simp only [number, bind, Except.bind] at read
  split at read
  next => cases read
  next numeral cut =>
  split at read
  next =>
      obtain ⟨-, rfl⟩ := Prod.mk.inj (Except.ok.inj read)
      simp only [passNumber, Numeral.read_congr cut, bind, Except.bind]
  next => cases read

theorem leaves_of_passNumber {s rest : Bytes} (passed : passNumber s = .ok rest) :
    rest.length < s.length ∧ Numeral.Leaves s rest := by
  simp only [passNumber, bind, Except.bind] at passed
  split at passed
  next => cases passed
  next cut =>
      obtain rfl := Except.ok.inj passed
      exact Numeral.leaves_of_read cut

end RemoteCall.Json
