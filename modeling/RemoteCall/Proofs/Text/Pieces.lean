import Mathlib.Tactic.IntervalCases
import RemoteCall.Proofs.Text.Cut
import RemoteCall.Proofs.Text.Order

/-!
# Pieces of octet strings

The pieces that a scan finds cut up the octet string: the parts that they stand for are the
string when joined, and the part of a character is its spelling (`cutUp_pieces`).  Hence a
string that is no text has a piece that is no character, and lenient reading shows it
(`mem_decodeLossy_of_unreadable`), while a text is read as it is (`decodeLossy_encode`).

An ASCII octet ends whatever has begun in front of it, so that lenient reading can be cut
there (`decodeLossy_append_cons`).
-/

namespace RemoteCall.Utf8

/-! ## Leading octets -/

theorem lead_of_ascii {byte : UInt8} (ascii : byte < 0x80) :
    lead byte = .alone (Char.ofNat byte.toNat) := by
  simp [lead, ascii]

theorem lead_two {x : Nat} (least : 2 ≤ x) (bound : x < 32) :
    lead (.ofNat (x + 192)) = .begins ⟨1, 1, 0x80, 0xbf, x⟩ := by
  interval_cases x <;> rfl

theorem lead_three {x : Nat} (bound : x < 16) :
    lead (.ofNat (x + 224)) =
      .begins ⟨1, 2, if x = 0 then 0xa0 else 0x80, if x = 13 then 0x9f else 0xbf, x⟩ := by
  interval_cases x <;> rfl

theorem lead_four {x : Nat} (bound : x < 5) :
    lead (.ofNat (x + 240)) =
      .begins ⟨1, 3, if x = 0 then 0x90 else 0x80, if x = 4 then 0x8f else 0xbf, x⟩ := by
  interval_cases x <;> rfl

/-- The other octets start nothing. -/
theorem lead_stray {byte : UInt8} (beyond : 0x80 ≤ byte.toNat)
    (outside : byte.toNat < 0xc2 ∨ 0xf5 ≤ byte.toNat) : lead byte = .stray := by
  rw [← UInt8.ofNat_toNat (x := byte)]
  have bound := byte.toNat_lt
  generalize byte.toNat = n at *
  rcases outside with low | high
  · interval_cases n <;> rfl
  · interval_cases n <;> rfl

/-! ## Spelling -/

theorem val_ofNat {n : Nat} (valid : n.isValidChar) : (Char.ofNat n).val.toNat = n := by
  rw [Char.ofNat, dif_pos valid]
  rfl

theorem encodeChar_one {x : Nat} (bound : x < 128) :
    String.utf8EncodeChar (Char.ofNat x) = [.ofNat x] := by
  have code : (Char.ofNat x).val.toNat = x := val_ofNat (.inl (by omega))
  simp only [String.utf8EncodeChar, code]
  rw [if_pos (by omega)]

theorem encodeChar_two {x y : Nat} (least : 2 ≤ x) (bound : x < 32) (digit : y < 64) :
    String.utf8EncodeChar (Char.ofNat (64 * x + y)) = [.ofNat (x + 192), .ofNat (y + 128)] := by
  have code : (Char.ofNat (64 * x + y)).val.toNat = 64 * x + y := val_ofNat (.inl (by omega))
  have first : (64 * x + y) / 64 % 32 = x := by omega
  have second : (64 * x + y) % 64 = y := by omega
  simp only [String.utf8EncodeChar, code]
  rw [if_neg (by omega), if_pos (by omega), first, second]

theorem encodeChar_three {x y z : Nat} (bound : x < 16) (digit : y < 64) (digit' : z < 64)
    (least : 32 ≤ 64 * x + y) (valid : 64 * x + y < 864 ∨ 896 ≤ 64 * x + y) :
    String.utf8EncodeChar (Char.ofNat (64 * (64 * x + y) + z)) =
      [.ofNat (x + 224), .ofNat (y + 128), .ofNat (z + 128)] := by
  have code : (Char.ofNat (64 * (64 * x + y) + z)).val.toNat = 64 * (64 * x + y) + z := by
    apply val_ofNat
    unfold Nat.isValidChar
    omega
  have first : (64 * (64 * x + y) + z) / 4096 % 16 = x := by omega
  have second : (64 * (64 * x + y) + z) / 64 % 64 = y := by omega
  have third : (64 * (64 * x + y) + z) % 64 = z := by omega
  simp only [String.utf8EncodeChar, code]
  rw [if_neg (by omega), if_neg (by omega), if_pos (by omega), first, second, third]

theorem encodeChar_four {x y z w : Nat} (digit : y < 64) (digit' : z < 64) (digit'' : w < 64)
    (least : 16 ≤ 64 * x + y) (bound : 64 * x + y < 272) :
    String.utf8EncodeChar (Char.ofNat (64 * (64 * (64 * x + y) + z) + w)) =
      [.ofNat (x + 240), .ofNat (y + 128), .ofNat (z + 128), .ofNat (w + 128)] := by
  have code : (Char.ofNat (64 * (64 * (64 * x + y) + z) + w)).val.toNat =
      64 * (64 * (64 * x + y) + z) + w := val_ofNat (.inr (by omega))
  have first : (64 * (64 * (64 * x + y) + z) + w) / 262144 % 8 = x := by omega
  have second : (64 * (64 * (64 * x + y) + z) + w) / 4096 % 64 = y := by omega
  have third : (64 * (64 * (64 * x + y) + z) + w) / 64 % 64 = z := by omega
  have fourth : (64 * (64 * (64 * x + y) + z) + w) % 64 = w := by omega
  simp only [String.utf8EncodeChar, code]
  rw [if_neg (by omega), if_neg (by omega), if_neg (by omega), first, second, third, fourth]

/-- `begun.Spells octets`: these octets begin a character, and every octet that may come
next goes on with it. -/
inductive Begun.Spells : Begun → Bytes → Prop where
  | oneOfTwo {x : Nat} : 2 ≤ x → x < 32 → Spells ⟨1, 1, 0x80, 0xbf, x⟩ [.ofNat (x + 192)]
  | oneOfThree {x : Nat} : x < 16 →
      Spells ⟨1, 2, if x = 0 then 0xa0 else 0x80, if x = 13 then 0x9f else 0xbf, x⟩
        [.ofNat (x + 224)]
  | twoOfThree {x y : Nat} : x < 16 → y < 64 → 32 ≤ 64 * x + y →
      64 * x + y < 864 ∨ 896 ≤ 64 * x + y →
      Spells ⟨2, 1, 0x80, 0xbf, 64 * x + y⟩ [.ofNat (x + 224), .ofNat (y + 128)]
  | oneOfFour {x : Nat} : x < 5 →
      Spells ⟨1, 3, if x = 0 then 0x90 else 0x80, if x = 4 then 0x8f else 0xbf, x⟩
        [.ofNat (x + 240)]
  | twoOfFour {x y : Nat} : y < 64 → 16 ≤ 64 * x + y → 64 * x + y < 272 →
      Spells ⟨2, 2, 0x80, 0xbf, 64 * x + y⟩ [.ofNat (x + 240), .ofNat (y + 128)]
  | threeOfFour {x y z : Nat} : y < 64 → z < 64 → 16 ≤ 64 * x + y → 64 * x + y < 272 →
      Spells ⟨3, 1, 0x80, 0xbf, 64 * (64 * x + y) + z⟩
        [.ofNat (x + 240), .ofNat (y + 128), .ofNat (z + 128)]

namespace Begun

theorem Spells.ne_nil {begun : Begun} {octets : Bytes} (spells : begun.Spells octets) :
    octets ≠ [] := by
  cases spells <;> exact List.cons_ne_nil _ _

theorem Spells.length_eq {begun : Begun} {octets : Bytes} (spells : begun.Spells octets) :
    octets.length = begun.seen := by
  cases spells <;> rfl

/-- Only octets beyond ASCII go on with a character. -/
theorem Spells.range {begun : Begun} {octets : Bytes} (spells : begun.Spells octets) :
    0x80 ≤ begun.low.toNat ∧ begun.high.toNat ≤ 0xbf := by
  cases spells with
  | oneOfThree => constructor <;> (simp only; split <;> decide)
  | oneOfFour => constructor <;> (simp only; split <;> decide)
  | _ => exact ⟨Nat.le_refl _, Nat.le_refl _⟩

end Begun

/-- An octet is a character, begins one or starts nothing. -/
theorem lead_forms (byte : UInt8) :
    (String.utf8EncodeChar (Char.ofNat byte.toNat) = [byte] ∧
      lead byte = .alone (Char.ofNat byte.toNat)) ∨
    (∃ begun : Begun, begun.Spells [byte] ∧ lead byte = .begins begun) ∨ lead byte = .stray := by
  by_cases ascii : byte.toNat < 0x80
  · left
    rw [encodeChar_one ascii, UInt8.ofNat_toNat]
    exact ⟨rfl, lead_of_ascii (UInt8.lt_iff_toNat_lt.2 ascii)⟩
  right
  by_cases stray : byte.toNat < 0xc2 ∨ 0xf5 ≤ byte.toNat
  · exact .inr (lead_stray (Nat.not_lt.1 ascii) stray)
  left
  rw [← UInt8.ofNat_toNat (x := byte)]
  generalize byte.toNat = n at *
  by_cases two : n < 0xe0
  · obtain ⟨x, rfl⟩ : ∃ x, n = x + 192 := ⟨n - 192, by omega⟩
    exact ⟨_, .oneOfTwo (by omega) (by omega), lead_two (by omega) (by omega)⟩
  by_cases three : n < 0xf0
  · obtain ⟨x, rfl⟩ : ∃ x, n = x + 224 := ⟨n - 224, by omega⟩
    exact ⟨_, .oneOfThree (by omega), lead_three (by omega)⟩
  · obtain ⟨x, rfl⟩ : ∃ x, n = x + 240 := ⟨n - 240, by omega⟩
    exact ⟨_, .oneOfFour (by omega), lead_four (by omega)⟩

/-! ## Octets that go on -/

theorem toNat_continuation {y : Nat} (digit : y < 64) :
    (UInt8.ofNat (y + 128)).toNat = y + 128 := by
  have bound : y + 128 < 256 := by omega
  exact UInt8.toNat_ofNat_of_lt' bound

/-- Where nothing else is known, an octet that goes on with a character is in this range. -/
theorem range_of_digit {y : Nat} (digit : y < 64) :
    (0x80 : UInt8).toNat ≤ y + 128 ∧ y + 128 ≤ (0xbf : UInt8).toNat := by
  have high : y + 128 ≤ 191 := by omega
  exact ⟨Nat.le_add_left _ _, high⟩

theorem and_continuation {y : Nat} (digit : y < 64) :
    (UInt8.ofNat (y + 128) &&& 0x3f).toNat = y := by
  interval_cases y <;> rfl

namespace Scan

section

variable {begun : Begun} {y : Nat} (digit : y < 64) (low : begun.low.toNat ≤ y + 128)
  (high : y + 128 ≤ begun.high.toNat) (pieces : List Piece)

include digit low high

theorem inside_of_digit :
    begun.low ≤ UInt8.ofNat (y + 128) ∧ UInt8.ofNat (y + 128) ≤ begun.high := by
  rw [UInt8.le_iff_toNat_le, UInt8.le_iff_toNat_le, toNat_continuation digit]
  exact ⟨low, high⟩

/-- The last octet that is due completes the character. -/
theorem feed_last (last : begun.due ≤ 1) :
    feed ⟨some begun, pieces⟩ (.ofNat (y + 128)) =
      ⟨none, .char (Char.ofNat (64 * begun.value + y)) (begun.seen + 1) :: pieces⟩ := by
  simp only [feed, if_pos (inside_of_digit digit low high), and_continuation digit, if_pos last]

/-- Any earlier one goes on with it. -/
theorem feed_next (more : 1 < begun.due) :
    feed ⟨some begun, pieces⟩ (.ofNat (y + 128)) =
      ⟨some ⟨begun.seen + 1, begun.due - 1, 0x80, 0xbf, 64 * begun.value + y⟩, pieces⟩ := by
  simp only [feed, if_pos (inside_of_digit digit low high), and_continuation digit,
    if_neg (Nat.not_le.2 more)]

end

/-- Any other octet breaks the character off. -/
theorem feed_interruption {begun : Begun} {pieces : List Piece} {byte : UInt8}
    (outside : ¬ (begun.low ≤ byte ∧ byte ≤ begun.high)) :
    feed ⟨some begun, pieces⟩ byte = start (.broken begun.seen :: pieces) byte := by
  simp only [feed, if_neg outside]

/-- What goes on with a character completes its spelling or spells more of it. -/
theorem feed_of_spells {begun : Begun} {octets : Bytes} (spells : begun.Spells octets)
    {pieces : List Piece} {byte : UInt8} (inside : begun.low ≤ byte ∧ byte ≤ begun.high) :
    (∃ c, String.utf8EncodeChar c = octets ++ [byte] ∧
      feed ⟨some begun, pieces⟩ byte = ⟨none, .char c (octets.length + 1) :: pieces⟩) ∨
    ∃ next, next.Spells (octets ++ [byte]) ∧
      feed ⟨some begun, pieces⟩ byte = ⟨some next, pieces⟩ := by
  have ⟨beyond, below⟩ := spells.range
  rw [UInt8.le_iff_toNat_le, UInt8.le_iff_toNat_le] at inside
  obtain ⟨y, digit, rfl⟩ : ∃ y, y < 64 ∧ byte = .ofNat (y + 128) := by
    refine ⟨byte.toNat - 128, by omega, ?_⟩
    rw [Nat.sub_add_cancel (by omega), UInt8.ofNat_toNat]
  rw [toNat_continuation digit] at inside
  have last := feed_last digit inside.1 inside.2 pieces
  have next := feed_next digit inside.1 inside.2 pieces
  cases spells with
  | oneOfTwo least bound => exact .inl ⟨_, encodeChar_two least bound digit, last (Nat.le_refl 1)⟩
  | twoOfThree bound digit' least valid =>
      exact .inl ⟨_, encodeChar_three bound digit' digit least valid, last (Nat.le_refl 1)⟩
  | threeOfFour digit' digit'' least bound =>
      exact .inl ⟨_, encodeChar_four digit' digit'' digit least bound, last (Nat.le_refl 1)⟩
  | @oneOfThree x bound =>
      -- The second octet is bounded so that the form is no longer than necessary and the
      -- code point no surrogate.
      have low : x = 0 → 0xa0 ≤ y + 128 := by
        rintro rfl
        exact inside.1
      have high : x = 13 → y + 128 ≤ 0x9f := by
        rintro rfl
        exact inside.2
      exact .inr ⟨_, .twoOfThree bound digit (by omega) (by omega), next (Nat.lt_succ_self 1)⟩
  | @oneOfFour x bound =>
      have low : x = 0 → 0x90 ≤ y + 128 := by
        rintro rfl
        exact inside.1
      have high : x = 4 → y + 128 ≤ 0x8f := by
        rintro rfl
        exact inside.2
      exact .inr ⟨_, .twoOfFour digit (by omega) (by omega), next (by decide : 1 < 3)⟩
  | twoOfFour digit' least bound =>
      exact .inr ⟨_, .threeOfFour digit' digit least bound, next (Nat.lt_succ_self 1)⟩

end Scan

/-! ## Pieces cut up the octets -/

/-- The part of an octet string that a piece stands for. -/
inductive Piece.Covers : Piece → Bytes → Prop where
  | char (c : Char) :
      Covers (.char c (String.utf8EncodeChar c).length) (String.utf8EncodeChar c)
  | broken {octets : Bytes} : octets ≠ [] → Covers (.broken octets.length) octets
  | cut {octets : Bytes} : octets ≠ [] → Covers (.cut octets.length) octets

theorem Piece.covers_of_spelled {c : Char} {octets : Bytes}
    (spelled : String.utf8EncodeChar c = octets) : (Piece.char c octets.length).Covers octets := by
  rw [← spelled]
  exact .char c

/-- Pieces that cut up an octet string into the parts that they stand for. -/
inductive CutUp : List Piece → Bytes → Prop where
  | nil : CutUp [] []
  | snoc {pieces : List Piece} {piece : Piece} {bytes part : Bytes} :
      CutUp pieces bytes → piece.Covers part → CutUp (pieces ++ [piece]) (bytes ++ part)

namespace Scan

/-- A scan that has come to stand behind the octets, with a character begun or not. -/
inductive Behind : Scan → Bytes → Prop where
  | between {pieces : List Piece} {bytes : Bytes} :
      CutUp pieces.reverse bytes → Behind ⟨none, pieces⟩ bytes
  | within {begun : Begun} {pieces : List Piece} {bytes octets : Bytes} :
      CutUp pieces.reverse bytes → begun.Spells octets →
      Behind ⟨some begun, pieces⟩ (bytes ++ octets)

theorem behind_snoc {pieces : List Piece} {piece : Piece} {bytes part : Bytes}
    (cutUp : CutUp pieces.reverse bytes) (covers : piece.Covers part) :
    Behind ⟨none, piece :: pieces⟩ (bytes ++ part) := by
  apply Behind.between
  rw [List.reverse_cons]
  exact cutUp.snoc covers

/-- An octet at the start of a character. -/
theorem behind_start {pieces : List Piece} {bytes : Bytes} (cutUp : CutUp pieces.reverse bytes)
    (byte : UInt8) : Behind (start pieces byte) (bytes ++ [byte]) := by
  rcases lead_forms byte with ⟨spelled, led⟩ | ⟨begun, spells, led⟩ | led
  · rw [start, led]
    exact behind_snoc cutUp (Piece.covers_of_spelled spelled)
  · rw [start, led]
    exact .within cutUp spells
  · rw [start, led]
    exact behind_snoc cutUp (.broken (List.cons_ne_nil byte []))

theorem Behind.feed {scan : Scan} {bytes : Bytes} (behind : scan.Behind bytes) (byte : UInt8) :
    (scan.feed byte).Behind (bytes ++ [byte]) := by
  cases behind with
  | between cutUp => exact behind_start cutUp byte
  | @within begun pieces bytes octets cutUp spells =>
      by_cases inside : begun.low ≤ byte ∧ byte ≤ begun.high
      · rw [List.append_assoc]
        rcases feed_of_spells spells inside with ⟨c, spelled, fed⟩ | ⟨next, spells, fed⟩
        · rw [fed]
          simpa using behind_snoc cutUp (Piece.covers_of_spelled spelled)
        · rw [fed]
          exact .within cutUp spells
      · have broken : Piece.Covers (.broken begun.seen) octets := by
          rw [← spells.length_eq]
          exact .broken spells.ne_nil
        rw [feed_interruption inside]
        apply behind_start
        rw [List.reverse_cons]
        exact cutUp.snoc broken

theorem Behind.feedAll {scan : Scan} {bytes : Bytes} (behind : scan.Behind bytes)
    (more : Bytes) : (more.foldl Scan.feed scan).Behind (bytes ++ more) := by
  induction more generalizing scan bytes with
  | nil => simpa using behind
  | cons byte more ih => simpa using ih (behind.feed byte)

theorem Behind.cutUp_finish {scan : Scan} {bytes : Bytes} (behind : scan.Behind bytes) :
    CutUp scan.finish bytes := by
  cases behind with
  | between cutUp => exact cutUp
  | @within begun pieces bytes octets cutUp spells =>
      have cut : Piece.Covers (.cut begun.seen) octets := by
        rw [← spells.length_eq]
        exact .cut spells.ne_nil
      simp only [finish, List.reverse_cons]
      exact cutUp.snoc cut

end Scan

/-- The pieces of an octet string cut it up. -/
theorem cutUp_pieces (bytes : Bytes) : CutUp (pieces bytes) bytes := by
  have opened : Scan.Behind {} [] := .between .nil
  exact (opened.feedAll bytes).cutUp_finish

/-! ## Lenient reading -/

/-- The character that lenient reading has for a piece. -/
def Piece.shown : Piece → Char
  | .char value _ => value
  | .broken _ | .cut _ => '\uFFFD'

theorem toList_decodeLossy (bytes : Bytes) :
    (decodeLossy bytes).toList = (pieces bytes).map Piece.shown := by
  rw [decodeLossy, String.toList_ofList]
  apply List.map_congr_left
  intro piece _
  cases piece <;> rfl

/-- Pieces that are all shown as they are spell the octets. -/
theorem CutUp.eq_flatMap {pieces : List Piece} {bytes : Bytes} (cutUp : CutUp pieces bytes)
    (readable : '\uFFFD' ∉ pieces.map Piece.shown) :
    bytes = (pieces.map Piece.shown).flatMap String.utf8EncodeChar := by
  induction cutUp with
  | nil => rfl
  | @snoc pieces piece bytes part _ covers ih =>
      rw [List.map_append, List.mem_append, not_or] at readable
      rw [List.map_append, List.flatMap_append, ← ih readable.1]
      cases covers with
      | char c => simp [Piece.shown]
      | broken => simp [Piece.shown] at readable
      | cut => simp [Piece.shown] at readable

theorem eq_encode_of_decode? {bytes : Bytes} {text : String} (read : decode? bytes = some text) :
    bytes = encode text := by
  rw [decode?, String.fromUTF8?] at read
  split at read
  next valid =>
      rw [← Option.some.inj read, encode]
      simp [String.fromUTF8]
  next => cases read

/-- Octets that are no text are not shown as they are. -/
theorem mem_decodeLossy_of_unreadable {bytes : Bytes} (unreadable : decode? bytes = none) :
    '\uFFFD' ∈ (decodeLossy bytes).toList := by
  rw [toList_decodeLossy]
  by_contra readable
  have spelled := (cutUp_pieces bytes).eq_flatMap readable
  rw [← encode_ofList] at spelled
  rw [spelled, decode?_encode] at unreadable
  cases unreadable

/-- What is shown as it is has been in the octets. -/
theorem CutUp.mem_of_shown {pieces : List Piece} {bytes : Bytes} (cutUp : CutUp pieces bytes)
    {c : Char} (shown : c ∈ pieces.map Piece.shown) :
    c = '\uFFFD' ∨ ∀ octet ∈ String.utf8EncodeChar c, octet ∈ bytes := by
  induction cutUp with
  | nil => cases shown
  | @snoc pieces piece bytes part _ covers ih =>
      rw [List.map_append, List.mem_append] at shown
      rcases shown with earlier | last
      · rcases ih earlier with replaced | spelled
        · exact .inl replaced
        · exact .inr fun octet mem => List.mem_append_left _ (spelled octet mem)
      · obtain rfl := List.mem_singleton.1 last
        cases covers with
        | char c => exact .inr fun octet mem => List.mem_append_right _ mem
        | broken => exact .inl rfl
        | cut => exact .inl rfl

/-- An ASCII octet that is not among the octets is not shown either. -/
theorem not_mem_decodeLossy {bytes : Bytes} {byte : UInt8} (ascii : byte.toNat < 0x80)
    (absent : byte ∉ bytes) : Char.ofNat byte.toNat ∉ (decodeLossy bytes).toList := by
  rw [toList_decodeLossy]
  intro shown
  rcases (cutUp_pieces bytes).mem_of_shown shown with replaced | spelled
  · have code := congrArg (fun c : Char => c.val.toNat) replaced
    have value : (Char.ofNat byte.toNat).val.toNat = byte.toNat := val_ofNat (.inl (by omega))
    simp only [value] at code
    exact absurd (code ▸ ascii) (by decide)
  · rw [encodeChar_one ascii, UInt8.ofNat_toNat] at spelled
    exact absent (spelled byte List.mem_cons_self)

namespace Scan

/-- An ASCII octet ends what has begun in front of it. -/
theorem Behind.feed_ascii {scan : Scan} {bytes : Bytes} (behind : scan.Behind bytes)
    {byte : UInt8} (ascii : byte.toNat < 0x80) :
    ∃ ended, scan.feed byte = ⟨none, .char (Char.ofNat byte.toNat) 1 :: ended⟩ ∧
      ended.reverse.map Piece.shown = scan.finish.map Piece.shown := by
  have led : lead byte = .alone (Char.ofNat byte.toNat) :=
    lead_of_ascii (UInt8.lt_iff_toNat_lt.2 ascii)
  cases behind with
  | @between pieces _ cutUp =>
      refine ⟨pieces, ?_, rfl⟩
      simp only [Scan.feed, start, led]
  | @within begun pieces bytes octets cutUp spells =>
      have outside : ¬ (begun.low ≤ byte ∧ byte ≤ begun.high) := by
        rintro ⟨low, -⟩
        have beyond := spells.range.1
        rw [UInt8.le_iff_toNat_le] at low
        omega
      refine ⟨.broken begun.seen :: pieces, ?_, ?_⟩
      · rw [feed_interruption outside, start, led]
      · simp [finish, Piece.shown]

/-- The same scan, when these pieces have been found earlier. -/
def atop (scan : Scan) (earlier : List Piece) : Scan :=
  ⟨scan.begun, scan.pieces ++ earlier⟩

theorem start_append (pieces earlier : List Piece) (byte : UInt8) :
    start (pieces ++ earlier) byte = (start pieces byte).atop earlier := by
  unfold start
  cases lead byte <;> rfl

theorem feed_atop (scan : Scan) (earlier : List Piece) (byte : UInt8) :
    (scan.atop earlier).feed byte = (scan.feed byte).atop earlier := by
  rcases scan with ⟨_ | begun, pieces⟩
  · exact start_append pieces earlier byte
  · simp only [feed, atop]
    split
    · split
      · rfl
      · rfl
    · exact start_append (.broken begun.seen :: pieces) earlier byte

/-- What has been found earlier has no bearing on what is found later. -/
theorem foldl_feed_atop (scan : Scan) (earlier : List Piece) (bytes : Bytes) :
    bytes.foldl feed (scan.atop earlier) = (bytes.foldl feed scan).atop earlier := by
  induction bytes generalizing scan with
  | nil => rfl
  | cons byte bytes ih => rw [List.foldl_cons, List.foldl_cons, feed_atop, ih]

theorem finish_atop (scan : Scan) (earlier : List Piece) :
    (scan.atop earlier).finish = earlier.reverse ++ scan.finish := by
  rcases scan with ⟨_ | begun, pieces⟩
  · exact List.reverse_append
  · simp [finish, atop]

end Scan

/-- Lenient reading can be cut at an ASCII octet. -/
theorem decodeLossy_append_cons (front : Bytes) {byte : UInt8} (ascii : byte.toNat < 0x80)
    (rest : Bytes) :
    (decodeLossy (front ++ byte :: rest)).toList =
      (decodeLossy front).toList ++ Char.ofNat byte.toNat :: (decodeLossy rest).toList := by
  have opened : Scan.Behind {} [] := .between .nil
  rcases (opened.feedAll front).feed_ascii ascii with ⟨ended, fed, ending⟩
  have shown : ended.reverse.map Piece.shown = (pieces front).map Piece.shown := ending
  let here : Piece := .char (Char.ofNat byte.toNat) 1
  have scanned : (front ++ byte :: rest).foldl Scan.feed {} =
      (rest.foldl Scan.feed {}).atop (here :: ended) := by
    rw [List.foldl_append, List.foldl_cons, fed, ← Scan.foldl_feed_atop]
    rfl
  calc (decodeLossy (front ++ byte :: rest)).toList
      = ((here :: ended).reverse ++ pieces rest).map Piece.shown := by
        rw [toList_decodeLossy, pieces, scanned, Scan.finish_atop, pieces]
    _ = ended.reverse.map Piece.shown ++ here.shown :: (pieces rest).map Piece.shown := by simp
    _ = (pieces front).map Piece.shown ++ here.shown :: (pieces rest).map Piece.shown := by
        rw [shown]
    _ = (decodeLossy front).toList ++ here.shown :: (decodeLossy rest).toList := by
        rw [toList_decodeLossy, toList_decodeLossy]

/-- Cutting at the first occurrence of an ASCII octet and lenient reading change places. -/
theorem takeWhile_decodeLossy {byte : UInt8} (ascii : byte.toNat < 0x80) (bytes : Bytes) :
    (decodeLossy bytes).toList.takeWhile (· ≠ Char.ofNat byte.toNat) =
      (decodeLossy (bytes.takeWhile (· ≠ byte))).toList := by
  by_cases mem : byte ∈ bytes
  · rcases List.eq_append_cons_of_mem mem with ⟨front, rest, rfl, absent⟩
    rw [decodeLossy_append_cons front ascii,
      Text.takeWhile_ne_append_cons (not_mem_decodeLossy ascii absent),
      Text.takeWhile_ne_append_cons absent]
  · rw [Text.takeWhile_ne_of_not_mem (not_mem_decodeLossy ascii mem),
      Text.takeWhile_ne_of_not_mem mem]

/-! ## Reading what has been written -/

namespace Scan

theorem feed_of_alone {byte : UInt8} {c : Char} (led : lead byte = .alone c)
    (pieces : List Piece) : feed ⟨none, pieces⟩ byte = ⟨none, .char c 1 :: pieces⟩ := by
  simp only [feed, start, led]

theorem feed_of_begins {byte : UInt8} {begun : Begun} (led : lead byte = .begins begun)
    (pieces : List Piece) : feed ⟨none, pieces⟩ byte = ⟨some begun, pieces⟩ := by
  simp only [feed, start, led]

/-- The spelling of a character is found to be that character. -/
theorem foldl_feed_encodeChar (c : Char) (pieces : List Piece) :
    (String.utf8EncodeChar c).foldl feed ⟨none, pieces⟩ =
      ⟨none, .char c (String.utf8EncodeChar c).length :: pieces⟩ := by
  have read {n : Nat} (code : c.val.toNat = n) : Char.ofNat n = c := by
    rw [← code]
    exact Char.ofNat_toNat c
  have valid : c.val.toNat < 0xd800 ∨ 0xe000 ≤ c.val.toNat ∧ c.val.toNat < 0x110000 := by
    have valid := c.valid
    unfold UInt32.isValidChar Nat.isValidChar at valid
    omega
  rcases encodeChar_forms c with ⟨ascii, form⟩ | ⟨x, y, least, bound, digit, code, form⟩ |
      ⟨x, y, z, bound, digit, digit', code, least, form⟩ |
      ⟨x, y, z, w, bound, digit, digit', digit'', code, least, form⟩
  · have led := lead_of_ascii ((ofNat_lt_ofNat (by omega) (by decide)).2 ascii)
    rw [form, List.foldl_cons, feed_of_alone led, List.foldl_nil, UInt8.toNat_ofNat_of_lt',
      read rfl]
    · rfl
    · exact (by omega : c.val.toNat < 256)
  · have ⟨low, high⟩ := range_of_digit digit
    rw [form, List.foldl_cons, feed_of_begins (lead_two least bound), List.foldl_cons,
      feed_last digit low high _ (Nat.le_refl 1), List.foldl_nil, read code]
    rfl
  · have low : (if x = 0 then 0xa0 else 0x80 : UInt8).toNat ≤ y + 128 := by
      split
      · exact (by omega : 160 ≤ y + 128)
      · exact (range_of_digit digit).1
    have high : y + 128 ≤ (if x = 13 then 0x9f else 0xbf : UInt8).toNat := by
      split
      · exact (by omega : y + 128 ≤ 159)
      · exact (range_of_digit digit).2
    have ⟨low', high'⟩ := range_of_digit digit'
    have value : c.val.toNat = 64 * (64 * x + y) + z := by omega
    rw [form, List.foldl_cons, feed_of_begins (lead_three bound), List.foldl_cons,
      feed_next digit low high _ (Nat.lt_succ_self 1), List.foldl_cons,
      feed_last digit' low' high' _ (Nat.le_refl 1), List.foldl_nil, read value]
    rfl
  · have low : (if x = 0 then 0x90 else 0x80 : UInt8).toNat ≤ y + 128 := by
      split
      · exact (by omega : 144 ≤ y + 128)
      · exact (range_of_digit digit).1
    have high : y + 128 ≤ (if x = 4 then 0x8f else 0xbf : UInt8).toNat := by
      split
      · exact (by omega : y + 128 ≤ 143)
      · exact (range_of_digit digit).2
    have ⟨low', high'⟩ := range_of_digit digit'
    have ⟨low'', high''⟩ := range_of_digit digit''
    have value : c.val.toNat = 64 * (64 * (64 * x + y) + z) + w := by omega
    rw [form, List.foldl_cons, feed_of_begins (lead_four (by omega)), List.foldl_cons,
      feed_next digit low high _ (by decide : 1 < 3), List.foldl_cons,
      feed_next digit' low' high' _ (Nat.lt_succ_self 1), List.foldl_cons,
      feed_last digit'' low'' high'' _ (Nat.le_refl 1), List.foldl_nil, read value]
    rfl

theorem foldl_feed_encode (chars : List Char) (pieces : List Piece) :
    (chars.flatMap String.utf8EncodeChar).foldl feed ⟨none, pieces⟩ =
      ⟨none, (chars.map fun c => .char c (String.utf8EncodeChar c).length).reverse ++ pieces⟩ := by
  induction chars generalizing pieces with
  | nil => rfl
  | cons c chars ih =>
      rw [List.flatMap_cons, List.foldl_append, foldl_feed_encodeChar, ih]
      simp

end Scan

/-- Lenient reading gives back what has been written. -/
theorem decodeLossy_encode (text : String) : decodeLossy (encode text) = text := by
  have octets : encode text = text.toList.flatMap String.utf8EncodeChar := by
    rw [← encode_ofList, String.ofList_toList]
  have shown : (decodeLossy (encode text)).toList = text.toList := by
    rw [toList_decodeLossy, octets, pieces, Scan.foldl_feed_encode]
    simp [Scan.finish, Piece.shown, Function.comp_def]
  exact String.toList_inj.1 shown

end RemoteCall.Utf8
