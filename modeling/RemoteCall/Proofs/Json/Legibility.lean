import RemoteCall.Proofs.Json.Writer
import RemoteCall.Proofs.Text.Pieces

/-!
# JSON is written as text

The writer puts octets into its buffer.  They are always those of a text: numbers and
escapes are ASCII, and the octets of a character beyond ASCII stay together.  So the text
that a value has (`valueText`) is written in the octets of the value (`encode_valueText`).
-/

namespace RemoteCall

open Ascii

/-! ## Octets of texts -/

namespace Utf8

/-- Whether octets are those of a text. -/
def IsText (s : Bytes) : Prop :=
  ∃ text, encode text = s

theorem isText_nil : IsText [] :=
  ⟨"", rfl⟩

/-- One text behind another is a text. -/
theorem IsText.append {s t : Bytes} (front : IsText s) (back : IsText t) : IsText (s ++ t) := by
  obtain ⟨text, rfl⟩ := front
  obtain ⟨more, rfl⟩ := back
  refine ⟨String.ofList (text.toList ++ more.toList), ?_⟩
  rw [encode_ofList, List.flatMap_append, ← encode_ofList, ← encode_ofList, String.ofList_toList,
    String.ofList_toList]

theorem IsText.flatMap {α : Type} {spelled : α → Bytes} {parts : List α}
    (each : ∀ part ∈ parts, IsText (spelled part)) : IsText (parts.flatMap spelled) := by
  induction parts with
  | nil => exact isText_nil
  | cons part rest ih =>
      rw [List.forall_mem_cons] at each
      exact each.1.append (ih each.2)

/-- Whether octets are those of ASCII characters. -/
def IsAscii (s : Bytes) : Prop :=
  ∀ byte ∈ s, byte < 0x80

instance (s : Bytes) : Decidable (IsAscii s) :=
  List.decidableBAll _ s

/-- ASCII octets are a text. -/
theorem isText_of_ascii {s : Bytes} (ascii : IsAscii s) : IsText s := by
  have spelled : s.flatMap (fun byte => [byte]) = s := List.flatMap_singleton' s
  rw [← spelled]
  apply IsText.flatMap
  intro byte mem
  have bound : byte.toNat < 128 := UInt8.lt_iff_toNat_lt.1 (ascii byte mem)
  refine ⟨String.ofList [Char.ofNat byte.toNat], ?_⟩
  rw [encode_ofList, List.flatMap_singleton, encodeChar_one bound, UInt8.ofNat_toNat]

/-- What is strictly read from the octets of a text is written in these octets. -/
theorem IsText.encode_decode? {s : Bytes} (isText : IsText s) :
    encode ((decode? s).getD "") = s := by
  obtain ⟨text, rfl⟩ := isText
  rw [decode?_encode, Option.getD_some]

end Utf8

namespace Json

open Utf8

/-! ## Numbers -/

/-- Characters that are written as one octet each. -/
def AsciiOnly (chars : List Char) : Prop :=
  ∀ c ∈ chars, c.toNat < 0x80

instance (chars : List Char) : Decidable (AsciiOnly chars) :=
  List.decidableBAll _ chars

theorem AsciiOnly.append {front back : List Char} (ascii : AsciiOnly front)
    (ascii' : AsciiOnly back) : AsciiOnly (front ++ back) := by
  intro c mem
  rcases List.mem_append.1 mem with mem | mem
  · exact ascii c mem
  · exact ascii' c mem

theorem AsciiOnly.cons {c : Char} {rest : List Char} (first : c.toNat < 0x80)
    (ascii : AsciiOnly rest) : AsciiOnly (c :: rest) :=
  List.forall_mem_cons.2 ⟨first, ascii⟩

theorem AsciiOnly.subset {chars rest : List Char} (ascii : AsciiOnly chars)
    (subset : rest ⊆ chars) : AsciiOnly rest :=
  fun c mem => ascii c (subset mem)

theorem isText_octets {text : String} (ascii : AsciiOnly text.toList) : IsText (octets text) := by
  apply isText_of_ascii
  intro byte mem
  obtain ⟨c, inText, rfl⟩ := List.mem_map.1 mem
  have bound := ascii c inText
  rw [UInt8.lt_iff_toNat_lt, UInt8.toNat_ofNat_of_lt' (by simp only [UInt8.size]; omega)]
  exact bound

theorem natDigits_ascii (n : Nat) : AsciiOnly (Decimal.natDigits n) := by
  intro c mem
  have digit : c.isDigit = true := Nat.isDigit_of_mem_toDigits (by decide) (by decide) mem
  simp only [Char.isDigit, ge_iff_le, Bool.and_eq_true, decide_eq_true_eq] at digit
  have bound : c.val.toNat ≤ 57 := digit.2
  exact Nat.lt_of_le_of_lt bound (by decide)

theorem intText_ascii (n : Int) : AsciiOnly (Decimal.intText n).toList := by
  rw [Decimal.intText, String.toList_ofList]
  split
  · exact (natDigits_ascii _).cons (by decide)
  · exact natDigits_ascii _

theorem replicate_zero_ascii (count : Nat) : AsciiOnly (List.replicate count '0') := by
  intro c mem
  rw [List.eq_of_mem_replicate mem]
  decide

theorem positionalDigits_ascii (d : Decimal) : AsciiOnly (Decimal.positionalDigits d) := by
  have digits := natDigits_ascii d.digits
  unfold Decimal.positionalDigits
  simp only
  split
  · exact (digits.append (replicate_zero_ascii _)).append (by decide)
  · split
    · exact (digits.subset (List.take_subset _ _)).append
        ((digits.subset (List.drop_subset _ _)).cons (by decide))
    · exact .cons (by decide) (.cons (by decide) ((replicate_zero_ascii _).append digits))

theorem exponentDigits_ascii (d : Decimal) : AsciiOnly (Decimal.exponentDigits d) := by
  have digits := natDigits_ascii d.digits
  unfold Decimal.exponentDigits
  simp only
  refine .append (.append (.append (digits.subset (List.take_subset _ _)) ?_) ?_)
    (natDigits_ascii _)
  · split
    · exact nofun
    · exact (digits.subset (List.drop_subset _ _)).cons (by decide)
  · split <;> decide

theorem isText_floatOctets {F : FloatFormat} (x : Floating F) : IsText (floatOctets x) := by
  unfold floatOctets
  split
  next finite =>
      apply isText_octets
      rw [Decimal.Notation.write, if_pos finite, String.toList_ofList]
      refine .append ?_ ?_
      · split <;> decide
      · split
        · exact positionalDigits_ascii _
        · exact exponentDigits_ascii _
  next => exact isText_octets (by decide)

/-! ## Strings -/

theorem escaped_ascii (byte : Fin 128) : IsAscii (escaped (UInt8.ofNat byte.val)) := by
  decide +revert

/-- An octet of a character beyond ASCII stands for itself. -/
theorem escaped_of_le {byte : UInt8} (beyond : 0x80 ≤ byte) : escaped byte = [byte] := by
  have code : 128 ≤ byte.toNat := UInt8.le_iff_toNat_le.1 beyond
  have apart {other : UInt8} (low : other.toNat < 128) : byte ≠ other := by
    rintro rfl
    omega
  have printable : (0x20 : UInt8) ≤ byte := UInt8.le_iff_toNat_le.2 (Nat.le_trans (by decide) code)
  rw [escaped, if_neg (apart (by decide)), if_neg (apart (by decide)), if_pos printable]

theorem flatMap_escaped_of_le {s : Bytes} (beyond : ∀ byte ∈ s, (0x80 : UInt8) ≤ byte) :
    s.flatMap escaped = s := by
  induction s with
  | nil => rfl
  | cons byte rest ih =>
      rw [List.forall_mem_cons] at beyond
      rw [List.flatMap_cons, escaped_of_le beyond.1, ih beyond.2]
      rfl

/-- What stands in a string for a character is text: a character is one ASCII octet, or all
of its octets stand for themselves. -/
theorem isText_escaped (c : Char) : IsText ((String.utf8EncodeChar c).flatMap escaped) := by
  have itself : IsText (String.utf8EncodeChar c) := by
    refine ⟨String.ofList [c], ?_⟩
    rw [encode_ofList, List.flatMap_singleton]
  have kept (beyond : ∀ byte ∈ String.utf8EncodeChar c, (0x80 : UInt8) ≤ byte) :
      IsText ((String.utf8EncodeChar c).flatMap escaped) := by
    rw [flatMap_escaped_of_le beyond]
    exact itself
  have digitBeyond {n : Nat} (low : 128 ≤ n) (high : n < 256) : (0x80 : UInt8) ≤ .ofNat n := by
    rw [UInt8.le_iff_toNat_le, UInt8.toNat_ofNat_of_lt' high]
    exact low
  rcases encodeChar_forms c with ⟨ascii, form⟩ | ⟨x, y, _, _, _, _, form⟩ |
    ⟨x, y, z, _, _, _, _, _, form⟩ | ⟨x, y, z, w, _, _, _, _, _, _, form⟩
  · rw [form, List.flatMap_singleton]
    exact isText_of_ascii (escaped_ascii ⟨c.val.toNat, ascii⟩)
  all_goals
    apply kept
    rw [form]
    simp only [List.forall_mem_cons]
    refine ⟨digitBeyond (by omega) (by omega), digitBeyond (by omega) (by omega), ?_⟩
  · exact nofun
  · exact ⟨digitBeyond (by omega) (by omega), nofun⟩
  · exact ⟨digitBeyond (by omega) (by omega), digitBeyond (by omega) (by omega), nofun⟩

theorem isText_literal (chars : String) : IsText (literal chars) := by
  have shape : literal chars
      = [quote] ++ ((chars.toList.flatMap fun c => (String.utf8EncodeChar c).flatMap escaped)
          ++ [quote]) := by
    rw [literal, ← String.ofList_toList (s := chars), encode_ofList, List.flatMap_assoc,
      String.toList_ofList]
    rfl
  have quoted : IsText [quote] := isText_of_ascii (by decide)
  rw [shape]
  exact quoted.append ((IsText.flatMap fun c _ => isText_escaped c).append quoted)

/-! ## Values -/

theorem isText_separator (after : Bool) : IsText (separator after) :=
  isText_of_ascii (by cases after <;> decide)

theorem isText_spellItems {items : List Value} (each : ∀ item ∈ items, IsText (spelling item))
    (after : Bool) : IsText (spellItems after items) := by
  induction items generalizing after with
  | nil => exact isText_nil
  | cons item rest ih =>
      rw [List.forall_mem_cons] at each
      exact ((isText_separator after).append each.1).append (ih each.2 true)

theorem isText_spellMembers {members : List (String × Value)}
    (each : ∀ member ∈ members, IsText (spelling member.2)) (after : Bool) :
    IsText (spellMembers after members) := by
  induction members generalizing after with
  | nil => exact isText_nil
  | cons member rest ih =>
      rcases member with ⟨name, v⟩
      rw [List.forall_mem_cons] at each
      have named := (isText_separator after).append (isText_literal name)
      have colons : IsText [colon] := isText_of_ascii (by decide)
      exact named.append (colons.append (each.1.append (ih each.2 true)))

/-- What is written for a value is text. -/
theorem isText_spelling (v : Value) : IsText (spelling v) := by
  induction v using Value.inductionOn with
  | null => exact isText_octets (by decide)
  | bool b => cases b <;> exact isText_octets (by decide)
  | integer n => exact isText_octets (intText_ascii n.val)
  | float x finite => exact isText_floatOctets x
  | string chars => exact isText_literal chars
  | array items ih =>
      have opening : IsText [openBracket] := isText_of_ascii (by decide)
      have closing : IsText [closeBracket] := isText_of_ascii (by decide)
      exact opening.append ((isText_spellItems ih false).append closing)
  | object members ih =>
      have opening : IsText [openBrace] := isText_of_ascii (by decide)
      have closing : IsText [closeBrace] := isText_of_ascii (by decide)
      exact opening.append ((isText_spellMembers ih false).append closing)

/-- The text of a value is written in the octets of the value. -/
theorem encode_valueText (v : Value) : encode (valueText v) = spelling v := by
  rw [valueText, writeValue_eq]
  exact (isText_spelling v).encode_decode?

end Json

end RemoteCall
