import RemoteCall.Text.Utf8

/-!
# The order of texts

Texts are compared by code points.  UTF-8 keeps that order: of two characters
the lesser one has the lesser octets, whatever follows, so texts compare as
their octets do (`encode_lt_encode`).
-/

namespace RemoteCall.Utf8

theorem encode_ofList (chars : List Char) :
    encode (String.ofList chars) = chars.flatMap String.utf8EncodeChar := by
  rw [encode, String.toByteArray_ofList, List.utf8Encode, List.data_toByteArray]

/-- A code point is written in one of four lengths, as digits to base 64 behind a leading
octet that tells the length. -/
theorem encodeChar_forms (c : Char) :
    (c.val.toNat < 0x80 ∧ String.utf8EncodeChar c = [.ofNat c.val.toNat]) ∨
    (∃ x y, 2 ≤ x ∧ x < 32 ∧ y < 64 ∧ c.val.toNat = 64 * x + y ∧
      String.utf8EncodeChar c = [.ofNat (x + 192), .ofNat (y + 128)]) ∨
    (∃ x y z, x < 16 ∧ y < 64 ∧ z < 64 ∧ c.val.toNat = 4096 * x + 64 * y + z ∧
      0x800 ≤ c.val.toNat ∧
      String.utf8EncodeChar c = [.ofNat (x + 224), .ofNat (y + 128), .ofNat (z + 128)]) ∨
    (∃ x y z w, x < 8 ∧ y < 64 ∧ z < 64 ∧ w < 64 ∧
      c.val.toNat = 262144 * x + 4096 * y + 64 * z + w ∧ 0x10000 ≤ c.val.toNat ∧
      String.utf8EncodeChar c =
        [.ofNat (x + 240), .ofNat (y + 128), .ofNat (z + 128), .ofNat (w + 128)]) := by
  have bound : c.val.toNat < 0x110000 := by
    have valid := c.valid
    unfold UInt32.isValidChar Nat.isValidChar at valid
    omega
  unfold String.utf8EncodeChar
  generalize c.val.toNat = v at bound
  by_cases one : v ≤ 0x7f
  · exact .inl ⟨by omega, by simp [one]⟩
  by_cases two : v ≤ 0x7ff
  · refine .inr (.inl ⟨v / 64 % 32, v % 64, ?_, ?_, ?_, ?_, by simp [one, two]⟩) <;> omega
  by_cases three : v ≤ 0xffff
  · refine .inr (.inr (.inl ⟨v / 4096 % 16, v / 64 % 64, v % 64, ?_, ?_, ?_, ?_, ?_,
      by simp [one, two, three]⟩)) <;> omega
  · refine .inr (.inr (.inr ⟨v / 262144 % 8, v / 4096 % 64, v / 64 % 64, v % 64, ?_, ?_, ?_, ?_,
      ?_, ?_, by simp [one, two, three]⟩)) <;> omega

theorem ofNat_lt_ofNat {a b : Nat} (inside : a < 256) (inside' : b < 256) :
    UInt8.ofNat a < UInt8.ofNat b ↔ a < b := by
  rw [UInt8.lt_iff_toNat_lt, UInt8.toNat_ofNat_of_lt' inside, UInt8.toNat_ofNat_of_lt' inside']

theorem ofNat_eq_ofNat {a b : Nat} (inside : a < 256) (inside' : b < 256) :
    UInt8.ofNat a = UInt8.ofNat b ↔ a = b := by
  rw [← UInt8.toNat_inj, UInt8.toNat_ofNat_of_lt' inside, UInt8.toNat_ofNat_of_lt' inside']

/-- The octets of characters compare as the characters do, whatever follows them: a
longer form starts with a greater octet, and forms of one length differ first where
the digits do. -/
theorem encodeChar_append_lt {c d : Char} (before : c < d) (rest rest' : Bytes) :
    String.utf8EncodeChar c ++ rest < String.utf8EncodeChar d ++ rest' := by
  have points : c.val.toNat < d.val.toNat := before
  rcases encodeChar_forms c with ⟨_, form⟩ | ⟨x, y, _, _, _, _, form⟩ |
      ⟨x, y, z, _, _, _, _, _, form⟩ | ⟨x, y, z, w, _, _, _, _, _, _, form⟩ <;>
    rcases encodeChar_forms d with ⟨_, form'⟩ | ⟨x', y', _, _, _, _, form'⟩ |
      ⟨x', y', z', _, _, _, _, _, form'⟩ | ⟨x', y', z', w', _, _, _, _, _, _, form'⟩
  all_goals
    rw [form, form']
    simp (disch := omega) only [List.cons_append, List.cons_lt_cons_iff, ofNat_lt_ofNat,
      ofNat_eq_ofNat]
    omega

theorem encodeChar_ne_nil (c : Char) : String.utf8EncodeChar c ≠ [] := by
  rcases encodeChar_forms c with ⟨_, form⟩ | ⟨_, _, _, _, _, _, form⟩ |
      ⟨_, _, _, _, _, _, _, _, form⟩ | ⟨_, _, _, _, _, _, _, _, _, _, form⟩ <;>
    simp [form]

/-- The octets of texts compare as the texts do. -/
theorem flatMap_encodeChar_lt {front back : List Char} (before : front < back) :
    front.flatMap String.utf8EncodeChar < back.flatMap String.utf8EncodeChar := by
  induction before with
  | @nil c rest =>
      rw [List.flatMap_cons]
      cases octets : String.utf8EncodeChar c with
      | nil => exact absurd octets (encodeChar_ne_nil c)
      | cons octet others => exact .nil
  | rel first => exact encodeChar_append_lt first _ _
  | @cons c front back _ ih =>
      rw [List.flatMap_cons, List.flatMap_cons]
      exact List.append_left_lt ih

theorem encode_lt_encode {a b : String} (before : a < b) : encode a < encode b := by
  have chars : a.toList < b.toList := before
  rw [← String.ofList_toList (s := a), ← String.ofList_toList (s := b), encode_ofList,
    encode_ofList]
  exact flatMap_encodeChar_lt chars

end RemoteCall.Utf8
