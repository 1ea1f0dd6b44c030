import RemoteCall.MessagePack.Reader
import RemoteCall.MessagePack.Writer

/-!
# Reading back MessagePack items

Numbers, lengths and counts come in several widths, of which the writer takes
the least.  Whichever it takes, the reader finds the same number, as long as it
fits the widest one.
-/

namespace RemoteCall.MessagePack

/-! ## Numbers of fixed width -/

theorem natural_ofNat {width n : Nat} (fits : n < Nat.pow 256 width) (rest : Bytes) :
    natural width (Bytes.ofNat width n ++ rest) = .ok (n, rest) := by
  have taken := Bytes.takeExact_append (Bytes.ofNat width n) rest
  rw [Bytes.length_ofNat] at taken
  have same : Bytes.toNat (Bytes.ofNat width n) = n := by
    rw [Bytes.toNat_ofNat, Nat.mod_eq_of_lt fits]
  simp only [natural, taken, same]

theorem content_append (octets rest : Bytes) :
    content octets.length (octets ++ rest) = .ok (octets, rest) := by
  simp only [content, Bytes.takeExact_append]

theorem reverse_store (marker : UInt8) (width n : Nat) :
    (store marker width n []).reverse = marker :: Bytes.ofNat width n := by
  simp [store, List.reverseAux_eq]

theorem twosComplement_lt (width : Nat) (n : Int) :
    twosComplement width n < Nat.pow 2 (8 * width) := by
  have positive : 0 < Nat.pow 2 (8 * width) := Nat.two_pow_pos _
  have nonneg : 0 ≤ n % (Nat.pow 2 (8 * width) : Nat) := Int.emod_nonneg n (by omega)
  have below : n % (Nat.pow 2 (8 * width) : Nat) < (Nat.pow 2 (8 * width) : Nat) :=
    Int.emod_lt_of_pos n (by omega)
  unfold twosComplement
  omega

/-- A number below zero is read back from its two's complement. -/
theorem ofTwosComplement_twosComplement {width : Nat} {n : Int} (some : 0 < width)
    (negative : n < 0) (least : -(Nat.pow 2 (8 * width - 1) : Nat) ≤ n) :
    ofTwosComplement width (twosComplement width n) = n := by
  have double : Nat.pow 2 (8 * width) = 2 * Nat.pow 2 (8 * width - 1) := by
    have split : 8 * width = (8 * width - 1) + 1 := by omega
    rw [split]
    exact Nat.pow_succ'
  have wrapped : n % (Nat.pow 2 (8 * width) : Nat) = n + (Nat.pow 2 (8 * width) : Nat) := by
    rw [← Int.add_emod_right]
    exact Int.emod_eq_of_lt (by omega) (by omega)
  unfold ofTwosComplement twosComplement
  rw [wrapped]
  split <;> omega

/-! ## Lengths and counts -/

/-- Whether the octets are a marker of a kind that announces the number `n`. -/
def Announces (kind : Size → Marker) (front : Bytes) (n : Nat) : Prop :=
  ∀ rest, ∃ stored after, marker (front ++ rest) = .ok (kind stored, after) ∧
    size stored after = .ok (n, rest)

theorem announces_inMarker {kind : Size → Marker} {byte : UInt8} {n : Nat}
    (holds : Marker.ofByte byte = kind (.inMarker n)) : Announces kind [byte] n := by
  intro rest
  refine ⟨.inMarker n, rest, ?_, rfl⟩
  rw [← holds]
  rfl

theorem announces_after {kind : Size → Marker} {byte : UInt8} {width n : Nat}
    (marked : Marker.ofByte byte = kind (.after width)) (fits : n < Nat.pow 256 width) :
    Announces kind (store byte width n []).reverse n := by
  intro rest
  refine ⟨.after width, Bytes.ofNat width n ++ rest, ?_, natural_ofNat fits rest⟩
  rw [← marked, reverse_store]
  rfl

theorem ofByte_text (n : Fin 0x20) :
    Marker.ofByte (UInt8.ofNat (0xa0 + n.val)) = .text (.inMarker n.val) := by
  decide +revert

theorem ofByte_array (n : Fin 0x10) :
    Marker.ofByte (UInt8.ofNat (0x90 + n.val)) = .array (.inMarker n.val) := by
  decide +revert

theorem ofByte_map (n : Fin 0x10) :
    Marker.ofByte (UInt8.ofNat (0x80 + n.val)) = .map (.inMarker n.val) := by
  decide +revert

theorem putTextLength_announces {n : Nat} (fits : n < 0x100000000) :
    Announces .text (putTextLength n []).reverse n := by
  unfold putTextLength
  split
  next small => exact announces_inMarker (ofByte_text ⟨n, small⟩)
  next =>
  split
  next small => exact announces_after rfl small
  next =>
  split
  next small => exact announces_after rfl small
  next => exact announces_after rfl fits

theorem putArrayCount_announces {n : Nat} (fits : n < 0x100000000) :
    Announces .array (putArrayCount n []).reverse n := by
  unfold putArrayCount
  split
  next small => exact announces_inMarker (ofByte_array ⟨n, small⟩)
  next =>
  split
  next small => exact announces_after rfl small
  next => exact announces_after rfl fits

theorem putMapCount_announces {n : Nat} (fits : n < 0x100000000) :
    Announces .map (putMapCount n []).reverse n := by
  unfold putMapCount
  split
  next small => exact announces_inMarker (ofByte_map ⟨n, small⟩)
  next =>
  split
  next small => exact announces_after rfl small
  next => exact announces_after rfl fits

/-! ## Items -/

theorem item_cons (byte : UInt8) (rest : Bytes) :
    item (byte :: rest) = itemOf (Marker.ofByte byte) rest :=
  rfl

theorem item_putArrayCount {n : Nat} (fits : n < 0x100000000) (rest : Bytes) :
    item ((putArrayCount n []).reverse ++ rest) = .ok (.array n, rest) := by
  rcases putArrayCount_announces fits rest with ⟨stored, after, found, counted⟩
  simp only [item, found, bind, Except.bind, itemOf, counted]

theorem item_putMapCount {n : Nat} (fits : n < 0x100000000) (rest : Bytes) :
    item ((putMapCount n []).reverse ++ rest) = .ok (.map n, rest) := by
  rcases putMapCount_announces fits rest with ⟨stored, after, found, counted⟩
  simp only [item, found, bind, Except.bind, itemOf, counted]

theorem item_putText {chars : String} (fits : (Utf8.encode chars).length < 0x100000000)
    (rest : Bytes) :
    item ((putText chars []).reverse ++ rest) = .ok (.text (Utf8.encode chars), rest) := by
  have shape : (putText chars []).reverse ++ rest
      = (putTextLength (Utf8.encode chars).length []).reverse ++ (Utf8.encode chars ++ rest) := by
    simp [putText, List.reverseAux_eq]
  obtain ⟨stored, after, found, measured⟩ :=
    putTextLength_announces fits (Utf8.encode chars ++ rest)
  simp only [shape, item, found, bind, Except.bind, itemOf, measured, content_append]

/-- A floating-point number is read back bit for bit. -/
theorem item_putDouble (x : Double) (rest : Bytes) :
    item ((putDouble x []).reverse ++ rest) = .ok (.double x, rest) := by
  have fits : x.toBits < Nat.pow 256 8 := Floating.toBits_lt x
  have marked : Marker.ofByte 0xcb = .double := rfl
  rw [putDouble, reverse_store, List.cons_append, item_cons, marked]
  simp only [itemOf, natural_ofNat fits, bind, Except.bind, Floating.ofBits_toBits]

theorem item_unsigned {byte : UInt8} {width n : Nat} (marked : Marker.ofByte byte = .unsigned width)
    (fits : n < Nat.pow 256 width) (rest : Bytes) :
    item ((store byte width n []).reverse ++ rest) = .ok (.unsigned n, rest) := by
  rw [reverse_store, List.cons_append, item_cons, marked]
  simp only [itemOf, natural_ofNat fits, bind, Except.bind]

theorem item_signed {byte : UInt8} {width : Nat} {n : Int}
    (marked : Marker.ofByte byte = .signed width) (some : 0 < width) (negative : n < 0)
    (least : -(Nat.pow 2 (8 * width - 1) : Nat) ≤ n) (rest : Bytes) :
    item ((store byte width (twosComplement width n) []).reverse ++ rest)
      = .ok (.signed n, rest) := by
  have fits : twosComplement width n < Nat.pow 256 width := by
    have power : Nat.pow 256 width = Nat.pow 2 (8 * width) := (Nat.pow_mul 2 8 width).symm
    exact power ▸ twosComplement_lt width n
  rw [reverse_store, List.cons_append, item_cons, marked]
  simp only [itemOf, natural_ofNat fits, bind, Except.bind,
    ofTwosComplement_twosComplement some negative least]

theorem ofByte_positive (n : Fin 0x80) : Marker.ofByte (UInt8.ofNat n.val) = .positive n.val := by
  decide +revert

theorem item_putNatural {n : Nat} (fits : n < 0x10000000000000000) (rest : Bytes) :
    item ((putNatural n []).reverse ++ rest) = .ok (.unsigned n, rest) := by
  unfold putNatural
  split
  next small =>
      have held : Marker.ofByte (UInt8.ofNat n) = .positive n := ofByte_positive ⟨n, small⟩
      rw [List.reverse_singleton, List.singleton_append, item_cons, held]
      rfl
  next =>
  split
  next small => exact item_unsigned rfl small rest
  next =>
  split
  next small => exact item_unsigned rfl small rest
  next =>
  split
  next small => exact item_unsigned rfl small rest
  next => exact item_unsigned rfl fits rest

theorem ofByte_negative (n : Fin 0x20) :
    Marker.ofByte (UInt8.ofNat (twosComplement 1 (n.val - 0x20 : Int))) =
      .negative (n.val - 0x20) := by
  decide +revert

theorem item_putInteger_of_nonneg {n : Int} (nonneg : 0 ≤ n) (fits : n < 0x10000000000000000)
    (rest : Bytes) : item ((putInteger n []).reverse ++ rest) = .ok (.unsigned n.toNat, rest) := by
  rw [putInteger, if_pos nonneg]
  exact item_putNatural (by omega) rest

theorem item_putInteger_of_neg {n : Int} (negative : n < 0) (least : -0x8000000000000000 ≤ n)
    (rest : Bytes) : item ((putInteger n []).reverse ++ rest) = .ok (.signed n, rest) := by
  rw [putInteger, if_neg (Int.not_le.2 negative)]
  split
  next small =>
      have held := ofByte_negative ⟨(n + 0x20).toNat, by omega⟩
      have same : ((n + 0x20).toNat : Int) - 0x20 = n := by omega
      rw [same] at held
      rw [List.reverse_singleton, List.singleton_append, item_cons, held]
      rfl
  next =>
  split
  next small =>
      apply item_signed rfl (by decide) negative
      exact small
  next =>
  split
  next small =>
      apply item_signed rfl (by decide) negative
      exact small
  next =>
  split
  next small =>
      apply item_signed rfl (by decide) negative
      exact small
  next =>
      apply item_signed rfl (by decide) negative
      exact least

end RemoteCall.MessagePack
