import RemoteCall.Json.Reader
import RemoteCall.Proofs.Json.Literal
import RemoteCall.Proofs.Json.Numeral
import RemoteCall.Proofs.Json.Writer

/-!
# Reading back JSON values

The reader gives a written value back in normal form, unless the value holds a
floating-point number, and leaves what follows it, provided that this cannot go
on a numeral and that there is room for all brackets.  The bound of the loops
over items and members is no restriction: it only has to be the length of the
text at least.
-/

namespace RemoteCall.Json

open Ascii

/-! ## Tokens -/

/-- Whether an octet begins a value or a key rather than separating or closing. -/
def Begins (byte : UInt8) : Prop :=
  isBlank byte = false ∧ byte ≠ closeBracket ∧ byte ≠ closeBrace

/-- Whether an octet begins a number. -/
def Numeric (byte : UInt8) : Prop :=
  byte = minus ∨ isDigit byte = true

theorem Numeric.ne {byte other : UInt8} (numeric : Numeric byte)
    (otherwise : other ≠ minus ∧ isDigit other = false) : byte ≠ other := by
  rintro rfl
  rcases numeric with isMinus | digit
  · exact otherwise.1 isMinus
  · exact absurd digit (by simp [otherwise.2])

theorem Numeric.begins {byte : UInt8} (numeric : Numeric byte) : Begins byte := by
  have notBlank : isBlank byte = false := by
    have notSpace : byte ≠ space := numeric.ne (by decide)
    have notNewline : byte ≠ newline := numeric.ne (by decide)
    have notTab : byte ≠ tab := numeric.ne (by decide)
    have notReturn : byte ≠ carriageReturn := numeric.ne (by decide)
    simp [isBlank, notSpace, notNewline, notTab, notReturn]
  exact ⟨notBlank, numeric.ne (by decide), numeric.ne (by decide)⟩

theorem intText_numeric (n : Int) :
    ∃ first others, octets (Decimal.intText n) = first :: others ∧ Numeric first := by
  rw [octets_intText]
  split
  · exact ⟨minus, natOctets n.natAbs, rfl, .inl rfl⟩
  · cases shape : natOctets n.natAbs with
    | nil => exact absurd shape (natOctets_ne_nil n.natAbs)
    | cons first others =>
        refine ⟨first, others, rfl, .inr ?_⟩
        exact isDigit_of_mem_natOctets (shape ▸ List.mem_cons_self)

theorem begins_quote : Begins quote := by
  refine ⟨?_, ?_, ?_⟩ <;> decide

theorem blanks_of_begins {byte : UInt8} (begins : Begins byte) (rest : Bytes) :
    blanks (byte :: rest) = byte :: rest := by
  simp [blanks, begins.1]

/-- Every value begins with an octet that begins a value. -/
theorem spelling_begins {v : Value} (floatFree : v.FloatFree) :
    ∃ first others, spelling v = first :: others ∧ Begins first := by
  cases v with
  | null => exact ⟨lowerN, restOfNull, by decide, by decide, by decide, by decide⟩
  | bool b =>
      cases b with
      | true => exact ⟨lowerT, restOfTrue, by decide, by decide, by decide, by decide⟩
      | false => exact ⟨lowerF, restOfFalse, by decide, by decide, by decide, by decide⟩
  | integer n =>
      rcases intText_numeric n.val with ⟨first, others, shape, numeric⟩
      exact ⟨first, others, shape, numeric.begins⟩
  | float x finite => exact floatFree.self.elim
  | string chars => exact ⟨quote, _, rfl, begins_quote⟩
  | array items => exact ⟨openBracket, _, rfl, by decide, by decide, by decide⟩
  | object members => exact ⟨openBrace, _, rfl, by decide, by decide, by decide⟩

/-- What closes a list or an object, or separates, cannot go on a numeral. -/
theorem ends_closeBracket (rest : Bytes) : Numeral.Ends (closeBracket :: rest) := by
  refine ⟨?_, ?_, ?_, ?_⟩ <;> decide

theorem ends_closeBrace (rest : Bytes) : Numeral.Ends (closeBrace :: rest) := by
  refine ⟨?_, ?_, ?_, ?_⟩ <;> decide

theorem ends_comma (rest : Bytes) : Numeral.Ends (comma :: rest) := by
  refine ⟨?_, ?_, ?_, ?_⟩ <;> decide

theorem word_append (letters rest : Bytes) : word letters (letters ++ rest) = .ok rest := by
  induction letters with
  | nil => cases rest <;> rfl
  | cons letter letters ih => simp [word, ih]

/-! ## Scalars -/

section Scalars

variable (inner : Option (Read Value)) (bound : Nat) (rest : Bytes)

theorem valueWith_null : valueWith inner bound (octets "null" ++ rest) = .ok (.null, rest) := by
  have spelled : octets "null" = lowerN :: restOfNull := by decide
  have first : valueWith inner bound (lowerN :: (restOfNull ++ rest))
      = (do .ok (.null, ← word restOfNull (restOfNull ++ rest))) := rfl
  rw [spelled, List.cons_append, first, word_append]
  rfl

theorem valueWith_true :
    valueWith inner bound (octets "true" ++ rest) = .ok (.bool true, rest) := by
  have spelled : octets "true" = lowerT :: restOfTrue := by decide
  have first : valueWith inner bound (lowerT :: (restOfTrue ++ rest))
      = (do .ok (.bool true, ← word restOfTrue (restOfTrue ++ rest))) := rfl
  rw [spelled, List.cons_append, first, word_append]
  rfl

theorem valueWith_false :
    valueWith inner bound (octets "false" ++ rest) = .ok (.bool false, rest) := by
  have spelled : octets "false" = lowerF :: restOfFalse := by decide
  have first : valueWith inner bound (lowerF :: (restOfFalse ++ rest))
      = (do .ok (.bool false, ← word restOfFalse (restOfFalse ++ rest))) := rfl
  rw [spelled, List.cons_append, first, word_append]
  rfl

theorem valueWith_literal (chars : String) :
    valueWith inner bound (literal chars ++ rest) = .ok (.string chars, rest) := by
  rw [literal_append]
  change (text _ >>= _) = _
  rw [text_flatMap_escaped]
  rfl

theorem valueWith_of_numeric {first : UInt8} (numeric : Numeric first) :
    valueWith inner bound (first :: rest) = number (first :: rest) := by
  have notQuote : first ≠ quote := numeric.ne (by decide)
  have notBrace : first ≠ openBrace := numeric.ne (by decide)
  have notBracket : first ≠ openBracket := numeric.ne (by decide)
  have notNull : first ≠ lowerN := numeric.ne (by decide)
  have notTrue : first ≠ lowerT := numeric.ne (by decide)
  have notFalse : first ≠ lowerF := numeric.ne (by decide)
  simp only [valueWith, blanks_of_begins numeric.begins, if_neg notQuote, if_neg notBrace,
    if_neg notBracket, if_neg notNull, if_neg notTrue, if_neg notFalse]
  exact if_pos numeric

theorem valueWith_intText (n : Integer) (ends : Numeral.Ends rest) :
    valueWith inner bound (octets (Decimal.intText n.val) ++ rest) = .ok (.integer n, rest) := by
  rcases intText_numeric n.val with ⟨first, others, shape, numeric⟩
  have whole := number_intText n ends
  rw [shape, List.cons_append] at whole ⊢
  rw [valueWith_of_numeric inner bound _ numeric, whole]

end Scalars

/-! ## Items -/

section Items

variable {read : Read Value} {bound : Nat} {done : List Value} {s rest : Bytes} {v : Value}

theorem moreItems_last (item : read s = .ok (v, closeBracket :: rest)) :
    moreItems read (bound + 1) done s = .ok ((v :: done).reverse, rest) := by
  rw [moreItems, item]
  rfl

theorem moreItems_next {first : UInt8} (begins : Begins first)
    (item : read s = .ok (v, comma :: first :: rest)) :
    moreItems read (bound + 1) done s = moreItems read bound (v :: done) (first :: rest) := by
  have outer : blanks (comma :: first :: rest) = comma :: first :: rest := rfl
  have inner : blanks (first :: rest) = first :: rest := blanks_of_begins begins rest
  rw [moreItems, item]
  simp only [bind, Except.bind, outer]
  split
  next same => cases same
  next same => exact absurd (List.cons.inj same).1 (by decide)
  next same =>
      rcases List.cons.inj same with ⟨-, rfl⟩
      simp only [inner]
      split
      next same => cases same
      next same => exact absurd (List.cons.inj same).1 begins.2.1
      next => rfl
  next other => exact absurd rfl (other _)

theorem items_of_begins {first : UInt8} (begins : Begins first) :
    items read bound (first :: rest) = moreItems read bound [] (first :: rest) := by
  rw [items, blanks_of_begins begins]
  split
  next same => cases same
  next same => exact absurd (List.cons.inj same).1 begins.2.1
  next => rfl

end Items

/-- Whether a reader gives a value back in normal form. -/
def Recovers (read : Read Value) (v : Value) : Prop :=
  ∀ rest, Numeral.Ends rest → read (spelling v ++ rest) = .ok (v.normal, rest)

/-- Items are read back in order, up to the closing bracket. -/
theorem moreItems_spelling {read : Read Value} {first : Value} {others : List Value}
    (floatFree : ∀ item ∈ first :: others, item.FloatFree)
    (recovers : ∀ item ∈ first :: others, Recovers read item) {bound : Nat}
    (enough : others.length < bound) (done : List Value) (rest : Bytes) :
    moreItems read bound done (spelling first ++ (spellItems true others ++ closeBracket :: rest))
      = .ok (done.reverse ++ (first :: others).map Value.normal, rest) := by
  induction others generalizing first bound done with
  | nil =>
      rcases Nat.exists_eq_add_one_of_ne_zero (Nat.ne_zero_of_lt enough) with ⟨bound, rfl⟩
      have item := recovers first List.mem_cons_self (closeBracket :: rest) (ends_closeBracket rest)
      rw [spellItems, List.nil_append, moreItems_last item]
      simp
  | cons second others ih =>
      rcases Nat.exists_eq_add_one_of_ne_zero (Nat.ne_zero_of_lt enough) with ⟨bound, rfl⟩
      have left := ih (fun item mem => floatFree item (List.mem_cons_of_mem _ mem))
        (fun item mem => recovers item (List.mem_cons_of_mem _ mem))
        (Nat.lt_of_succ_lt_succ enough) (first.normal :: done)
      obtain ⟨byte, tail, shape, begins⟩ :=
        spelling_begins (floatFree second (List.mem_cons_of_mem _ List.mem_cons_self))
      have item := recovers first List.mem_cons_self
        (comma :: (spelling second ++ (spellItems true others ++ closeBracket :: rest)))
        (ends_comma _)
      simp only [spellItems, separator, if_true, List.append_assoc, List.cons_append,
        List.nil_append]
      rw [shape, List.cons_append] at item left ⊢
      rw [moreItems_next begins item, left]
      simp

theorem items_spelling {read : Read Value} {vs : List Value}
    (floatFree : ∀ item ∈ vs, item.FloatFree) (recovers : ∀ item ∈ vs, Recovers read item)
    {bound : Nat} (enough : vs.length ≤ bound) (rest : Bytes) :
    items read bound (spellItems false vs ++ closeBracket :: rest)
      = .ok (vs.map Value.normal, rest) := by
  cases vs with
  | nil => rfl
  | cons first others =>
      obtain ⟨byte, tail, shape, begins⟩ :=
        spelling_begins (floatFree first List.mem_cons_self)
      have all := moreItems_spelling floatFree recovers enough [] rest
      simp only [spellItems, separator, Bool.false_eq_true, if_false, List.nil_append,
        List.append_assoc]
      rw [shape, List.cons_append] at all ⊢
      rw [items_of_begins begins, all]
      rfl

/-! ## Members -/

theorem key_literal (name : String) (rest : Bytes) :
    key (literal name ++ colon :: rest) = .ok (name, rest) := by
  rw [literal_append]
  change (text _ >>= _) = _
  rw [text_flatMap_escaped]
  rfl

section Members

variable {read : Read Value} {bound : Nat} {done : List (String × Value)} {s rest : Bytes}
  {v : Value}

theorem moreMembers_last (name : String) (content : read s = .ok (v, closeBrace :: rest)) :
    moreMembers read (bound + 1) done (literal name ++ colon :: s)
      = .ok (((name, v) :: done).reverse, rest) := by
  rw [moreMembers, key_literal]
  simp only [bind, Except.bind, content]
  rfl

theorem moreMembers_next (name : String) (content : read s = .ok (v, comma :: quote :: rest)) :
    moreMembers read (bound + 1) done (literal name ++ colon :: s)
      = moreMembers read bound ((name, v) :: done) (quote :: rest) := by
  rw [moreMembers, key_literal]
  simp only [bind, Except.bind, content]
  rfl

theorem members_of_quote :
    members read bound (quote :: rest) = moreMembers read bound [] (quote :: rest) :=
  rfl

end Members

/-- Members are read back in the order of writing, up to the closing brace. -/
theorem moreMembers_spelling {read : Read Value} {first : String × Value}
    {others : List (String × Value)}
    (recovers : ∀ member ∈ first :: others, Recovers read member.2) {bound : Nat}
    (enough : others.length < bound) (done : List (String × Value)) (rest : Bytes) :
    moreMembers read bound done
        (literal first.1 ++ colon ::
          (spelling first.2 ++ (spellMembers true others ++ closeBrace :: rest)))
      = .ok (done.reverse ++ (first :: others).map fun member => (member.1, member.2.normal),
          rest) := by
  induction others generalizing first bound done with
  | nil =>
      rcases Nat.exists_eq_add_one_of_ne_zero (Nat.ne_zero_of_lt enough) with ⟨bound, rfl⟩
      have content := recovers first List.mem_cons_self (closeBrace :: rest) (ends_closeBrace rest)
      rw [spellMembers, List.nil_append, moreMembers_last first.1 content]
      simp
  | cons second others ih =>
      rcases Nat.exists_eq_add_one_of_ne_zero (Nat.ne_zero_of_lt enough) with ⟨bound, rfl⟩
      have left := ih (fun member mem => recovers member (List.mem_cons_of_mem _ mem))
        (Nat.lt_of_succ_lt_succ enough) ((first.1, first.2.normal) :: done)
      have content := recovers first List.mem_cons_self
        (comma :: (literal second.1 ++ colon ::
          (spelling second.2 ++ (spellMembers true others ++ closeBrace :: rest))))
        (ends_comma _)
      simp only [spellMembers, separator, if_true, List.append_assoc, List.cons_append,
        List.nil_append]
      rw [literal_append second.1] at content left ⊢
      rw [moreMembers_next first.1 content, left]
      simp

theorem members_spelling {read : Read Value} {ms : List (String × Value)}
    (recovers : ∀ member ∈ ms, Recovers read member.2) {bound : Nat}
    (enough : ms.length ≤ bound) (rest : Bytes) :
    members read bound (spellMembers false ms ++ closeBrace :: rest)
      = .ok (ms.map fun member => (member.1, member.2.normal), rest) := by
  cases ms with
  | nil => rfl
  | cons first others =>
      have all := moreMembers_spelling recovers enough [] rest
      simp only [spellMembers, separator, Bool.false_eq_true, if_false, List.nil_append,
        List.append_assoc, List.cons_append]
      rw [literal_append first.1] at all ⊢
      rw [members_of_quote, all]
      rfl

/-! ## Values -/

theorem length_le_spellItems {vs : List Value} (floatFree : ∀ item ∈ vs, item.FloatFree)
    (after : Bool) : vs.length ≤ (spellItems after vs).length := by
  induction vs generalizing after with
  | nil => simp
  | cons item rest ih =>
      rcases spelling_begins (floatFree item List.mem_cons_self) with ⟨byte, tail, shape, -⟩
      have others := ih (fun other mem => floatFree other (List.mem_cons_of_mem _ mem)) true
      simp only [spellItems, shape, List.length_append, List.length_cons]
      omega

theorem length_le_spellMembers (ms : List (String × Value)) (after : Bool) :
    ms.length ≤ (spellMembers after ms).length := by
  induction ms generalizing after with
  | nil => simp
  | cons member rest ih =>
      have others := ih true
      simp only [spellMembers, List.length_append, List.length_cons]
      omega

theorem spelling_le_spellItems {vs : List Value} {item : Value} (mem : item ∈ vs) (after : Bool) :
    (spelling item).length ≤ (spellItems after vs).length := by
  induction vs generalizing after with
  | nil => cases mem
  | cons first rest ih =>
      simp only [spellItems, List.length_append]
      rcases List.mem_cons.1 mem with rfl | mem
      · omega
      · have others := ih mem true
        omega

theorem spelling_le_spellMembers {ms : List (String × Value)} {member : String × Value}
    (mem : member ∈ ms) (after : Bool) :
    (spelling member.2).length ≤ (spellMembers after ms).length := by
  induction ms generalizing after with
  | nil => cases mem
  | cons first rest ih =>
      simp only [spellMembers, List.length_append, List.length_cons]
      rcases List.mem_cons.1 mem with rfl | mem
      · omega
      · have others := ih mem true
        omega

theorem valueWith_array {inner : Read Value} {bound : Nat} {vs : List Value}
    (floatFree : ∀ item ∈ vs, item.FloatFree) (recovers : ∀ item ∈ vs, Recovers inner item)
    (enough : vs.length ≤ bound) (rest : Bytes) :
    valueWith (some inner) bound (spelling (.array vs) ++ rest)
      = .ok ((Value.array vs).normal, rest) := by
  rw [spelling, List.cons_append, List.append_assoc, List.singleton_append]
  change (items inner bound _ >>= _) = _
  rw [items_spelling floatFree recovers enough, Value.normal_array]
  rfl

theorem valueWith_object {inner : Read Value} {bound : Nat} {ms : List (String × Value)}
    (recovers : ∀ member ∈ ms, Recovers inner member.2) (enough : ms.length ≤ bound)
    (rest : Bytes) :
    valueWith (some inner) bound (spelling (.object ms) ++ rest)
      = .ok ((Value.object ms).normal, rest) := by
  rw [spelling, List.cons_append, List.append_assoc, List.singleton_append]
  change (members inner bound _ >>= _) = _
  rw [members_spelling recovers enough, Value.normal_object]
  rfl

theorem exists_value_eq (bound room : Nat) : ∃ inner, value bound room = valueWith inner bound := by
  cases room with
  | zero => exact ⟨none, rfl⟩
  | succ room => exact ⟨some (value bound room), rfl⟩

/-- A written value is read back in normal form, if there is room for its brackets. -/
theorem value_recovers {v : Value} {bound room : Nat} (floatFree : v.FloatFree)
    (deepEnough : v.depth ≤ room) (longEnough : (spelling v).length ≤ bound) :
    Recovers (value bound room) v := by
  induction v using Value.inductionOn generalizing room with
  | null =>
      rcases exists_value_eq bound room with ⟨inner, same⟩
      intro rest _
      exact same ▸ valueWith_null inner bound rest
  | bool b =>
      rcases exists_value_eq bound room with ⟨inner, same⟩
      intro rest _
      cases b with
      | true => exact same ▸ valueWith_true inner bound rest
      | false => exact same ▸ valueWith_false inner bound rest
  | integer n =>
      rcases exists_value_eq bound room with ⟨inner, same⟩
      intro rest ends
      exact same ▸ valueWith_intText inner bound rest n ends
  | float x finite => exact floatFree.self.elim
  | string chars =>
      rcases exists_value_eq bound room with ⟨inner, same⟩
      intro rest _
      exact same ▸ valueWith_literal inner bound rest chars
  | array vs ih =>
      cases room with
      | zero => exact absurd deepEnough (Nat.not_succ_le_zero _)
      | succ room =>
          have inItems : ∀ item ∈ vs, item.FloatFree := fun item mem => floatFree.item mem
          have shallow := Value.depth_array_le_succ_iff.1 deepEnough
          have length : (spelling (.array vs)).length = (spellItems false vs).length + 2 := by
            simp [spelling]
          have recovers : ∀ item ∈ vs, Recovers (value bound room) item := by
            intro item mem
            have inside := spelling_le_spellItems mem false
            exact ih item mem (inItems item mem) (shallow item mem) (by omega)
          have counted := length_le_spellItems inItems false
          intro rest _
          exact valueWith_array inItems recovers (by omega) rest
  | object ms ih =>
      cases room with
      | zero => exact absurd deepEnough (Nat.not_succ_le_zero _)
      | succ room =>
          have shallow := Value.depth_object_le_succ_iff.1 deepEnough
          have length : (spelling (.object ms)).length = (spellMembers false ms).length + 2 := by
            simp [spelling]
          have recovers : ∀ member ∈ ms, Recovers (value bound room) member.2 := by
            intro member mem
            have inside := spelling_le_spellMembers mem false
            exact ih member mem (floatFree.member mem) (shallow member mem) (by omega)
          have counted := length_le_spellMembers ms false
          intro rest _
          exact valueWith_object recovers (by omega) rest

theorem whole_of_read {α : Type} {read : (bound : Nat) → Read α} {s : Bytes} {a : α}
    (reads : read s.length (s ++ []) = .ok (a, [])) : whole read s = .ok a := by
  rw [List.append_nil] at reads
  rw [whole, reads]
  rfl

/-- Reading a written value gives its normal form. -/
theorem readValue_spelling {v : Value} (floatFree : v.FloatFree) (shallow : v.depth ≤ deepest) :
    readValue (spelling v) = .ok v.normal :=
  whole_of_read (value_recovers floatFree shallow (Nat.le_refl _) [] trivial)

end RemoteCall.Json
