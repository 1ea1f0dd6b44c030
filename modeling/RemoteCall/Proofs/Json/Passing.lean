import RemoteCall.Proofs.Json.Reader

/-!
# Values that are passed over

Passing over a value checks less than reading it.  Whatever is read as a value is
therefore passed over too, and with the same rest: a reader that does not want a
value goes on where one that wants it would.

The machine that passes over values spends at most three units of its bound for
each octet, so that a bound of three times the length of the text never ends it.
-/

namespace RemoteCall.Json

open Ascii

/-! ## Blanks -/

theorem length_blanks_le (s : Bytes) : (blanks s).length ≤ s.length :=
  (List.dropWhile_sublist _).length_le

theorem blanks_blanks (s : Bytes) : blanks (blanks s) = blanks s := by
  induction s with
  | nil => rfl
  | cons byte rest ih =>
      by_cases blank : isBlank byte = true
      · simpa [blanks, blank] using ih
      · simp [blanks, blank]

theorem length_lt_of_blanks {byte : UInt8} {s rest : Bytes} (shape : blanks s = byte :: rest) :
    rest.length < s.length := by
  have bound := length_blanks_le s
  rw [shape] at bound
  exact bound

/-! ## Strings -/

theorem hexNumber?_isSome_iff (digits : Bytes) :
    (hexNumber? digits).isSome = true ↔ ∀ digit ∈ digits, (hexValue? digit).isSome = true := by
  have general (n : Nat) :
      (digits.foldlM (fun n digit => (hexValue? digit).map (16 * n + ·)) n).isSome = true
        ↔ ∀ digit ∈ digits, (hexValue? digit).isSome = true := by
    induction digits generalizing n with
    | nil => simp
    | cons digit digits ih =>
        cases value : hexValue? digit with
        | none => simp [value]
        | some m => simp [value, ih]
  exact general 0

theorem hexNumber?_reverse_isSome (digits : Bytes) :
    (hexNumber? digits.reverse).isSome = (hexNumber? digits).isSome := by
  rw [Bool.eq_iff_iff, hexNumber?_isSome_iff, hexNumber?_isSome_iff]
  simp only [List.mem_reverse]

/-- What the reader that passes over a string is in the middle of, where another reads it. -/
def Inside.passing : Inside → Passing
  | .plain | .pairBackslash _ => .plain
  | .escape | .pairLetter _ => .escape
  | .digits _ seen => .digits seen

/-- A string that is read is passed over. -/
theorem passString_of_content {inside : Inside} {taken s octets rest : Bytes}
    (read : content inside taken s = .ok (octets, rest)) :
    passString inside.passing s = .ok rest := by
  induction s generalizing inside taken with
  | nil => cases inside <;> simp [content] at read
  | cons byte s ih =>
      cases inside with
      | plain =>
          rw [content] at read
          rw [Inside.passing, passString]
          split at read
          next isQuote => simp [isQuote, (Prod.mk.inj (Except.ok.inj read)).2]
          next notQuote =>
          split at read
          next isBackslash =>
              rw [if_neg notQuote, if_pos isBackslash]
              exact ih read
          next notBackslash =>
          split at read
          next => cases read
          next printable =>
              rw [if_neg notQuote, if_neg notBackslash, if_neg printable]
              exact ih read
      | escape =>
          rw [content] at read
          rw [Inside.passing, passString]
          split at read
          next isCode =>
              rw [if_pos isCode]
              exact ih read
          next notCode =>
          split at read
          next known =>
              rw [if_neg notCode, known]
              exact ih read
          next => cases read
      | digits leading seen =>
          rw [Inside.passing, passString]
          by_cases few : seen.length < 3
          · simp only [content, if_pos few] at read
            rw [if_pos few]
            exact ih read
          cases number : hexNumber? (byte :: seen).reverse with
          | none =>
              simp only [content, if_neg few, number] at read
              cases read
          | some unit =>
              rw [if_neg few, ← hexNumber?_reverse_isSome, number]
              cases leading with
              | none =>
                  simp only [content, if_neg few, number] at read
                  split at read
                  · cases read
                  split at read
                  · exact ih read
                  · exact ih read
              | some first =>
                  simp only [content, if_neg few, number] at read
                  split at read
                  · exact ih read
                  · cases read
      | pairBackslash first =>
          rw [content] at read
          rw [Inside.passing, passString]
          split at read
          next isBackslash =>
              subst isBackslash
              exact ih read
          next => cases read
      | pairLetter first =>
          rw [content] at read
          rw [Inside.passing, passString]
          split at read
          next isCode =>
              rw [if_pos isCode]
              exact ih read
          next => cases read

theorem passString_of_text {s rest : Bytes} {chars : String} (read : text s = .ok (chars, rest)) :
    passString .plain s = .ok rest := by
  unfold text at read
  cases inner : content .plain [] s with
  | error => simp [inner, bind, Except.bind] at read
  | ok pair =>
      rcases pair with ⟨octets, left⟩
      simp only [inner, bind, Except.bind] at read
      split at read
      next =>
          obtain ⟨-, rfl⟩ := Prod.mk.inj (Except.ok.inj read)
          exact passString_of_content inner
      next => cases read

theorem length_lt_of_passString {passing : Passing} {s rest : Bytes}
    (passed : passString passing s = .ok rest) : rest.length < s.length := by
  induction s generalizing passing with
  | nil => cases passing <;> cases passed
  | cons byte s ih =>
      cases passing with
      | plain =>
          rw [passString] at passed
          split at passed
          next => simp [Except.ok.inj passed]
          split at passed
          next => exact Nat.lt_succ_of_lt (ih passed)
          split at passed
          next => cases passed
          next => exact Nat.lt_succ_of_lt (ih passed)
      | escape =>
          rw [passString] at passed
          split at passed
          next => exact Nat.lt_succ_of_lt (ih passed)
          split at passed
          next => exact Nat.lt_succ_of_lt (ih passed)
          next => cases passed
      | digits seen =>
          rw [passString] at passed
          split at passed
          next => exact Nat.lt_succ_of_lt (ih passed)
          split at passed
          next => exact Nat.lt_succ_of_lt (ih passed)
          next => cases passed

/-! ## Brackets -/

open passFrom (closeBrackets passMember)

/-- Whether the machine, started on a value that is read as far as `rest`, gets behind it:
it then closes the brackets around the value, with less of its bound, but still enough. -/
def GetsBehind (s rest : Bytes) : Prop :=
  ∀ bound outer, 3 * s.length ≤ bound →
    ∃ left < bound, 3 * rest.length + 2 ≤ left ∧
      passFrom bound outer s = closeBrackets left outer true rest

/-- Whether the machine passes over all that a reader reads. -/
def PassedOver {α : Type} (read : Read α) : Prop :=
  ∀ s v rest, read s = .ok (v, rest) → GetsBehind s rest

theorem passFrom_blanks {bound : Nat} (some : 0 < bound) (outer : List Bracket) (s : Bytes) :
    passFrom bound outer (blanks s) = passFrom bound outer s := by
  obtain ⟨bound, rfl⟩ := Nat.exists_eq_add_one_of_ne_zero (Nat.ne_of_gt some)
  simp only [passFrom, blanks_blanks]

theorem moreItems_passedOver {item : Read Value} (itemPassed : PassedOver item) {steps : Nat}
    {done vs : List Value} {s rest : Bytes} (read : moreItems item steps done s = .ok (vs, rest))
    {bound : Nat} (enough : 3 * s.length ≤ bound) (outer : List Bracket) :
    ∃ left < bound, 3 * rest.length + 2 ≤ left ∧
      passFrom bound (.list :: outer) s = closeBrackets left outer true rest := by
  induction steps generalizing done s bound with
  | zero => cases read
  | succ steps ih =>
      simp only [moreItems, bind, Except.bind] at read
      split at read
      next => cases read
      next first firstRead =>
      rcases first with ⟨v, after⟩
      obtain ⟨left, leftLess, leftEnough, passed⟩ :=
        itemPassed s v after firstRead bound (.list :: outer) enough
      obtain ⟨left, rfl⟩ : ∃ less, left = less + 1 := ⟨left - 1, by omega⟩
      rw [passed]
      simp only at read
      split at read
      next => cases read
      next closing shape =>
          obtain ⟨-, rfl⟩ := Prod.mk.inj (Except.ok.inj read)
          have shorter := length_lt_of_blanks shape
          refine ⟨left, by omega, by omega, ?_⟩
          simp only [closeBrackets, shape]
      next following shape =>
          have shorter := length_lt_of_blanks shape
          have blanksShorter := length_blanks_le following
          have goesOn : closeBrackets (left + 1) (.list :: outer) true after
              = passFrom left (.list :: outer) (blanks following) := by
            rw [passFrom_blanks (by omega)]
            simp only [closeBrackets, shape, if_true]
          rw [goesOn]
          split at read
          next => cases read
          next => cases read
          next =>
              obtain ⟨last, lastLess, lastEnough, lastPassed⟩ := ih read (by omega : _ ≤ left)
              exact ⟨last, by omega, lastEnough, lastPassed⟩
      next => cases read

theorem items_passedOver {item : Read Value} (itemPassed : PassedOver item) {steps : Nat}
    {vs : List Value} {s rest : Bytes} (read : items item steps s = .ok (vs, rest))
    {bound : Nat} (enough : 3 * s.length + 2 ≤ bound) (outer : List Bracket) :
    ∃ left < bound, 3 * rest.length + 2 ≤ left ∧
      closeBrackets bound (.list :: outer) false s = closeBrackets left outer true rest := by
  obtain ⟨bound, rfl⟩ : ∃ less, bound = less + 1 := ⟨bound - 1, by omega⟩
  unfold items at read
  split at read
  next => cases read
  next closing shape =>
      obtain ⟨-, rfl⟩ := Prod.mk.inj (Except.ok.inj read)
      have shorter := length_lt_of_blanks shape
      refine ⟨bound, by omega, by omega, ?_⟩
      simp only [closeBrackets, shape]
  next notEmpty notClosing =>
      have shorter := length_blanks_le s
      obtain ⟨left, leftLess, leftEnough, passed⟩ :=
        moreItems_passedOver itemPassed read (by omega : _ ≤ bound) outer
      refine ⟨left, by omega, leftEnough, ?_⟩
      rw [← passed]
      unfold closeBrackets
      split
      next shape => exact absurd shape notEmpty
      next shape => exact absurd shape (notClosing _)
      next shape =>
          rw [if_neg (by decide), shape]
          rfl
      next => rw [if_neg (by decide)]

theorem length_lt_of_afterColon {s rest : Bytes} (read : afterColon s = .ok rest) :
    rest.length < s.length := by
  unfold afterColon at read
  split at read
  next => cases read
  next shape =>
      split at read
      · obtain rfl := Except.ok.inj read
        exact length_lt_of_blanks shape
      · cases read

theorem exists_of_key {s content : Bytes} {name : String} (read : key s = .ok (name, content)) :
    ∃ rest middle, s = quote :: rest ∧ text rest = .ok (name, middle) ∧
      afterColon middle = .ok content := by
  unfold key at read
  split at read
  next rest =>
      simp only [bind, Except.bind] at read
      split at read
      next => cases read
      next found textRead =>
      rcases found with ⟨chars, middle⟩
      simp only at read
      split at read
      next => cases read
      next colonRead =>
          obtain ⟨rfl, rfl⟩ := Prod.mk.inj (Except.ok.inj read)
          exact ⟨rest, middle, rfl, textRead, colonRead⟩
  next => cases read

theorem length_lt_of_key {s content : Bytes} {name : String} (read : key s = .ok (name, content)) :
    content.length < s.length := by
  obtain ⟨rest, middle, rfl, textRead, colonRead⟩ := exists_of_key read
  have textShorter := length_lt_of_passString (passString_of_text textRead)
  have colonShorter := length_lt_of_afterColon colonRead
  rw [List.length_cons]
  omega

/-- A key that is read is passed over, with its colon. -/
theorem passMember_of_key {s content : Bytes} {name : String}
    (read : key s = .ok (name, content)) (bound : Nat) (outer : List Bracket) :
    passMember (bound + 1) outer s = passFrom bound (.object :: outer) content := by
  obtain ⟨rest, middle, rfl, textRead, colonRead⟩ := exists_of_key read
  have opened : passMember (bound + 1) outer (quote :: rest)
      = (do passFrom bound (.object :: outer) (← afterColon (← passString .plain rest))) := rfl
  rw [opened, passString_of_text textRead]
  simp only [bind, Except.bind, colonRead]

theorem moreMembers_passedOver {item : Read Value} (itemPassed : PassedOver item) {steps : Nat}
    {done ms : List (String × Value)} {s rest : Bytes}
    (read : moreMembers item steps done s = .ok (ms, rest)) {bound : Nat}
    (enough : 3 * s.length ≤ bound) (outer : List Bracket) :
    ∃ left < bound, 3 * rest.length + 2 ≤ left ∧
      passMember bound outer s = closeBrackets left outer true rest := by
  induction steps generalizing done s bound with
  | zero => cases read
  | succ steps ih =>
      simp only [moreMembers, bind, Except.bind] at read
      split at read
      next => cases read
      next named keyRead =>
      rcases named with ⟨name, content⟩
      simp only at read
      split at read
      next => cases read
      next first firstRead =>
      rcases first with ⟨v, after⟩
      have keyShorter := length_lt_of_key keyRead
      obtain ⟨bound, rfl⟩ : ∃ less, bound = less + 1 := ⟨bound - 1, by omega⟩
      obtain ⟨left, leftLess, leftEnough, passed⟩ :=
        itemPassed content v after firstRead bound (.object :: outer) (by omega)
      obtain ⟨left, rfl⟩ : ∃ less, left = less + 1 := ⟨left - 1, by omega⟩
      rw [passMember_of_key keyRead, passed]
      simp only at read
      split at read
      next => cases read
      next closing shape =>
          obtain ⟨-, rfl⟩ := Prod.mk.inj (Except.ok.inj read)
          have shorter := length_lt_of_blanks shape
          refine ⟨left, by omega, by omega, ?_⟩
          simp only [closeBrackets, shape]
      next following shape =>
          have shorter := length_lt_of_blanks shape
          have blanksShorter := length_blanks_le following
          have goesOn : closeBrackets (left + 1) (.object :: outer) true after
              = passMember left outer (blanks following) := by
            simp only [closeBrackets, shape, if_true]
          rw [goesOn]
          split at read
          next => cases read
          next => cases read
          next =>
              obtain ⟨last, lastLess, lastEnough, lastPassed⟩ := ih read (by omega : _ ≤ left)
              exact ⟨last, by omega, lastEnough, lastPassed⟩
      next => cases read

theorem members_passedOver {item : Read Value} (itemPassed : PassedOver item) {steps : Nat}
    {ms : List (String × Value)} {s rest : Bytes}
    (read : members item steps s = .ok (ms, rest)) {bound : Nat}
    (enough : 3 * s.length + 2 ≤ bound) (outer : List Bracket) :
    ∃ left < bound, 3 * rest.length + 2 ≤ left ∧
      closeBrackets bound (.object :: outer) false s = closeBrackets left outer true rest := by
  obtain ⟨bound, rfl⟩ : ∃ less, bound = less + 1 := ⟨bound - 1, by omega⟩
  unfold members at read
  split at read
  next => cases read
  next closing shape =>
      obtain ⟨-, rfl⟩ := Prod.mk.inj (Except.ok.inj read)
      have shorter := length_lt_of_blanks shape
      refine ⟨bound, by omega, by omega, ?_⟩
      simp only [closeBrackets, shape]
  next notEmpty notClosing =>
      have shorter := length_blanks_le s
      obtain ⟨left, leftLess, leftEnough, passed⟩ :=
        moreMembers_passedOver itemPassed read (by omega : _ ≤ bound) outer
      refine ⟨left, by omega, leftEnough, ?_⟩
      rw [← passed]
      unfold closeBrackets
      split
      next shape => exact absurd shape notEmpty
      next shape => exact absurd shape (notClosing _)
      next shape =>
          rw [if_neg (by decide), shape]
          rfl
      next => rw [if_neg (by decide)]

/-! ## Values -/

theorem eq_append_of_word {letters s rest : Bytes} (read : word letters s = .ok rest) :
    s = letters ++ rest := by
  induction letters generalizing s with
  | nil => exact Except.ok.inj read
  | cons letter letters ih =>
      cases s with
      | nil => cases read
      | cons byte s =>
          rw [word] at read
          split at read
          next same => rw [same, ih read, List.cons_append]
          next => cases read

/-- What a value is read from, by its first octet and what follows that. -/
inductive ReadAs (inner : Option (Read Value)) (steps : Nat) :
    UInt8 → Bytes → Value → Bytes → Prop where
  | string {s rest : Bytes} {chars : String} :
      text s = .ok (chars, rest) → ReadAs inner steps quote s (.string chars) rest
  | object {s rest : Bytes} {item : Read Value} {ms : List (String × Value)} :
      inner = some item → members item steps s = .ok (ms, rest) →
        ReadAs inner steps openBrace s (.ofMembers ms) rest
  | array {s rest : Bytes} {item : Read Value} {vs : List Value} :
      inner = some item → items item steps s = .ok (vs, rest) →
        ReadAs inner steps openBracket s (.array vs) rest
  | null {s rest : Bytes} : word restOfNull s = .ok rest → ReadAs inner steps lowerN s .null rest
  | true {s rest : Bytes} :
      word restOfTrue s = .ok rest → ReadAs inner steps lowerT s (.bool true) rest
  | false {s rest : Bytes} :
      word restOfFalse s = .ok rest → ReadAs inner steps lowerF s (.bool false) rest
  | number {byte : UInt8} {s rest : Bytes} {v : Value} :
      Numeric byte → number (byte :: s) = .ok (v, rest) → ReadAs inner steps byte s v rest

theorem readAs_of_valueWith {inner : Option (Read Value)} {steps : Nat} {s rest : Bytes}
    {v : Value} (read : valueWith inner steps s = .ok (v, rest)) :
    ∃ byte after, blanks s = byte :: after ∧ ReadAs inner steps byte after v rest := by
  unfold valueWith at read
  split at read
  next => cases read
  next byte after shape =>
  refine ⟨byte, after, shape, ?_⟩
  simp only [bind, Except.bind] at read
  split at read
  next isQuote =>
      subst isQuote
      split at read
      next => cases read
      next textRead =>
          obtain ⟨rfl, rfl⟩ := Prod.mk.inj (Except.ok.inj read)
          exact .string textRead
  split at read
  next isBrace =>
      subst isBrace
      split at read
      next => cases read
      split at read
      next => cases read
      next membersRead =>
          obtain ⟨rfl, rfl⟩ := Prod.mk.inj (Except.ok.inj read)
          exact .object rfl membersRead
  split at read
  next isBracket =>
      subst isBracket
      split at read
      next => cases read
      split at read
      next => cases read
      next itemsRead =>
          obtain ⟨rfl, rfl⟩ := Prod.mk.inj (Except.ok.inj read)
          exact .array rfl itemsRead
  split at read
  next isNull =>
      subst isNull
      split at read
      next => cases read
      next wordRead =>
          obtain ⟨rfl, rfl⟩ := Prod.mk.inj (Except.ok.inj read)
          exact .null wordRead
  split at read
  next isTrue =>
      subst isTrue
      split at read
      next => cases read
      next wordRead =>
          obtain ⟨rfl, rfl⟩ := Prod.mk.inj (Except.ok.inj read)
          exact .true wordRead
  split at read
  next isFalse =>
      subst isFalse
      split at read
      next => cases read
      next wordRead =>
          obtain ⟨rfl, rfl⟩ := Prod.mk.inj (Except.ok.inj read)
          exact .false wordRead
  split at read
  next numeric => exact .number numeric read
  next => cases read

theorem passFrom_of_numeric {byte : UInt8} (numeric : Numeric byte) {s after : Bytes}
    (shape : blanks s = byte :: after) (bound : Nat) (outer : List Bracket) :
    passFrom (bound + 1) outer s
      = (do closeBrackets bound outer true (← passNumber (byte :: after))) := by
  have notQuote : byte ≠ quote := numeric.ne (by decide)
  have notBrace : byte ≠ openBrace := numeric.ne (by decide)
  have notBracket : byte ≠ openBracket := numeric.ne (by decide)
  have notNull : byte ≠ lowerN := numeric.ne (by decide)
  have notTrue : byte ≠ lowerT := numeric.ne (by decide)
  have notFalse : byte ≠ lowerF := numeric.ne (by decide)
  simp only [passFrom, shape, if_neg notQuote, if_neg notBrace, if_neg notBracket,
    if_neg notNull, if_neg notTrue, if_neg notFalse]
  exact if_pos numeric

theorem GetsBehind.of_token {s after rest : Bytes} {byte : UInt8} (shape : blanks s = byte :: after)
    (shorter : rest.length ≤ after.length)
    (passed : ∀ bound outer, passFrom (bound + 1) outer s = closeBrackets bound outer true rest) :
    GetsBehind s rest := by
  intro bound outer enough
  have some := length_lt_of_blanks shape
  obtain ⟨bound, rfl⟩ : ∃ less, bound = less + 1 := ⟨bound - 1, by omega⟩
  exact ⟨bound, by omega, by omega, passed bound outer⟩

theorem GetsBehind.of_word {s after rest letters : Bytes} {byte : UInt8}
    (shape : blanks s = byte :: after) (read : word letters after = .ok rest)
    (passed : ∀ bound outer, passFrom (bound + 1) outer s
      = (do closeBrackets bound outer true (← word letters after))) :
    GetsBehind s rest := by
  apply GetsBehind.of_token shape
  · rw [eq_append_of_word read, List.length_append]
    omega
  · intro bound outer
    rw [passed, read]
    rfl

theorem GetsBehind.of_bracket (bracket : Bracket) {s after rest : Bytes} {byte : UInt8}
    (shape : blanks s = byte :: after)
    (opened : ∀ bound outer,
      passFrom (bound + 1) outer s = closeBrackets bound (bracket :: outer) false after)
    (passed : ∀ bound outer, 3 * after.length + 2 ≤ bound →
      ∃ left < bound, 3 * rest.length + 2 ≤ left ∧
        closeBrackets bound (bracket :: outer) false after = closeBrackets left outer true rest) :
    GetsBehind s rest := by
  intro bound outer enough
  have some := length_lt_of_blanks shape
  obtain ⟨bound, rfl⟩ : ∃ less, bound = less + 1 := ⟨bound - 1, by omega⟩
  obtain ⟨left, leftLess, leftEnough, closes⟩ := passed bound outer (by omega)
  exact ⟨left, by omega, leftEnough, (opened bound outer).trans closes⟩

/-- A value is passed over if the values inside it are. -/
theorem valueWith_passedOver {inner : Option (Read Value)} {steps : Nat}
    (innerPassed : ∀ read, inner = some read → PassedOver read) :
    PassedOver (valueWith inner steps) := by
  intro s v rest read
  obtain ⟨byte, after, shape, readAs⟩ := readAs_of_valueWith read
  cases readAs with
  | string textRead =>
      have passed := passString_of_text textRead
      refine .of_token shape (Nat.le_of_lt (length_lt_of_passString passed)) fun bound outer => ?_
      unfold passFrom
      rw [shape]
      change (do closeBrackets bound outer true (← passString .plain after)) = _
      rw [passed]
      rfl
  | object found membersRead =>
      apply GetsBehind.of_bracket .object shape
      · intro bound outer
        unfold passFrom
        rw [shape]
        rfl
      · intro bound outer enough
        exact members_passedOver (innerPassed _ found) membersRead enough outer
  | array found itemsRead =>
      apply GetsBehind.of_bracket .list shape
      · intro bound outer
        unfold passFrom
        rw [shape]
        rfl
      · intro bound outer enough
        exact items_passedOver (innerPassed _ found) itemsRead enough outer
  | null wordRead =>
      refine .of_word shape wordRead fun bound outer => ?_
      unfold passFrom
      rw [shape]
      rfl
  | true wordRead =>
      refine .of_word shape wordRead fun bound outer => ?_
      unfold passFrom
      rw [shape]
      rfl
  | false wordRead =>
      refine .of_word shape wordRead fun bound outer => ?_
      unfold passFrom
      rw [shape]
      rfl
  | number numeric numberRead =>
      have passed := passNumber_of_number numberRead
      have shorter := (leaves_of_passNumber passed).1
      refine .of_token shape (Nat.lt_succ_iff.1 shorter) fun bound outer => ?_
      rw [passFrom_of_numeric numeric shape, passed]
      rfl

theorem value_passedOver (steps room : Nat) : PassedOver (value steps room) := by
  induction room with
  | zero =>
      apply valueWith_passedOver
      rintro read ⟨⟩
  | succ room ih =>
      apply valueWith_passedOver
      rintro read ⟨⟩
      exact ih

theorem length_lt_of_value {steps room : Nat} {s rest : Bytes} {v : Value}
    (read : value steps room s = .ok (v, rest)) : rest.length < s.length := by
  obtain ⟨left, leftLess, leftEnough, -⟩ := value_passedOver steps room s v rest read
    (3 * s.length) [] (Nat.le_refl _)
  omega

/-- What is read as a value is passed over, and the same is left. -/
theorem pass_of_value {steps room bound : Nat} {s rest : Bytes} {v : Value}
    (read : value steps room s = .ok (v, rest)) (enough : s.length ≤ bound) :
    pass bound s = .ok rest := by
  obtain ⟨left, -, -, passed⟩ := value_passedOver steps room s v rest read (3 * bound + 3) []
    (by omega)
  rw [pass, passed]
  cases left <;> rfl

end RemoteCall.Json
