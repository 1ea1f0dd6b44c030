import RemoteCall.Json.Record
import RemoteCall.Proofs.Json.Passing

/-!
# The nesting of brackets

A scanner that knows nothing of JSON but its quotes and brackets finds where a
bracket closes.  Whatever is read or passed over as a value leaves the scanner at
the depth at which it was, so that an envelope ends with the very bracket that
closes its first one, whichever of the readers looks for it.
-/

namespace RemoteCall.Json

open Ascii

/-! ## Scanning -/

/-- Where a scanner stands with regard to strings. -/
inductive Quoting where
  | outside
  | inside
  /-- Inside, behind a backslash. -/
  | escaped

/-- What a scanner knows of the text so far. -/
structure Scan where
  /-- How many brackets are open. -/
  depth : Nat
  quoting : Quoting := .outside

/-- The octets that open a bracket. -/
def openers : Bytes := [openBracket, openBrace]

/-- The octets that close a bracket. -/
def closers : Bytes := [closeBracket, closeBrace]

/-- Whether an octet outside of strings means nothing to the scanner. -/
def Plain (byte : UInt8) : Prop :=
  byte ≠ quote ∧ byte ∉ openers ∧ byte ∉ closers

instance (byte : UInt8) : Decidable (Plain byte) :=
  inferInstanceAs (Decidable (_ ∧ _ ∧ _))

namespace Scan

/-- What an octet does; no bracket is closed where none is open. -/
def feed? : Scan → UInt8 → Option Scan
  | ⟨depth, .outside⟩, byte =>
    if byte = quote then some ⟨depth, .inside⟩
    else if byte ∈ openers then some ⟨depth + 1, .outside⟩
    else if byte ∈ closers then
      match depth with
      | 0 => none
      | depth + 1 => some ⟨depth, .outside⟩
    else some ⟨depth, .outside⟩
  | ⟨depth, .inside⟩, byte =>
    if byte = quote then some ⟨depth, .outside⟩
    else if byte = backslash then some ⟨depth, .escaped⟩
    else some ⟨depth, .inside⟩
  | ⟨depth, .escaped⟩, _ => some ⟨depth, .inside⟩

/-- What octets do, one after another. -/
def feedAll? (scan : Scan) (octets : Bytes) : Option Scan :=
  octets.foldlM feed? scan

theorem feedAll?_append (scan : Scan) (front back : Bytes) :
    scan.feedAll? (front ++ back) =
      (scan.feedAll? front).bind fun later => later.feedAll? back := by
  simp only [feedAll?, List.foldlM_append]
  rfl

theorem feed?_plain {byte : UInt8} (plain : Plain byte) (depth : Nat) :
    feed? ⟨depth, .outside⟩ byte = some ⟨depth, .outside⟩ := by
  simp [feed?, plain.1, plain.2.1, plain.2.2]

theorem feed?_opener {byte : UInt8} (opens : byte ∈ openers) (depth : Nat) :
    feed? ⟨depth, .outside⟩ byte = some ⟨depth + 1, .outside⟩ := by
  have notQuote : byte ≠ quote := by
    rintro rfl
    exact absurd opens (by decide)
  simp [feed?, notQuote, opens]

theorem feed?_closer {byte : UInt8} (closes : byte ∈ closers) (depth : Nat) :
    feed? ⟨depth + 1, .outside⟩ byte = some ⟨depth, .outside⟩ ∧
      feed? ⟨0, .outside⟩ byte = none := by
  have notQuote : byte ≠ quote := by
    rintro rfl
    exact absurd closes (by decide)
  have notOpener : byte ∉ openers := by
    intro opens
    simp only [closers, openers, List.mem_cons, List.not_mem_nil, or_false] at closes opens
    rcases closes with rfl | rfl <;> exact absurd opens (by decide)
  simp [feed?, notQuote, notOpener, closes]

/-- More open brackets around change nothing. -/
theorem feed?_deeper {scan later : Scan} {byte : UInt8} (fed : scan.feed? byte = some later)
    (more : Nat) :
    feed? ⟨scan.depth + more, scan.quoting⟩ byte = some ⟨later.depth + more, later.quoting⟩ := by
  rcases scan with ⟨depth, _ | _ | _⟩
  · simp only [feed?] at fed ⊢
    split at fed
    next isQuote =>
        obtain rfl := Option.some.inj fed
        rw [if_pos isQuote]
    next notQuote =>
    split at fed
    next opens =>
        obtain rfl := Option.some.inj fed
        rw [if_neg notQuote, if_pos opens, Nat.add_right_comm]
    next notOpener =>
    split at fed
    next closes =>
        split at fed
        next => cases fed
        next depth =>
            obtain rfl := Option.some.inj fed
            rw [if_neg notQuote, if_neg notOpener, if_pos closes, Nat.succ_add]
    next notCloser =>
        obtain rfl := Option.some.inj fed
        rw [if_neg notQuote, if_neg notOpener, if_neg notCloser]
  · simp only [feed?] at fed ⊢
    split at fed
    next isQuote =>
        obtain rfl := Option.some.inj fed
        rw [if_pos isQuote]
    next notQuote =>
    split at fed
    next isBackslash =>
        obtain rfl := Option.some.inj fed
        rw [if_neg notQuote, if_pos isBackslash]
    next notBackslash =>
        obtain rfl := Option.some.inj fed
        rw [if_neg notQuote, if_neg notBackslash]
  · obtain rfl := Option.some.inj fed
    rfl

theorem feedAll?_deeper {scan later : Scan} {octets : Bytes}
    (fed : scan.feedAll? octets = some later) (more : Nat) :
    feedAll? ⟨scan.depth + more, scan.quoting⟩ octets
      = some ⟨later.depth + more, later.quoting⟩ := by
  induction octets generalizing scan with
  | nil =>
      obtain rfl := Option.some.inj fed
      rfl
  | cons byte octets ih =>
      simp only [feedAll?, List.foldlM_cons, Option.bind_eq_bind, Option.bind_eq_some_iff] at fed ⊢
      obtain ⟨middle, first, others⟩ := fed
      exact ⟨_, feed?_deeper first more, ih others⟩

theorem exists_front_cons {scan middle later : Scan} {byte : UInt8} {s rest : Bytes}
    (fed : scan.feed? byte = some middle)
    (others : ∃ front, s = front ++ rest ∧ middle.feedAll? front = some later) :
    ∃ front, byte :: s = front ++ rest ∧ scan.feedAll? front = some later := by
  obtain ⟨front, rfl, frontFed⟩ := others
  refine ⟨byte :: front, rfl, ?_⟩
  rw [feedAll?, List.foldlM_cons, fed]
  exact frontFed

end Scan

/-! ## Moving -/

/-- Whether the scanner moves from one depth to another between `s` and what is left of it. -/
def Moves (before after : Nat) (s rest : Bytes) : Prop :=
  ∃ front, s = front ++ rest ∧ Scan.feedAll? ⟨before, .outside⟩ front = some ⟨after, .outside⟩

namespace Moves

variable {before middle after depth : Nat} {s left rest : Bytes} {byte : UInt8}

theorem refl (depth : Nat) (s : Bytes) : Moves depth depth s s :=
  ⟨[], rfl, rfl⟩

theorem trans (first : Moves before middle s left) (second : Moves middle after left rest) :
    Moves before after s rest := by
  obtain ⟨front, rfl, frontFed⟩ := first
  obtain ⟨back, rfl, backFed⟩ := second
  refine ⟨front ++ back, (List.append_assoc ..).symm, ?_⟩
  rw [Scan.feedAll?_append, frontFed]
  exact backFed

theorem of_feed? (fed : Scan.feed? ⟨before, .outside⟩ byte = some ⟨after, .outside⟩) (s : Bytes) :
    Moves before after (byte :: s) s := by
  refine ⟨[byte], rfl, ?_⟩
  simp only [Scan.feedAll?, List.foldlM_cons, List.foldlM_nil, fed]
  rfl

theorem plain (isPlain : Plain byte) (depth : Nat) (s : Bytes) :
    Moves depth depth (byte :: s) s :=
  .of_feed? (Scan.feed?_plain isPlain depth) s

theorem opener (opens : byte ∈ openers) (depth : Nat) (s : Bytes) :
    Moves depth (depth + 1) (byte :: s) s :=
  .of_feed? (Scan.feed?_opener opens depth) s

theorem closer (closes : byte ∈ closers) (depth : Nat) (s : Bytes) :
    Moves (depth + 1) depth (byte :: s) s :=
  .of_feed? (Scan.feed?_closer closes depth).1 s

theorem allPlain {front : Bytes} (arePlain : ∀ byte ∈ front, Plain byte) (depth : Nat)
    (rest : Bytes) : Moves depth depth (front ++ rest) rest := by
  induction front with
  | nil => exact refl depth rest
  | cons byte front ih =>
      have ⟨isPlain, othersPlain⟩ := List.forall_mem_cons.1 arePlain
      exact trans (plain isPlain depth (front ++ rest)) (ih othersPlain)

/-- More open brackets around change nothing. -/
theorem deeper (moves : Moves before after s rest) (more : Nat) :
    Moves (before + more) (after + more) s rest := by
  obtain ⟨front, shape, fed⟩ := moves
  exact ⟨front, shape, Scan.feedAll?_deeper fed more⟩

theorem anywhere (moves : Moves 0 0 s rest) (depth : Nat) : Moves depth depth s rest := by
  have lifted := moves.deeper depth
  rwa [Nat.zero_add] at lifted

/-- More octets behind change nothing. -/
theorem append (moves : Moves before after s rest) (more : Bytes) :
    Moves before after (s ++ more) (rest ++ more) := by
  obtain ⟨front, rfl, fed⟩ := moves
  exact ⟨front, List.append_assoc .., fed⟩

/-- The bracket around a text closes in one place only. -/
theorem closer_unique {one other : UInt8} (oneCloses : one ∈ closers)
    (otherCloses : other ∈ closers) (toOne : Moves 0 0 s (one :: rest))
    (toOther : Moves 0 0 s (other :: left)) : rest = left := by
  -- A closing bracket inside of a front would end the scan of that front.
  have noCloser {front back : Bytes} {byte : UInt8} (closes : byte ∈ closers)
      (frontFed : Scan.feedAll? ⟨0, .outside⟩ front = some ⟨0, .outside⟩)
      (fed : Scan.feedAll? ⟨0, .outside⟩ (front ++ byte :: back) = some ⟨0, .outside⟩) : False := by
    rw [Scan.feedAll?_append, frontFed] at fed
    simp [Scan.feedAll?, (Scan.feed?_closer closes 0).2] at fed
  obtain ⟨front, rfl, frontFed⟩ := toOne
  obtain ⟨back, same, backFed⟩ := toOther
  rcases List.append_eq_append_iff.1 same with ⟨more, rfl, shape⟩ | ⟨more, rfl, shape⟩
  · cases more with
    | nil => exact (List.cons.inj shape).2
    | cons byte more =>
        obtain ⟨rfl, -⟩ := List.cons.inj shape
        exact (noCloser oneCloses frontFed backFed).elim
  · cases more with
    | nil => exact (List.cons.inj shape).2.symm
    | cons byte more =>
        obtain ⟨rfl, -⟩ := List.cons.inj shape
        exact (noCloser otherCloses backFed frontFed).elim

end Moves

/-! ## Tokens -/

theorem plain_of_all {octets : Bytes}
    (all : octets.all (fun byte => decide (Plain byte)) = true) : ∀ byte ∈ octets, Plain byte :=
  fun byte mem => of_decide_eq_true (List.all_eq_true.1 all byte mem)

theorem plain_of_isBlank {byte : UInt8} (blank : isBlank byte = true) : Plain byte := by
  simp only [isBlank, Bool.or_eq_true, beq_iff_eq] at blank
  rcases blank with ((rfl | rfl) | rfl) | rfl <;> decide

theorem plain_of_holds {byte : UInt8} (holds : Numeral.Holds byte) : Plain byte := by
  have avoids {other : UInt8} (notHeld : ¬ Numeral.Holds other) : byte ≠ other := by
    rintro rfl
    exact notHeld holds
  have notHeld : ∀ other ∈ quote :: (openers ++ closers), ¬ Numeral.Holds other := by
    simp only [openers, closers, List.cons_append, List.nil_append, List.forall_mem_cons,
      Numeral.Holds]
    exact ⟨by decide, by decide, by decide, by decide, by decide, by simp⟩
  refine ⟨avoids (notHeld quote List.mem_cons_self), ?_, ?_⟩
  · intro opens
    exact notHeld byte (List.mem_cons_of_mem _ (List.mem_append_left _ opens)) holds
  · intro closes
    exact notHeld byte (List.mem_cons_of_mem _ (List.mem_append_right _ closes)) holds

theorem moves_blanks (depth : Nat) (s : Bytes) : Moves depth depth s (blanks s) := by
  have arePlain : ∀ byte ∈ s.takeWhile isBlank, Plain byte := fun byte mem =>
    plain_of_isBlank (List.mem_takeWhile_imp mem)
  have moves := Moves.allPlain arePlain depth (blanks s)
  rwa [blanks, List.takeWhile_append_dropWhile] at moves

/-- A single octet behind blanks. -/
theorem moves_behind_blanks {s rest : Bytes} {byte : UInt8} (shape : blanks s = byte :: rest)
    {before after : Nat} (moves : Moves before after (byte :: rest) rest) :
    Moves before after s rest := by
  have blank := moves_blanks before s
  rw [shape] at blank
  exact blank.trans moves

/-- What the reader that passes over a string is in the middle of, as the scanner sees it. -/
def Passing.quoting : Passing → Quoting
  | .plain | .digits _ => .inside
  | .escape => .escaped

theorem feed?_of_hexValue {byte : UInt8} (digit : (hexValue? byte).isSome = true) (depth : Nat) :
    Scan.feed? ⟨depth, .inside⟩ byte = some ⟨depth, .inside⟩ := by
  have notQuote : byte ≠ quote := by
    rintro rfl
    exact absurd digit (by decide)
  have notBackslash : byte ≠ backslash := by
    rintro rfl
    exact absurd digit (by decide)
  simp [Scan.feed?, notQuote, notBackslash]

theorem exists_of_passString {passing : Passing} {s rest : Bytes}
    (passed : passString passing s = .ok rest) (depth : Nat) :
    (∃ front, s = front ++ rest ∧
      Scan.feedAll? ⟨depth, passing.quoting⟩ front = some ⟨depth, .outside⟩) ∧
    ∀ seen, passing = .digits seen → ∀ digit ∈ seen, (hexValue? digit).isSome = true := by
  induction s generalizing passing with
  | nil => cases passing <;> cases passed
  | cons byte s ih =>
      cases passing with
      | plain =>
          refine ⟨?_, by rintro seen ⟨⟩⟩
          rw [passString] at passed
          split at passed
          next isQuote =>
              obtain rfl := Except.ok.inj passed
              refine ⟨[byte], rfl, ?_⟩
              simp only [Scan.feedAll?, List.foldlM_cons, List.foldlM_nil, Passing.quoting,
                Scan.feed?, if_pos isQuote]
              rfl
          next notQuote =>
          split at passed
          next isBackslash =>
              apply Scan.exists_front_cons _ (ih passed).1
              simp only [Passing.quoting, Scan.feed?, if_neg notQuote, if_pos isBackslash]
          next notBackslash =>
          split at passed
          next => cases passed
          next =>
              apply Scan.exists_front_cons _ (ih passed).1
              simp only [Passing.quoting, Scan.feed?, if_neg notQuote, if_neg notBackslash]
      | escape =>
          refine ⟨?_, by rintro seen ⟨⟩⟩
          rw [passString] at passed
          split at passed
          next => exact Scan.exists_front_cons rfl (ih passed).1
          split at passed
          next => exact Scan.exists_front_cons rfl (ih passed).1
          next => cases passed
      | digits seen =>
          rw [passString] at passed
          split at passed
          next =>
              obtain ⟨others, areDigits⟩ := ih passed
              obtain ⟨isDigit, seenDigits⟩ := List.forall_mem_cons.1 (areDigits _ rfl)
              refine ⟨Scan.exists_front_cons (feed?_of_hexValue isDigit depth) others, ?_⟩
              rintro _ ⟨⟩
              exact seenDigits
          split at passed
          next number =>
              have areDigits := (hexNumber?_isSome_iff (byte :: seen)).1 number
              obtain ⟨isDigit, seenDigits⟩ := List.forall_mem_cons.1 areDigits
              refine ⟨Scan.exists_front_cons (feed?_of_hexValue isDigit depth) (ih passed).1, ?_⟩
              rintro _ ⟨⟩
              exact seenDigits
          next => cases passed

theorem moves_of_passString {s rest : Bytes} (passed : passString .plain s = .ok rest)
    (depth : Nat) : Moves depth depth (quote :: s) rest := by
  obtain ⟨front, rfl, fed⟩ := (exists_of_passString passed depth).1
  exact ⟨quote :: front, rfl, fed⟩

theorem moves_of_text {s rest : Bytes} {chars : String} (read : text s = .ok (chars, rest))
    (depth : Nat) : Moves depth depth (quote :: s) rest :=
  moves_of_passString (passString_of_text read) depth

theorem moves_of_passNumber {s rest : Bytes} (passed : passNumber s = .ok rest) (depth : Nat) :
    Moves depth depth s rest := by
  obtain ⟨front, rfl, holds⟩ := (leaves_of_passNumber passed).2
  exact .allPlain (fun byte mem => plain_of_holds (holds byte mem)) depth rest

theorem moves_of_word {letters s rest : Bytes} (read : word letters s = .ok rest)
    (all : letters.all (fun byte => decide (Plain byte)) = true) (depth : Nat) :
    Moves depth depth s rest :=
  eq_append_of_word read ▸ .allPlain (plain_of_all all) depth rest

theorem moves_of_afterColon {s rest : Bytes} (read : afterColon s = .ok rest) (depth : Nat) :
    Moves depth depth s rest := by
  unfold afterColon at read
  split at read
  next => cases read
  next shape =>
      split at read
      next isColon =>
          obtain rfl := Except.ok.inj read
          subst isColon
          exact moves_behind_blanks shape (.plain (by decide) depth _)
      next => cases read

/-! ## Passing over -/

open passFrom (closeBrackets passMember)

/-- What the machine that passes over values has left, in so many steps, when it has closed all
brackets around the value: the scanner is back at depth zero, wherever the machine began. -/
structure Returns (bound : Nat) : Prop where
  value : ∀ outer s rest, passFrom bound outer s = .ok rest → Moves outer.length 0 s rest
  brackets : ∀ outer filled s rest, closeBrackets bound outer filled s = .ok rest →
    Moves outer.length 0 s rest
  member : ∀ outer s rest, passMember bound outer s = .ok rest → Moves (outer.length + 1) 0 s rest

section Steps

variable {bound : Nat} {outer : List Bracket} {s rest : Bytes}

theorem moves_of_passFrom (returns : Returns bound)
    (passed : passFrom (bound + 1) outer s = .ok rest) : Moves outer.length 0 s rest := by
  have token {byte : UInt8} {after : Bytes} {step : Except Fault Bytes}
      (shape : blanks s = byte :: after)
      (moves : ∀ left, step = .ok left → Moves outer.length outer.length (byte :: after) left)
      (stepped : (step >>= closeBrackets bound outer true) = .ok rest) :
      Moves outer.length 0 s rest := by
    cases done : step with
    | error =>
        rw [done] at stepped
        cases stepped
    | ok left =>
        rw [done] at stepped
        have blank := moves_blanks outer.length s
        rw [shape] at blank
        exact (blank.trans (moves left done)).trans (returns.brackets outer true left rest stepped)
  rw [passFrom] at passed
  split at passed
  next => cases passed
  next byte after shape =>
  split at passed
  next isQuote =>
      subst isQuote
      exact token shape (fun left done => moves_of_passString done outer.length) passed
  split at passed
  next isBrace =>
      subst isBrace
      have inside := returns.brackets (.object :: outer) false after rest passed
      exact (moves_behind_blanks shape (.opener (by decide) outer.length after)).trans inside
  split at passed
  next isBracket =>
      subst isBracket
      have inside := returns.brackets (.list :: outer) false after rest passed
      exact (moves_behind_blanks shape (.opener (by decide) outer.length after)).trans inside
  split at passed
  next isNull =>
      subst isNull
      refine token shape (fun left done => ?_) passed
      exact (Moves.plain (by decide) _ _).trans (moves_of_word done (by decide) outer.length)
  split at passed
  next isTrue =>
      subst isTrue
      refine token shape (fun left done => ?_) passed
      exact (Moves.plain (by decide) _ _).trans (moves_of_word done (by decide) outer.length)
  split at passed
  next isFalse =>
      subst isFalse
      refine token shape (fun left done => ?_) passed
      exact (Moves.plain (by decide) _ _).trans (moves_of_word done (by decide) outer.length)
  split at passed
  next => exact token shape (fun left done => moves_of_passNumber done outer.length) passed
  next => cases passed

theorem moves_of_closeBrackets (returns : Returns bound) {filled : Bool}
    (passed : closeBrackets (bound + 1) outer filled s = .ok rest) :
    Moves outer.length 0 s rest := by
  cases outer with
  | nil =>
      obtain rfl := Except.ok.inj passed
      exact .refl 0 s
  | cons bracket outer =>
      have blank := moves_blanks (outer.length + 1) s
      cases bracket with
      | list =>
          rw [closeBrackets] at passed
          split at passed
          next => cases passed
          next shape =>
              have closed := moves_behind_blanks shape (.closer (by decide) outer.length _)
              exact closed.trans (returns.brackets outer true _ rest passed)
          next following shape =>
              rw [shape] at blank
              split at passed
              · have separated := blank.trans (.plain (by decide) _ following)
                exact separated.trans (returns.value (.list :: outer) following rest passed)
              · exact blank.trans (returns.value (.list :: outer) (comma :: following) rest passed)
          next =>
              split at passed
              · cases passed
              · exact blank.trans (returns.value (.list :: outer) (blanks s) rest passed)
      | object =>
          rw [closeBrackets] at passed
          split at passed
          next => cases passed
          next shape =>
              have closed := moves_behind_blanks shape (.closer (by decide) outer.length _)
              exact closed.trans (returns.brackets outer true _ rest passed)
          next following shape =>
              rw [shape] at blank
              split at passed
              · have separated := (blank.trans (.plain (by decide) _ following)).trans
                  (moves_blanks (outer.length + 1) following)
                exact separated.trans (returns.member outer (blanks following) rest passed)
              · exact blank.trans (returns.member outer (comma :: following) rest passed)
          next =>
              split at passed
              · cases passed
              · exact blank.trans (returns.member outer (blanks s) rest passed)

theorem moves_of_passMember (returns : Returns bound)
    (passed : passMember (bound + 1) outer s = .ok rest) : Moves (outer.length + 1) 0 s rest := by
  unfold passMember at passed
  split at passed
  next => cases passed
  next after =>
      simp only [bind, Except.bind] at passed
      split at passed
      next => cases passed
      next stringPassed =>
      split at passed
      next => cases passed
      next colonRead =>
          have key := (moves_of_passString stringPassed (outer.length + 1)).trans
            (moves_of_afterColon colonRead (outer.length + 1))
          exact key.trans (returns.value (.object :: outer) _ rest passed)
  next => cases passed

end Steps

theorem returns (bound : Nat) : Returns bound := by
  induction bound with
  | zero =>
      refine ⟨?_, ?_, ?_⟩
      · rintro outer s rest ⟨⟩
      · intro outer filled s rest passed
        cases outer with
        | nil =>
            obtain rfl := Except.ok.inj passed
            exact .refl 0 s
        | cons bracket outer => cases passed
      · rintro outer s rest ⟨⟩
  | succ bound ih =>
      refine ⟨?_, ?_, ?_⟩
      · intro outer s rest
        exact moves_of_passFrom ih
      · intro outer filled s rest
        exact moves_of_closeBrackets ih
      · intro outer s rest
        exact moves_of_passMember ih

/-- What is passed over as a value leaves the scanner where it was. -/
theorem moves_of_pass {bound : Nat} {s rest : Bytes} (passed : pass bound s = .ok rest) :
    Moves 0 0 s rest :=
  (returns (3 * bound + 3)).value [] s rest passed

/-- Whether a reader leaves the scanner where it was. -/
def KeepsLevel {α : Type} (read : Read α) : Prop :=
  ∀ s a rest, read s = .ok (a, rest) → Moves 0 0 s rest

theorem value_keepsLevel (steps room : Nat) : KeepsLevel (value steps room) := by
  intro s v rest read
  exact moves_of_pass (pass_of_value read (Nat.le_refl s.length))

end RemoteCall.Json
