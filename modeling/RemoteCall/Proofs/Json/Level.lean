import RemoteCall.Proofs.Data.Output
import RemoteCall.Proofs.Json.Nesting
import RemoteCall.Proofs.Json.Writer

/-!
# Level texts

A text is level if the scanner is, at its end, where it was at its beginning: all
brackets and strings that it opens it closes.  Whatever the writer writes is level,
for every datum and not only for those that every format writes alike.
-/

namespace RemoteCall.Json

open Ascii

/-! ## Texts in brackets -/

/-- Whether a text begins with a bracket, and `rest` is what follows the one that closes it. -/
def Bracketed (s rest : Bytes) : Prop :=
  ∃ opener inside closer, s = opener :: inside ∧ opener ∈ openers ∧ closer ∈ closers ∧
    Moves 0 0 inside (closer :: rest)

namespace Bracketed

variable {s left rest : Bytes}

theorem unique (one : Bracketed s rest) (other : Bracketed s left) : rest = left := by
  obtain ⟨opener, inside, closer, rfl, -, closes, moves⟩ := one
  obtain ⟨_, _, other, same, -, otherCloses, otherMoves⟩ := other
  obtain ⟨rfl, rfl⟩ := List.cons.inj same
  exact moves.closer_unique closes otherCloses otherMoves

theorem append (bracketed : Bracketed s rest) (more : Bytes) :
    Bracketed (s ++ more) (rest ++ more) := by
  obtain ⟨opener, inside, closer, rfl, opens, closes, moves⟩ := bracketed
  exact ⟨opener, inside ++ more, closer, rfl, opens, closes, moves.append more⟩

/-- No blanks stand in front of a bracket. -/
theorem blanks_front {front back : Bytes} (bracketed : Bracketed (front ++ back) rest) :
    blanks front = front := by
  obtain ⟨opener, inside, closer, shape, opens, -⟩ := bracketed
  have notBlank : isBlank opener = false := by
    simp only [openers, List.mem_cons, List.not_mem_nil, or_false] at opens
    rcases opens with rfl | rfl <;> decide
  cases front with
  | nil => rfl
  | cons byte front =>
      obtain ⟨rfl, -⟩ := List.cons.inj shape
      simp [blanks, notBlank]

end Bracketed

/-! ## Level texts -/

/-- Whether a text closes all that it opens, and nothing else. -/
def Level (octets : Bytes) : Prop :=
  Moves 0 0 octets []

namespace Level

variable {front back octets : Bytes}

theorem nil : Level [] :=
  .refl 0 []

theorem moves (level : Level octets) (rest : Bytes) : Moves 0 0 (octets ++ rest) rest :=
  Moves.append level rest

theorem append (frontLevel : Level front) (backLevel : Level back) : Level (front ++ back) :=
  (frontLevel.moves back).trans backLevel

theorem allPlain (arePlain : ∀ byte ∈ octets, Plain byte) : Level octets := by
  have moves := Moves.allPlain arePlain 0 []
  rwa [List.append_nil] at moves

theorem of_all (all : octets.all (fun byte => decide (Plain byte)) = true) : Level octets :=
  .allPlain (plain_of_all all)

theorem bracketed {opener closer : UInt8} (opens : opener ∈ openers) (closes : closer ∈ closers)
    (level : Level octets) : Bracketed (opener :: (octets ++ [closer])) [] :=
  ⟨opener, octets ++ [closer], closer, rfl, opens, closes, level.moves [closer]⟩

end Level

/-- A text in brackets is level. -/
theorem Bracketed.level {octets : Bytes} (bracketed : Bracketed octets []) : Level octets := by
  obtain ⟨opener, inside, closer, rfl, opens, closes, moves⟩ := bracketed
  exact ((Moves.opener opens 0 inside).trans (moves.anywhere 1)).trans (.closer closes 0 [])

/-! ## Scalars -/

theorem level_literal (chars : String) : Level (literal chars) := by
  have shape := literal_append chars []
  rw [List.append_nil] at shape
  rw [shape]
  exact moves_of_text (text_flatMap_escaped chars []) 0

theorem holds_of_mem_natDigits {n : Nat} {c : Char} (mem : c ∈ Decimal.natDigits n) :
    Numeral.Holds (UInt8.ofNat c.toNat) :=
  .inl (isDigit_of_mem_natOctets (List.mem_map_of_mem mem))

theorem holds_of_mem_positionalDigits {d : Decimal} {c : Char}
    (mem : c ∈ Decimal.positionalDigits d) : Numeral.Holds (UInt8.ofNat c.toNat) := by
  have point : Numeral.Holds (UInt8.ofNat '.'.toNat) := .inr (by decide)
  have noDigit : Numeral.Holds (UInt8.ofNat '0'.toNat) := .inl (by decide)
  simp only [Decimal.positionalDigits] at mem
  split at mem
  next =>
      simp only [List.mem_append, List.mem_cons, List.not_mem_nil, or_false] at mem
      rcases mem with (digit | filler) | rfl | rfl
      · exact holds_of_mem_natDigits digit
      · exact (List.eq_of_mem_replicate filler) ▸ noDigit
      · exact point
      · exact noDigit
  next =>
  split at mem
  next =>
      simp only [List.mem_append, List.mem_cons] at mem
      rcases mem with whole | rfl | fraction
      · exact holds_of_mem_natDigits (List.mem_of_mem_take whole)
      · exact point
      · exact holds_of_mem_natDigits (List.mem_of_mem_drop fraction)
  next =>
      simp only [List.cons_append, List.mem_append, List.mem_cons] at mem
      rcases mem with rfl | rfl | filler | digit
      · exact noDigit
      · exact point
      · exact (List.eq_of_mem_replicate filler) ▸ noDigit
      · exact holds_of_mem_natDigits digit

theorem holds_of_mem_exponentDigits {d : Decimal} {c : Char}
    (mem : c ∈ Decimal.exponentDigits d) : Numeral.Holds (UInt8.ofNat c.toNat) := by
  simp only [Decimal.exponentDigits, List.mem_append, List.mem_cons, List.not_mem_nil,
    or_false] at mem
  rcases mem with ((first | others) | rfl | sign) | power
  · exact holds_of_mem_natDigits (List.mem_of_mem_take first)
  · split at others
    next => cases others
    next =>
        rcases List.mem_cons.1 others with rfl | digit
        · exact .inr (by decide)
        · exact holds_of_mem_natDigits (List.mem_of_mem_drop digit)
  · exact .inr (by decide)
  · split at sign
    all_goals exact sign ▸ .inr (by decide)
  · exact holds_of_mem_natDigits power

theorem level_intText (n : Int) : Level (octets (Decimal.intText n)) := by
  have digits : ∀ byte ∈ natOctets n.natAbs, Plain byte := fun byte mem =>
    plain_of_holds (.inl (isDigit_of_mem_natOctets mem))
  rw [octets_intText]
  split
  · exact .allPlain (List.forall_mem_cons.2 ⟨by decide, digits⟩)
  · exact .allPlain digits

theorem level_floatOctets {F : FloatFormat} (x : Floating F) : Level (floatOctets x) := by
  unfold floatOctets
  split
  next finite =>
      apply Level.allPlain
      intro byte mem
      obtain ⟨c, written, rfl⟩ := List.mem_map.1 mem
      apply plain_of_holds
      simp only [Decimal.Notation.write, if_pos finite, String.toList_ofList,
        List.mem_append] at written
      rcases written with sign | digits
      · split at sign
        next => exact (List.mem_singleton.1 sign) ▸ .inr (by decide)
        next => cases sign
      · split at digits
        · exact holds_of_mem_positionalDigits digits
        · exact holds_of_mem_exponentDigits digits
  next => exact .of_all (by decide)

/-! ## Values -/

theorem level_separator (after : Bool) : Level (separator after) := by
  cases after with
  | false => exact .nil
  | true => exact .of_all (by decide)

/-- The name of a member and the colon behind it, with the comma in front. -/
theorem level_named (after : Bool) (name : String) :
    Level (separator after ++ literal name ++ [colon]) :=
  ((level_separator after).append (level_literal name)).append (.of_all (by decide))

theorem level_spellItems {items : List Value} (each : ∀ item ∈ items, Level (spelling item))
    (after : Bool) : Level (spellItems after items) := by
  induction items generalizing after with
  | nil => exact .nil
  | cons item rest ih =>
      have others := ih (fun other mem => each other (List.mem_cons_of_mem _ mem)) true
      exact ((level_separator after).append (each item List.mem_cons_self)).append others

theorem level_spellMembers {members : List (String × Value)}
    (each : ∀ member ∈ members, Level (spelling member.2)) (after : Bool) :
    Level (spellMembers after members) := by
  induction members generalizing after with
  | nil => exact .nil
  | cons member rest ih =>
      rcases member with ⟨name, v⟩
      have others := ih (fun other mem => each other (List.mem_cons_of_mem _ mem)) true
      have content := (each (name, v) List.mem_cons_self).append others
      have named := (level_named after name).append content
      simpa [spellMembers] using named

theorem level_spelling (v : Value) : Level (spelling v) := by
  induction v using Value.inductionOn with
  | null => exact .of_all (by decide)
  | bool b => cases b <;> exact .of_all (by decide)
  | integer n => exact level_intText n.val
  | float x finite => exact level_floatOctets x
  | string chars => exact level_literal chars
  | array items ih =>
      exact ((level_spellItems ih false).bracketed (by decide) (by decide)).level
  | object members ih =>
      exact ((level_spellMembers ih false).bracketed (by decide) (by decide)).level

/-! ## Data -/

theorem appends_push {octets : Bytes} (level : Level octets) :
    Appends Level fun out => .ok (push octets out) :=
  .ok octets (push_eq octets) level

theorem appends_bracketed {opener closer : UInt8} (opens : opener ∈ openers)
    (closes : closer ∈ closers) {put : Bytes → Except Refusal Bytes} (inside : Appends Level put) :
    Appends (Bracketed · []) fun out =>
      put (opener :: out) >>= fun filled => .ok (closer :: filled) := by
  have closed : Appends (fun octets => ∃ inside, octets = inside ++ [closer] ∧ Level inside)
      fun out => put out >>= fun filled => .ok (closer :: filled) :=
    inside.before (fun _ => rfl) fun inside level => ⟨inside, rfl, level⟩
  apply Appends.behind [opener] (fun _ => rfl) closed
  rintro _ ⟨inside, rfl, level⟩
  exact level.bracketed opens closes

theorem appends_brackets {put : Bytes → Except Refusal Bytes} (inside : Appends Level put) :
    Appends Level fun out =>
      put (openBracket :: out) >>= fun filled => .ok (closeBracket :: filled) :=
  (appends_bracketed (by decide) (by decide) inside).mono fun _ => Bracketed.level

theorem appends_braces {put : Bytes → Except Refusal Bytes} (inside : Appends Level put) :
    Appends Level fun out => put (openBrace :: out) >>= fun filled => .ok (closeBrace :: filled) :=
  (appends_bracketed (by decide) (by decide) inside).mono fun _ => Bracketed.level

theorem appends_named (after : Bool) (name : String) {put : Bytes → Except Refusal Bytes}
    (content : Appends Level put) :
    Appends Level fun out => put (colon :: push (literal name) (separate after out)) := by
  apply Appends.behind (separator after ++ literal name ++ [colon]) _ content
  · exact fun octets => (level_named after name).append
  · intro out
    simp [push_eq, separate_eq]

mutual

/-- What is written for a datum is level. -/
theorem putDatum_level : (d : Datum) → Appends Level (putDatum d)
  | .unit | .none | .unitRecord => appends_push (.of_all (by decide))
  | .some content | .wrapped content => putDatum_level content
  | .bool true | .bool false => appends_push (.of_all (by decide))
  | .integer n => appends_push (level_intText n.val)
  | .wide n => appends_push (level_intText n)
  | .double x => appends_push (level_floatOctets x)
  | .single x => appends_push (level_floatOctets x)
  | .char c => appends_push (level_literal (String.singleton c))
  | .string chars => appends_push (level_literal chars)
  | .bytes octets => .ok _ (putValue_eq _) (level_spelling _)
  | .sequence items => appends_brackets (putData_level false items)
  | .map entries => appends_braces (putEntries_level false entries)
  | .record fields => appends_braces (putFields_level false fields)
  | .unitVariant name => appends_push (level_literal name)
  | .variant name content =>
    appends_braces (appends_named false name (putDatum_level content))
  | .value v => .ok _ (putValue_eq v) (level_spelling v)
  | .refuse message => .error _

theorem putData_level (after : Bool) : (items : List Datum) → Appends Level (putData after items)
  | [] => .nothing .nil
  | item :: rest =>
    (Appends.behind (separator after) (separate_eq after) (putDatum_level item)
      fun _ => (level_separator after).append).bind (putData_level true rest) fun _ _ => .append

theorem putEntries_level (after : Bool) :
    (entries : List (Datum × Datum)) → Appends Level (putEntries after entries)
  | [] => .nothing .nil
  | (key, content) :: rest => by
    have written (name : String) :=
      (appends_named after name (putDatum_level content)).bind (putEntries_level true rest)
        fun _ _ => Level.append
    cases named : key.keyText with
    | error reason =>
        intro out filled put
        rw [putEntries, named] at put
        cases put
    | ok name =>
        intro out filled put
        rw [putEntries, named] at put
        exact written name out filled put

theorem putFields_level (after : Bool) :
    (fields : List (String × Datum)) → Appends Level (putFields after fields)
  | [] => .nothing .nil
  | (name, content) :: rest =>
    (appends_named after name (putDatum_level content)).bind (putFields_level true rest)
      fun _ _ => .append

end

/-- A record is written as a text in brackets. -/
theorem writeDatum_bracketed {fields : List (String × Datum)} {octets : Bytes}
    (written : writeDatum (.record fields) = .ok octets) : Bracketed octets [] := by
  have braces : openBrace ∈ openers ∧ closeBrace ∈ closers := by decide
  have appends := appends_bracketed braces.1 braces.2 (putFields_level false fields)
  unfold writeDatum at written
  split at written
  next put =>
      obtain rfl := Except.ok.inj written
      obtain ⟨octets, rfl, bracketed⟩ := appends [] _ put
      simpa using bracketed
  next => cases written

end RemoteCall.Json
