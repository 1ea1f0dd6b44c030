import RemoteCall.Json.Record
import RemoteCall.Proofs.Json.Reader

/-!
# Reading back JSON envelopes

A written envelope names its three members in declared order.  It is read back
member by member, whatever values they carry, as long as these are free of
floating-point numbers and leave room for the brackets of the envelope.
-/

namespace RemoteCall.Json

open Ascii Envelope

section Members

variable {α : Type} {layout : Layout α} {head : Read α} {other : Read Value} {bound steps : Nat}
  {draft filled : Draft α} {name : String} {member : Member} {s rest : Bytes}

theorem namedMembers_last (known : layout.member? name = some member)
    (new : draft.has member = false)
    (content : readMember head other draft member s = .ok (filled, closeBrace :: rest)) :
    namedMembers layout head other bound (steps + 1) draft (literal name ++ colon :: s)
      = .ok (filled, closeBrace :: rest) := by
  have after : afterColon (colon :: s) = .ok s := rfl
  have closes : blanks (closeBrace :: rest) = closeBrace :: rest := rfl
  rw [literal_append]
  unfold namedMembers
  split
  next same =>
      rcases List.cons.inj same with ⟨-, rfl⟩
      simp only [text_flatMap_escaped, orStop, bind, Except.bind, known, new, after, content,
        Bool.false_eq_true, if_false, closes]
      rfl
  next other => exact absurd rfl (other _)

theorem namedMembers_next {following : String} (known : layout.member? name = some member)
    (new : draft.has member = false)
    (content : readMember head other draft member s
      = .ok (filled, comma :: (literal following ++ rest))) :
    namedMembers layout head other bound (steps + 1) draft (literal name ++ colon :: s)
      = namedMembers layout head other bound steps filled (literal following ++ rest) := by
  have after : afterColon (colon :: s) = .ok s := rfl
  rw [literal_append following] at content ⊢
  rw [literal_append name]
  conv => lhs; unfold namedMembers
  split
  next same =>
      rcases List.cons.inj same with ⟨-, rfl⟩
      simp only [text_flatMap_escaped, orStop, bind, Except.bind, known, new, after, content,
        Bool.false_eq_true, if_false]
      rfl
  next other => exact absurd rfl (other _)

theorem namedEnvelope_literal {envelope : Envelope α}
    (read : namedMembers layout head other bound bound {} (literal name ++ s) = .ok (filled, rest))
    (complete : filled.finishNamed layout = .ok envelope) :
    namedEnvelope layout head other bound (literal name ++ s) = .ok (envelope, rest) := by
  rw [literal_append] at read ⊢
  change (namedMembers layout head other bound bound {} (quote :: _) >>= _) = _
  rw [read]
  simp only [bind, Except.bind, complete]

end Members

/-- An envelope of three named members is read back from its spelling. -/
theorem envelope_spelling {α : Type} {layout : Layout α} {head : Read α} {other : Read Value}
    {bound : Nat} (enough : 3 ≤ bound) (bodyNotHead : layout.body ≠ layout.head)
    (idNotHead : "id" ≠ layout.head) (idNotBody : "id" ≠ layout.body) {v w i : Value} {front : α}
    (readsHead : ∀ rest, Numeral.Ends rest → head (spelling v ++ rest) = .ok (front, rest))
    (readsBody : Recovers other w) (readsId : Recovers other i) (rest : Bytes) :
    envelope layout head other bound
        (spelling (.object [(layout.head, v), (layout.body, w), ("id", i)]) ++ rest)
      = .ok (⟨front, w.normal, i.normal⟩, rest) := by
  rcases Nat.exists_eq_add_of_le' enough with ⟨steps, rfl⟩
  have knownHead : layout.member? layout.head = some .head := by simp [Layout.member?]
  have knownBody : layout.member? layout.body = some .body := by
    simp [Layout.member?, bodyNotHead]
  have knownId : layout.member? "id" = some .id := by
    simp [Layout.member?, idNotHead, idNotBody]
  -- What follows each of the members, from the last to the first.
  let afterHead : Bytes := literal layout.body ++ colon ::
    (spelling w ++ comma :: (literal "id" ++ colon :: (spelling i ++ closeBrace :: rest)))
  have third : namedMembers layout head other (steps + 3) (steps + 1)
      ⟨some front, some w.normal, none⟩
      (literal "id" ++ colon :: (spelling i ++ closeBrace :: rest))
      = .ok (⟨some front, some w.normal, some i.normal⟩, closeBrace :: rest) := by
    apply namedMembers_last knownId rfl
    rw [readMember, readsId _ (ends_closeBrace rest)]
    rfl
  have second : namedMembers layout head other (steps + 3) (steps + 2) ⟨some front, none, none⟩
      afterHead = .ok (⟨some front, some w.normal, some i.normal⟩, closeBrace :: rest) := by
    refine (namedMembers_next knownBody rfl ?_).trans third
    rw [readMember, readsBody _ (ends_comma _)]
    rfl
  have first : namedMembers layout head other (steps + 3) (steps + 3) {}
      (literal layout.head ++ colon :: (spelling v ++ comma :: afterHead))
      = .ok (⟨some front, some w.normal, some i.normal⟩, closeBrace :: rest) := by
    refine (namedMembers_next knownHead rfl ?_).trans second
    rw [readMember, readsHead _ (ends_comma _)]
    rfl
  have named : namedEnvelope layout head other (steps + 3)
      (literal layout.head ++ colon :: (spelling v ++ comma :: afterHead))
      = .ok (⟨front, w.normal, i.normal⟩, closeBrace :: rest) :=
    namedEnvelope_literal first rfl
  have opened (s : Bytes) : envelope layout head other (steps + 3) (openBrace :: s)
      = closed afterObject (namedEnvelope layout head other (steps + 3) s) := rfl
  have text : spelling (.object [(layout.head, v), (layout.body, w), ("id", i)]) ++ rest
      = openBrace :: (literal layout.head ++ colon :: (spelling v ++ comma :: afterHead)) := by
    simp [spelling, spellMembers, separator, afterHead]
  rw [text, opened, named]
  rfl

/-! ## Calls and answers -/

theorem onlyText_literal (bound : Nat) (chars : String) (rest : Bytes) :
    onlyText bound (literal chars ++ rest) = .ok (chars, rest) := by
  have first (s : Bytes) : onlyText bound (quote :: s) = text s := rfl
  rw [literal_append, first, text_flatMap_escaped]

section Spelled

variable {name name' name'' : String} {v w i : Value}

/-- What an envelope spells is longer than what its members do. -/
theorem spelling_members_lt :
    (spelling v).length + (spelling w).length + (spelling i).length + 3
      ≤ (spelling (.object [(name, v), (name', w), (name'', i)])).length := by
  simp only [spelling, spellMembers, separator, List.length_cons, List.length_append]
  omega

end Spelled

/-- A written call is read back. -/
theorem readCall_spelling (method : String) {params id : Value} (paramsFloatFree : params.FloatFree)
    (paramsShallow : params.depth < deepest) (idFloatFree : id.FloatFree)
    (idShallow : id.depth < deepest) :
    readCall (spelling (.object [("method", .string method), ("params", params), ("id", id)]))
      = .ok ⟨method, params.normal, id.normal⟩ := by
  let written := spelling (.object [("method", .string method), ("params", params), ("id", id)])
  have long : (spelling (.string method)).length + (spelling params).length
      + (spelling id).length + 3 ≤ written.length := spelling_members_lt
  have readsMethod : ∀ rest, Numeral.Ends rest →
      onlyText written.length (spelling (.string method) ++ rest) = .ok (method, rest) :=
    fun rest _ => onlyText_literal written.length method rest
  have readsParams : Recovers (memberValue written.length) params :=
    value_recovers paramsFloatFree (Nat.le_pred_of_lt paramsShallow) (by omega)
  have readsId : Recovers (memberValue written.length) id :=
    value_recovers idFloatFree (Nat.le_pred_of_lt idShallow) (by omega)
  have enough : 3 ≤ written.length := by omega
  have recovered : envelope callLayout (onlyText written.length) (memberValue written.length)
      written.length (written ++ []) = .ok (⟨method, params.normal, id.normal⟩, []) :=
    envelope_spelling enough (by decide) (by decide) (by decide) readsMethod readsParams readsId []
  exact whole_of_read recovered

/-- A written answer is read back. -/
theorem readAnswer_spelling {result error id : Value} (resultFloatFree : result.FloatFree)
    (resultShallow : result.depth < deepest) (errorFloatFree : error.FloatFree)
    (errorShallow : error.depth < deepest) (idFloatFree : id.FloatFree)
    (idShallow : id.depth < deepest) :
    readAnswer (spelling (.object [("result", result), ("error", error), ("id", id)]))
      = .ok ⟨result.normal, error.normal, id.normal⟩ := by
  let written := spelling (.object [("result", result), ("error", error), ("id", id)])
  have long : (spelling result).length + (spelling error).length
      + (spelling id).length + 3 ≤ written.length := spelling_members_lt
  have readsResult : Recovers (memberValue written.length) result :=
    value_recovers resultFloatFree (Nat.le_pred_of_lt resultShallow) (by omega)
  have readsError : Recovers (memberValue written.length) error :=
    value_recovers errorFloatFree (Nat.le_pred_of_lt errorShallow) (by omega)
  have readsId : Recovers (memberValue written.length) id :=
    value_recovers idFloatFree (Nat.le_pred_of_lt idShallow) (by omega)
  have enough : 3 ≤ written.length := by omega
  have recovered : envelope answerLayout (memberValue written.length) (memberValue written.length)
      written.length (written ++ []) = .ok (⟨result.normal, error.normal, id.normal⟩, []) :=
    envelope_spelling enough (by decide) (by decide) (by decide) readsResult readsError readsId []
  exact whole_of_read recovered

end RemoteCall.Json
