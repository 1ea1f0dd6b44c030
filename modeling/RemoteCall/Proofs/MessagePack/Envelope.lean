import RemoteCall.MessagePack.Record
import RemoteCall.Proofs.MessagePack.Reader

/-!
# Reading back MessagePack envelopes

A written envelope is a map from the names of its three members.  It is read
back member by member, whatever values they carry, as long as these are short
and leave room for the map of the envelope.
-/

namespace RemoteCall.MessagePack

open Envelope

namespace Fields

variable {ι σ : Type} {F : Fields ι σ} {room count : Nat} {state filled : σ} {name : String}
  {field : ι} {s : Bytes}

theorem key_putText (short : (Utf8.encode name).length < Value.lengthBound)
    (known : F.named? name = some field) :
    F.key room ((putText name []).reverse ++ s) = .ok (some field, s) := by
  rw [key, item_putText short]
  simp only [bind, Except.bind, Utf8.decode_encode, known]

theorem named_next {rest : Bytes} (short : (Utf8.encode name).length < Value.lengthBound)
    (known : F.named? name = some field) (new : F.has state field = false)
    (content : F.fill field state s = .ok (filled, rest)) :
    F.named room (count + 1) state ((putText name []).reverse ++ s)
      = F.named room count filled rest := by
  rw [named, key_putText short known]
  simp only [bind, Except.bind, new, Bool.false_eq_true, if_false, content]

/-- A record is read from a map, given what reading its entries leads to. -/
theorem record_of_map {α : Type} {start : σ} {finishNamed finishOrdered : σ → Except Mismatch α}
    {inside rest : Bytes} {a : α} (found : item s = .ok (.map count, inside))
    (members : F.named room count start inside = .ok (filled, rest))
    (complete : finishNamed filled = .ok a) :
    F.record (room + 1) start finishNamed finishOrdered s = .ok (a, rest) := by
  rw [record, found]
  simp only [bind, Except.bind, members, complete]

end Fields

/-- An envelope of three named members is read back from its packing. -/
theorem envelope_packing {α : Type} {layout : Layout α} {head : Read α} {other : Read Value}
    (bodyNotHead : layout.body ≠ layout.head) (idNotHead : "id" ≠ layout.head)
    (idNotBody : "id" ≠ layout.body)
    (headShort : (Utf8.encode layout.head).length < Value.lengthBound)
    (bodyShort : (Utf8.encode layout.body).length < Value.lengthBound) {v w i : Value} {front : α}
    (readsHead : ∀ rest, head (packing v ++ rest) = .ok (front, rest))
    (readsBody : Recovers other w) (readsId : Recovers other i) (rest : Bytes) :
    envelope layout head other
        (packing (.object [(layout.head, v), (layout.body, w), ("id", i)]) ++ rest)
      = .ok (⟨front, w.normal, i.normal⟩, rest) := by
  let F := envelopeFields layout head other
  have knownHead : F.named? layout.head = some .head := by
    simp [F, Fields.named?, envelopeFields, Layout.nameOf]
  have knownBody : F.named? layout.body = some .body := by
    simp [F, Fields.named?, envelopeFields, Layout.nameOf, bodyNotHead.symm]
  have knownId : F.named? "id" = some .id := by
    simp [F, Fields.named?, envelopeFields, Layout.nameOf, idNotHead.symm, idNotBody.symm]
  have fillsHead (s : Bytes) :
      F.fill .head {} (packing v ++ s) = .ok (⟨some front, none, none⟩, s) := by
    simp only [F, envelopeFields, readsHead s, bind, Except.bind]
  have fillsBody (s : Bytes) :
      F.fill .body ⟨some front, none, none⟩ (packing w ++ s)
        = .ok (⟨some front, some w.normal, none⟩, s) := by
    simp only [F, envelopeFields, readsBody s, bind, Except.bind]
  have fillsId (s : Bytes) :
      F.fill .id ⟨some front, some w.normal, none⟩ (packing i ++ s)
        = .ok (⟨some front, some w.normal, some i.normal⟩, s) := by
    simp only [F, envelopeFields, readsId s, bind, Except.bind]
  have idShort : (Utf8.encode "id").length < Value.lengthBound := by decide
  -- The members one after the other, each with what follows it.
  have members : F.named (deepest - 1) 3 {}
      (packMembers [(layout.head, v), (layout.body, w), ("id", i)] ++ rest)
      = .ok (⟨some front, some w.normal, some i.normal⟩, rest) := by
    simp only [packMembers, List.append_assoc, List.append_nil]
    rw [Fields.named_next headShort knownHead rfl (fillsHead _),
      Fields.named_next bodyShort knownBody rfl (fillsBody _),
      Fields.named_next idShort knownId rfl (fillsId _)]
    rfl
  have count : item (packing (.object [(layout.head, v), (layout.body, w), ("id", i)]) ++ rest)
      = .ok (.map 3, packMembers [(layout.head, v), (layout.body, w), ("id", i)] ++ rest) := by
    rw [packing, List.append_assoc]
    have few : 3 < 0x100000000 := by decide
    exact item_putMapCount few _
  exact Fields.record_of_map count members rfl

/-! ## Calls and answers -/

theorem front_of_read {α : Type} {read : Read α} {s : Bytes} {a : α}
    (reads : read (s ++ []) = .ok (a, [])) : front read s = .ok a := by
  rw [List.append_nil] at reads
  rw [front, reads]
  rfl

/-- Reading a written value gives its normal form. -/
theorem readValue_packing {v : Value} (short : v.Short) (shallow : v.depth ≤ deepest) :
    readValue (packing v) = .ok v.normal :=
  front_of_read (value_recovers short shallow [])

/-- A written call is read back. -/
theorem readCall_packing {method : String} {params id : Value}
    (methodShort : (Utf8.encode method).length < Value.lengthBound) (paramsShort : params.Short)
    (paramsShallow : params.depth < deepest) (idShort : id.Short) (idShallow : id.depth < deepest) :
    readCall (packing (.object [("method", .string method), ("params", params), ("id", id)]))
      = .ok ⟨method, params.normal, id.normal⟩ := by
  have readsMethod : ∀ rest, text (deepest - 1) (packing (.string method) ++ rest)
      = .ok (method, rest) := text_recovers (deepest - 1) method methodShort
  have readsParams : Recovers (value (deepest - 1)) params :=
    value_recovers paramsShort (Nat.le_pred_of_lt paramsShallow)
  have readsId : Recovers (value (deepest - 1)) id :=
    value_recovers idShort (Nat.le_pred_of_lt idShallow)
  have recovered : envelope callLayout (text (deepest - 1)) (value (deepest - 1))
      (packing (.object [("method", .string method), ("params", params), ("id", id)]) ++ [])
      = .ok (⟨method, params.normal, id.normal⟩, []) :=
    envelope_packing (by decide) (by decide) (by decide) (by decide) (by decide) readsMethod
      readsParams readsId []
  exact front_of_read recovered

/-- A written answer is read back. -/
theorem readAnswer_packing {result error id : Value} (resultShort : result.Short)
    (resultShallow : result.depth < deepest) (errorShort : error.Short)
    (errorShallow : error.depth < deepest) (idShort : id.Short) (idShallow : id.depth < deepest) :
    readAnswer (packing (.object [("result", result), ("error", error), ("id", id)]))
      = .ok ⟨result.normal, error.normal, id.normal⟩ := by
  have readsResult : Recovers (value (deepest - 1)) result :=
    value_recovers resultShort (Nat.le_pred_of_lt resultShallow)
  have readsError : Recovers (value (deepest - 1)) error :=
    value_recovers errorShort (Nat.le_pred_of_lt errorShallow)
  have readsId : Recovers (value (deepest - 1)) id :=
    value_recovers idShort (Nat.le_pred_of_lt idShallow)
  have recovered : envelope answerLayout (value (deepest - 1)) (value (deepest - 1))
      (packing (.object [("result", result), ("error", error), ("id", id)]) ++ [])
      = .ok (⟨result.normal, error.normal, id.normal⟩, []) :=
    envelope_packing (by decide) (by decide) (by decide) (by decide) (by decide) readsResult
      readsError readsId []
  exact front_of_read recovered

end RemoteCall.MessagePack
