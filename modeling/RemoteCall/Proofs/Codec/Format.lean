import RemoteCall.Codec.WireFormat
import RemoteCall.Proofs.Json.Envelope
import RemoteCall.Proofs.MessagePack.Envelope

/-!
# What the two formats have in common

JSON and MessagePack differ in what they can carry: JSON gives back no
floating-point numbers and allows less nesting, MessagePack has no room for
lengths beyond four octets.  Within these limits both give back every envelope
that they write, with its values in normal form.
-/

namespace RemoteCall

/-- The formats that come with the library. -/
inductive Format where
  | json
  | messagePack
  deriving DecidableEq, Repr

namespace Format

/-- The format as a codec or a client uses it. -/
def wire : Format → WireFormat
  | json => .json
  | messagePack => .messagePack

/-- Whether a value, inside an envelope, comes back from the format. -/
def Fits : Format → Value → Prop
  | json, v => v.FloatFree ∧ v.depth < Json.deepest
  | messagePack, v => v.Short ∧ v.depth < MessagePack.deepest

/-! ## Which values fit -/

theorem fits_of_plain (format : Format) {v : Value} (floatFree : v.FloatFree) (short : v.Short)
    (shallow : v.depth ≤ 121) : format.Fits v := by
  cases format with
  | json => exact ⟨floatFree, Nat.lt_of_le_of_lt shallow (by decide)⟩
  | messagePack => exact ⟨short, Nat.lt_of_le_of_lt shallow (by decide)⟩

theorem fits_null (format : Format) : format.Fits .null :=
  format.fits_of_plain (.of_scalar rfl trivial) (.of_scalar rfl trivial) (Nat.zero_le _)

theorem fits_integer (format : Format) (n : Integer) : format.Fits (.integer n) :=
  format.fits_of_plain (.of_scalar rfl trivial) (.of_scalar rfl trivial) (Nat.zero_le _)

theorem fits_string (format : Format) {chars : String}
    (short : (Utf8.encode chars).length < Value.lengthBound) : format.Fits (.string chars) :=
  format.fits_of_plain (.of_scalar rfl trivial) (.of_scalar rfl short) (Nat.zero_le _)

/-! ## Writing -/

/-- The octets that a format has for a value. -/
def written : Format → Value → Bytes
  | json => Json.spelling
  | messagePack => MessagePack.packing

theorem write_eq (format : Format) {d : Datum} (portable : d.Portable) :
    format.wire.write d = .ok (format.written d.asWritten) := by
  cases format with
  | json =>
      simp only [wire, WireFormat.json, Json.writeDatum_eq portable]
      rfl
  | messagePack =>
      simp only [wire, WireFormat.messagePack, MessagePack.writeDatum_eq portable]
      rfl

/-! ## Envelopes -/

theorem readCall_written (format : Format) {method : String} {params id : Value}
    (methodShort : (Utf8.encode method).length < Value.lengthBound)
    (fitsParams : format.Fits params) (fitsId : format.Fits id) :
    format.wire.readCall
        (format.written (.object [("method", .string method), ("params", params), ("id", id)]))
      = .ok ⟨method, params.normal, id.normal⟩ := by
  cases format with
  | json =>
      have read := Json.readCall_spelling method fitsParams.1 fitsParams.2 fitsId.1 fitsId.2
      simp only [wire, WireFormat.json, written, read]
      rfl
  | messagePack =>
      have read := MessagePack.readCall_packing methodShort fitsParams.1 fitsParams.2 fitsId.1
        fitsId.2
      simp only [wire, WireFormat.messagePack, written, read]
      rfl

section Answers

variable (format : Format) {result error id : Value} (fitsResult : format.Fits result)
  (fitsError : format.Fits error) (fitsId : format.Fits id)

include fitsResult fitsError fitsId

theorem readAnswer_written :
    format.wire.readAnswer
        (format.written (.object [("result", result), ("error", error), ("id", id)]))
      = .ok ⟨result.normal, error.normal, id.normal⟩ := by
  cases format with
  | json =>
      have read := Json.readAnswer_spelling fitsResult.1 fitsResult.2 fitsError.1 fitsError.2
        fitsId.1 fitsId.2
      simp only [wire, WireFormat.json, written, read]
      rfl
  | messagePack =>
      have read := MessagePack.readAnswer_packing fitsResult.1 fitsResult.2 fitsError.1
        fitsError.2 fitsId.1 fitsId.2
      simp only [wire, WireFormat.messagePack, written, read]
      rfl

/-- An answer can be read as any value can, too. -/
theorem readValue_answer :
    format.wire.readValue
        (format.written (.object [("result", result), ("error", error), ("id", id)]))
      = .ok (Value.object [("result", result), ("error", error), ("id", id)]).normal := by
  have members {P : Value → Prop} (inside : ∀ v, format.Fits v → P v) :
      ∀ member ∈ [("result", result), ("error", error), ("id", id)], P member.2 := by
    simp only [List.forall_mem_cons]
    exact ⟨inside result fitsResult, inside error fitsError, inside id fitsId, by simp⟩
  cases format with
  | json =>
      have read := Json.readValue_spelling
        (Value.Everywhere.of_object trivial (members fun v fits => fits.1))
        (Value.depth_object_le_succ_iff.2 (members fun v fits => Nat.le_pred_of_lt fits.2))
      simp only [wire, WireFormat.json, written, read]
      rfl
  | messagePack =>
      have names : ∀ member ∈ [("result", result), ("error", error), ("id", id)],
          (Utf8.encode member.1).length < Value.lengthBound := by
        simp only [List.forall_mem_cons]
        exact ⟨by decide, by decide, by decide, by simp⟩
      have short : (Value.object [("result", result), ("error", error), ("id", id)]).Short :=
        .of_object ⟨(by decide : 3 < Value.lengthBound), names⟩ (members fun v fits => fits.1)
      have read := MessagePack.readValue_packing short
        (Value.depth_object_le_succ_iff.2 (members fun v fits => Nat.le_pred_of_lt fits.2))
      simp only [wire, WireFormat.messagePack, written, read]
      rfl

end Answers

/-- A call is written and read back. -/
theorem exists_write_call (format : Format) {d : Datum} (portable : d.Portable) {method : String}
    {params id : Value}
    (shape : d.asWritten = .object [("method", .string method), ("params", params), ("id", id)])
    (methodShort : (Utf8.encode method).length < Value.lengthBound)
    (fitsParams : format.Fits params) (fitsId : format.Fits id) :
    ∃ body, format.wire.write d = .ok body ∧
      format.wire.readCall body = .ok ⟨method, params.normal, id.normal⟩ := by
  refine ⟨format.written d.asWritten, format.write_eq portable, ?_⟩
  rw [shape]
  exact format.readCall_written methodShort fitsParams fitsId

end Format

end RemoteCall
