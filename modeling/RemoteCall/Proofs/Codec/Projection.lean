import RemoteCall.Proofs.Codec.Response
import RemoteCall.Proofs.Json.Projection
import RemoteCall.Proofs.MessagePack.Projection

/-!
# Requests as the values of their bodies

A body can be read as a value without regard to what it is for.  A codec of
envelopes reads it as a call, and takes the members as they come.  What it answers
is nevertheless settled by the value: the order of members, blanks, the spelling of
keys and members of other names have no part in it.
-/

namespace RemoteCall

/-! ## Calls -/

/-- What is answered to the question for the argument, by the parameters of the call. -/
inductive Argument : Value → Except RpcError Value → Prop where
  | missing : Argument .null (.error (.codec .missingParams))
  /-- The item of a list of one is the argument, be it null or a list again. -/
  | single (v : Value) : Argument (.array [v]) (.ok v)
  | count {items : List Value} : items.length ≠ 1 →
      Argument (.array items) (.error (.codec (.paramCount items.length)))
  | bare {v : Value} : v ≠ .null → (∀ items, v ≠ .array items) → Argument v (.ok v)

theorem Argument.of_singleParam (params : Value) :
    Argument params ((Envelope.singleParam params).mapError .codec) := by
  cases params with
  | null => exact .missing
  | array items =>
      rcases items with _ | ⟨first, _ | ⟨second, others⟩⟩
      · exact .count (by simp)
      · exact .single first
      · exact .count (by simp)
  | _ => exact .bare (by simp) (by simp)

/-! ## Questions -/

/-- Whether a codec, in a state, answers every question from this call, and from then on writes
the responses to it. -/
structure Format.AnswersFrom (format : Format) (call : Call) (state : format.wire.codec.State) :
    Prop where
  method : (format.wire.codec.method state).answer = .ok call.head
  argument : Argument call.body (format.wire.codec.read state).answer
  responses : ∀ later ∈ [(format.wire.codec.method state).state,
    (format.wire.codec.read state).state], format.WritesFor call later

/-- Whether a codec, in a state, fails every question with this error. -/
structure WireFormat.Refuses (F : WireFormat) (failure : RpcError) (state : F.codec.State) :
    Prop where
  method : (F.codec.method state).answer = .error failure
  argument : (F.codec.read state).answer = .error failure

theorem Format.answersFrom (format : Format) {body : Bytes} {call : Call}
    (readable : format.wire.readCall body = .ok call) {state : format.wire.codec.State}
    (asked : format.wire.codec.Asked (⟨body, none⟩ : Enveloped) state) :
    format.AnswersFrom call state := by
  obtain ⟨method, read, -⟩ := Enveloped.answers_of_call readable asked
  refine ⟨method, read ▸ .of_singleParam call.body, ?_⟩
  intro later mem
  rw [Enveloped.decoded_of_mem readable asked mem]
  exact format.writesFor body call

namespace Enveloped

variable {F : WireFormat} {body : Bytes}

theorem refuses {e : RpcError} (unreadable : F.readCall body = .error e) {state : F.codec.State}
    (asked : F.codec.Asked (⟨body, none⟩ : Enveloped) state) :
    F.Refuses (.codec (.undecodable F.name e.detail)) state :=
  ⟨(answers_of_error unreadable asked).1, (answers_of_error unreadable asked).2⟩

end Enveloped

namespace Format

/-- The names of the members of the object that a body denotes, in the order of the body. -/
def memberNames : Format → Bytes → List String
  | json => Json.memberNames
  | messagePack => MessagePack.memberNames

end Format

end RemoteCall
