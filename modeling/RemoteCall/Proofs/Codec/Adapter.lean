import RemoteCall.Codec.Enveloped

/-!
# Questions to a codec of envelopes

A server asks a codec for the method and for the argument, as often as it likes
and in any order.  The first question decodes the body, and no later one changes
what was decoded, so that all answers come from the same call.
-/

namespace RemoteCall

/-- The states that questions lead to. -/
inductive Codec.Asked (codec : Codec) (start : codec.State) : codec.State → Prop where
  | opened : Asked codec start start
  | method {state : codec.State} : Asked codec start state →
      Asked codec start (codec.method state).state
  | read {state : codec.State} : Asked codec start state →
      Asked codec start (codec.read state).state

namespace Enveloped

variable {F : WireFormat} {body : Bytes} {call : Call}

/-- Asking leaves the body decoded and answers from the call in it. -/
theorem ask_opened {α : Type} (readable : F.readCall body = .ok call)
    (answer : Call → Except CodecFault α) :
    ask F answer ⟨body, none⟩
      = ⟨⟨body, some (.ok call)⟩, [.decoded], (answer call).mapError .codec⟩ := by
  simp only [ask, decode, readable]
  rfl

theorem ask_decoded {α : Type} (answer : Call → Except CodecFault α) :
    ask F answer ⟨body, some (.ok call)⟩
      = ⟨⟨body, some (.ok call)⟩, [], (answer call).mapError .codec⟩ := by
  simp [ask, decode]

/-- What the decoding of a body gives, with the detail that an error is told by. -/
def outcome (F : WireFormat) (body : Bytes) : Except String Call :=
  (F.readCall body).mapError RpcError.detail

/-- What a question is answered from: the call, or the fault that the body is no envelope. -/
def answerFrom {α : Type} (F : WireFormat) (answer : Call → Except CodecFault α) :
    Except String Call → Except CodecFault α
  | .ok call => answer call
  | .error detail => .error (.undecodable F.name detail)

theorem ask_eq {α : Type} (answer : Call → Except CodecFault α) {state : Enveloped}
    (opened : state = ⟨body, none⟩ ∨ state = ⟨body, some (outcome F body)⟩) :
    (ask F answer state).state = ⟨body, some (outcome F body)⟩ ∧
      (ask F answer state).answer = (answerFrom F answer (outcome F body)).mapError .codec := by
  have decoded : (decode F state).1 = ⟨body, some (outcome F body)⟩ ∧
      (decode F state).2.2 = outcome F body := by
    rcases opened with rfl | rfl <;> exact ⟨rfl, rfl⟩
  refine ⟨decoded.1, ?_⟩
  change Except.mapError _ (match (decode F state).2.2 with
    | .ok call => answer call
    | .error detail => .error (.undecodable F.name detail)) = _
  rw [decoded.2]
  cases outcome F body <;> rfl

/-- Whatever was asked, the body is undecoded or has been decoded once. -/
theorem opened_or_decoded {state : F.codec.State}
    (asked : F.codec.Asked (⟨body, none⟩ : Enveloped) state) :
    state = (⟨body, none⟩ : Enveloped) ∨ state = (⟨body, some (outcome F body)⟩ : Enveloped) := by
  induction asked with
  | opened => exact .inl rfl
  | method _ ih => exact .inr (ask_eq _ ih).1
  | read _ ih => exact .inr (ask_eq _ ih).1

/-- Questions lead from an undecoded body to that body decoded, and no further. -/
theorem eq_of_asked (readable : F.readCall body = .ok call) {state : F.codec.State}
    (asked : F.codec.Asked (⟨body, none⟩ : Enveloped) state) :
    state = (⟨body, none⟩ : Enveloped) ∨ state = (⟨body, some (.ok call)⟩ : Enveloped) := by
  have decoded : outcome F body = .ok call := by
    rw [outcome, readable]
    rfl
  exact decoded ▸ opened_or_decoded asked

/-- Every question is answered from the call that the body is read as. -/
theorem answers_of_call (readable : F.readCall body = .ok call) {state : F.codec.State}
    (asked : F.codec.Asked (⟨body, none⟩ : Enveloped) state) :
    (F.codec.method state).answer = .ok call.head ∧
      (F.codec.read state).answer = (Envelope.singleParam call.body).mapError .codec ∧
      (F.codec.method state).state = (⟨body, some (.ok call)⟩ : Enveloped) ∧
      (F.codec.read state).state = (⟨body, some (.ok call)⟩ : Enveloped) := by
  have decoded : outcome F body = .ok call := by
    rw [outcome, readable]
    rfl
  have method := ask_eq (fun call => .ok call.head) (opened_or_decoded asked)
  have read := ask_eq (fun call => Envelope.singleParam call.body) (opened_or_decoded asked)
  rw [decoded] at method read
  exact ⟨method.2, read.2, method.1, read.1⟩

/-- After a question, the body has been decoded. -/
theorem decoded_of_mem (readable : F.readCall body = .ok call) {state later : F.codec.State}
    (asked : F.codec.Asked (⟨body, none⟩ : Enveloped) state)
    (mem : later ∈ [(F.codec.method state).state, (F.codec.read state).state]) :
    later = (⟨body, some (.ok call)⟩ : Enveloped) := by
  obtain ⟨-, -, methodState, readState⟩ := answers_of_call readable asked
  rcases List.mem_cons.1 mem with rfl | mem
  · exact methodState
  · exact (List.mem_singleton.1 mem) ▸ readState

/-- A body that is read as no call fails every question, and in the same words. -/
theorem answers_of_error {e : RpcError} (unreadable : F.readCall body = .error e)
    {state : F.codec.State} (asked : F.codec.Asked (⟨body, none⟩ : Enveloped) state) :
    (F.codec.method state).answer = .error (.codec (.undecodable F.name e.detail)) ∧
      (F.codec.read state).answer = .error (.codec (.undecodable F.name e.detail)) := by
  have decoded : outcome F body = .error e.detail := by
    rw [outcome, unreadable]
    rfl
  have method := ask_eq (fun call => .ok call.head) (opened_or_decoded asked)
  have read := ask_eq (fun call => Envelope.singleParam call.body) (opened_or_decoded asked)
  rw [decoded] at method read
  exact ⟨method.2, read.2⟩

end Enveloped

end RemoteCall
