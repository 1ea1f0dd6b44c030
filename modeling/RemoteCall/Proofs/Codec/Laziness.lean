import RemoteCall.Proofs.Codec.Projection

/-!
# Decoding on demand

The codec of a request can be asked for the method and for the argument and made to write
responses in any order, as often as one likes.  All that is left behind in a codec of
envelopes is whether there has been a question (`Enveloped.uses_held`): the first one
decodes the body, well or not, and from then on responses carry the identifier of the call.
-/

namespace RemoteCall

/-! ## Uses of a codec -/

namespace Codec

/-- A use of the codec of a request: a question, or a response to be written. -/
inductive Use where
  | method
  | read
  | reply (value : Value)
  | error (status : Nat) (failure : RpcError)

/-- Whether a use is a question about the request. -/
def Use.isQuestion : Use → Bool
  | method | read => true
  | reply _ | error _ _ => false

variable (codec : Codec)

/-- The state after a use, and what is reported meanwhile. -/
def use (state : codec.State) : Use → codec.State × List Notice
  | .method => ((codec.method state).state, (codec.method state).notices)
  | .read => ((codec.read state).state, (codec.read state).notices)
  | .reply value =>
    ((codec.writeReply value state).state, (codec.writeReply value state).notices)
  | .error status failure =>
    ((codec.writeError status failure state).state, (codec.writeError status failure state).notices)

/-- The state after uses in a row, and what is reported meanwhile. -/
def uses : codec.State → List Use → codec.State × List Notice
  | state, [] => (state, [])
  | state, first :: rest =>
    let (middle, notices) := codec.use state first
    let (last, later) := uses middle rest
    (last, notices ++ later)

end Codec

namespace Enveloped

variable (F : WireFormat) (body : Bytes)

/-- The state in which a body is held, according to whether there has been a question. -/
def held (asked : Bool) : F.codec.State :=
  (⟨body, if asked then some (outcome F body) else none⟩ : Enveloped)

/-- A question leaves the body decoded, and reports so if it is the first. -/
theorem use_held (asked : Bool) (use : Codec.Use) :
    F.codec.use (held F body asked) use =
      (held F body (asked || use.isQuestion),
        if use.isQuestion && !asked then [.decoded] else []) := by
  cases use with
  | method => cases asked <;> rfl
  | read => cases asked <;> rfl
  | reply value => cases asked <;> rfl
  | error status failure => cases asked <;> rfl

/-- Of any uses in a row, the first question decodes the body, and nothing else happens to it. -/
theorem uses_held (asked : Bool) (uses : List Codec.Use) :
    F.codec.uses (held F body asked) uses =
      (held F body (asked || uses.any Codec.Use.isQuestion),
        if uses.any Codec.Use.isQuestion && !asked then [.decoded] else []) := by
  induction uses generalizing asked with
  | nil => cases asked <;> rfl
  | cons first rest ih =>
      simp only [Codec.uses, use_held, ih, List.any_cons, ← Bool.or_assoc]
      by_cases question : first.isQuestion = true
      · cases asked <;> simp [question]
      · cases asked <;> simp [question]

theorem asked_held (asked : Bool) :
    F.codec.Asked (⟨body, none⟩ : Enveloped) (held F body asked) := by
  cases asked with
  | false => exact .opened
  | true =>
      have decoded : (F.codec.method (held F body false)).state = held F body true :=
        congrArg Prod.fst (use_held F body false .method)
      exact decoded ▸ .method .opened

theorem held_of_readCall {F : WireFormat} {body : Bytes} {call : Call}
    (readable : F.readCall body = .ok call) :
    held F body true = (⟨body, some (.ok call)⟩ : Enveloped) := by
  rw [held, outcome, readable]
  rfl

theorem held_of_error {F : WireFormat} {body : Bytes} {e : RpcError}
    (unreadable : F.readCall body = .error e) :
    held F body true = (⟨body, some (.error e.detail)⟩ : Enveloped) := by
  rw [held, outcome, unreadable]
  rfl

end Enveloped

namespace Format

variable (format : Format)

/-! ## On demand -/

/-- Whatever a codec of envelopes has been used for, all that counts is whether there has been a
question.  The first question decodes the body, and every question has the answer that it would
have had as the first.  Before it, every response is an envelope without an identifier, even if
the request is a notification; after it, the responses are those to the call in the body, or, if
the body is no call, as before. -/
theorem decoded_on_demand (request : Request) (earlier : List Codec.Use) :
    let codec := format.wire.codec
    let start := (codec.start request).1
    let state := (codec.uses start earlier).1
    let asked := earlier.any Codec.Use.isQuestion
    ((codec.start request).2 = [] ∧
      (codec.uses start earlier).2 = (if asked then [.decoded] else []) ∧
      ∀ use, (codec.use state use).2 = if use.isQuestion && !asked then [.decoded] else []) ∧
    ((codec.method state).answer = (codec.method start).answer ∧
      (codec.read state).answer = (codec.read start).answer) ∧
    (∀ others, others.any Codec.Use.isQuestion = asked → (codec.uses start others).1 = state) ∧
    (asked = false → format.WritesUnder .null state) ∧
    (∀ call, format.wire.readCall request.body = .ok call →
      format.AnswersFrom call state ∧ (asked = true → format.WritesFor call state)) ∧
    ∀ e, format.wire.readCall request.body = .error e →
      format.wire.Refuses (.codec (.undecodable format.wire.name e.detail)) state ∧
        format.WritesUnder .null state := by
  intro codec start state asked
  have ran (uses : List Codec.Use) := Enveloped.uses_held format.wire request.body false uses
  simp only [Bool.false_or, Bool.not_false, Bool.and_true] at ran
  have reached : state = Enveloped.held format.wire request.body asked :=
    congrArg Prod.fst (ran earlier)
  have begun : codec.Asked (⟨request.body, none⟩ : Enveloped) state :=
    reached ▸ Enveloped.asked_held format.wire request.body asked
  have unasked : asked = false → format.WritesUnder .null state := by
    intro none
    rw [reached, none]
    exact format.writesUnder_null rfl rfl
  constructor
  · constructor
    · rfl
    constructor
    · exact congrArg Prod.snd (ran earlier)
    · intro use
      rw [reached]
      exact congrArg Prod.snd (Enveloped.use_held format.wire request.body asked use)
  constructor
  · have opened := Enveloped.opened_or_decoded begun
    constructor
    · exact (Enveloped.ask_eq _ opened).2.trans (Enveloped.ask_eq _ (.inl rfl)).2.symm
    · exact (Enveloped.ask_eq _ opened).2.trans (Enveloped.ask_eq _ (.inl rfl)).2.symm
  constructor
  · intro others alike
    rw [reached, ← alike]
    exact congrArg Prod.fst (ran others)
  constructor
  · exact unasked
  constructor
  · intro call readable
    constructor
    · exact format.answersFrom readable begun
    · intro question
      rw [reached, question, Enveloped.held_of_readCall readable]
      exact format.writesFor request.body call
  · intro e unreadable
    constructor
    · exact Enveloped.refuses unreadable begun
    · cases question : asked with
      | false => exact unasked question
      | true =>
          rw [reached, question, Enveloped.held_of_error unreadable]
          exact format.writesUnder_null rfl rfl

end Format

end RemoteCall
