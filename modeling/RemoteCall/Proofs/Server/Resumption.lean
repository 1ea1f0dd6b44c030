import RemoteCall.Proofs.Server.Course

/-!
# What remains of a course

What the server still has to do at a moment is `remaining`.  Behind the log of
the moment it is the same at every moment of a course: a stage that succeeds
moves what it does from the rest into the log (`Advances.resumed_eq`), and a
stage that fails is all that is left (`Halts.resumed_eq`).
-/

namespace RemoteCall

variable {A : Application}

/-- Playing a script leaves the server as it is. -/
theorem Script.Plays.runScript_eq {script : Script A} {notes : List String}
    {context : A.Context} {outcome : Except String Unit}
    (plays : script.Plays notes context outcome) (now : Server A) :
    Server.runScript script now = ⟨now, context, notes.map .note, outcome⟩ := by
  induction plays with
  | finish context outcome => rfl
  | note text _ ih =>
      rw [Server.runScript, ih]
      rfl

namespace Server

variable {codec : Codec} (request : Request)

/-! ## What remains to be done -/

/-- A stage behind what has happened before it. -/
def behind {σ : Type} {α : Type} (log : List Event) (stage : Stage A σ α) : Stage A σ α :=
  { stage with events := log ++ stage.events }

@[simp]
theorem behind_nil {σ : Type} {α : Type} (stage : Stage A σ α) : behind [] stage = stage :=
  rfl

@[simp]
theorem behind_behind {σ : Type} {α : Type} (log more : List Event) (stage : Stage A σ α) :
    behind log (behind more stage) = behind (log ++ more) stage := by
  simp [behind]

/-- After a stage that has succeeded comes the next one, behind its events. -/
theorem andThen_eq_behind {σ : Type} {α : Type*} {β : Type} {stage : Stage A σ α} {found : α}
    (done : stage.outcome = .ok found) (next : Server A → σ → α → Stage A σ β) :
    stage.andThen next = behind stage.events (next stage.server stage.state found) :=
  Stage.andThen_of_ok done next

theorem behind_andThen {σ : Type} {α β : Type} (log : List Event) (stage : Stage A σ α)
    (next : Server A → σ → α → Stage A σ β) :
    (behind log stage).andThen next = behind log (stage.andThen next) := by
  cases outcome : stage.outcome with
  | error failure => simp [Stage.andThen, behind, outcome]
  | ok found => simp [Stage.andThen, behind, outcome]

/-- The hooks of a phase from the given place on. -/
def phaseFrom {σ : Type} (phase : Phase) (index : Nat) (context : A.Context) (now : Server A)
    (state : σ) : Stage A σ A.Context :=
  let ran := runHooks phase request index ((now.hooks phase).drop index) context now
  ⟨ran.server, state, ran.events,
    match ran.outcome with
    | .error message => .error (.hook message)
    | .ok () => .ok ran.context⟩

/-- From an after-hook on. -/
def fromAfter {σ : Type} (index : Nat) (context : A.Context) (reply : Value) (now : Server A)
    (state : σ) : Stage A σ Value :=
  (phaseFrom request .after index context now state).andThen fun now state _ =>
    Stage.ofResult now state (.ok reply)

/-- From the conversion of the reply on. -/
def fromConversion {σ : Type} (descriptor : Descriptor A) (context : A.Context)
    (reply : descriptor.method.Reply) (now : Server A) (state : σ) : Stage A σ Value :=
  match (descriptor.method.encode reply).toValue with
  | .ok value => fromAfter request 0 context value now state
  | .error reason => Stage.ofResult now state (.error (.reply reason))

/-- From the run of the method on. -/
def fromHandler {σ : Type} (descriptor : Descriptor A) (context : A.Context)
    (args : descriptor.method.Args) (now : Server A) (state : σ) : Stage A σ Value :=
  let run := now.handle descriptor context args
  behind (callLog descriptor run.notes) <|
    match run.outcome with
    | .ok reply =>
      fromConversion request descriptor run.context reply (now.keep descriptor run.receiver) state
    | .error message =>
      Stage.ofResult (now.keep descriptor run.receiver) state (.error (.handler message))

/-- From the decoding of the argument on. -/
def fromDecoding {σ : Type} (descriptor : Descriptor A) (context : A.Context) (params : Value)
    (now : Server A) (state : σ) : Stage A σ Value :=
  (invoke descriptor context params now state).andThen fun now state (context, reply) =>
    fromAfter request 0 context reply now state

/-- From the question for the argument on. -/
def fromArgument (descriptor : Descriptor A) (context : A.Context) (now : Server A)
    (state : codec.State) : Stage A codec.State Value :=
  (Stage.ofStep now (codec.read state)).andThen fun now state params =>
    fromDecoding request descriptor context params now state

/-- From a before-hook on. -/
def fromBefore (descriptor : Descriptor A) (index : Nat) (context : A.Context) (now : Server A)
    (state : codec.State) : Stage A codec.State Value :=
  (phaseFrom request .before index context now state).andThen fun now state context =>
    fromArgument request descriptor context now state

/-- From the look-up of the method on. -/
def fromLookup (name : String) (now : Server A) (state : codec.State) :
    Stage A codec.State Value :=
  (Stage.ofResult now state (now.registry.get name)).andThen fun now state descriptor =>
    fromBefore request descriptor 0 A.fresh now state

/-- From the question for the method on. -/
def fromName (now : Server A) (state : codec.State) : Stage A codec.State Value :=
  (Stage.ofStep now (codec.method state)).andThen fun now state name =>
    fromLookup request name now state

/-- What the server still has to do. -/
def remaining (now : Server A) (state : codec.State) : Point A → Stage A codec.State Value
  | .size => dispatch codec request now state
  | .name => fromName request now state
  | .lookup name => fromLookup request name now state
  | .before descriptor index context => fromBefore request descriptor index context now state
  | .argument descriptor context => fromArgument request descriptor context now state
  | .decoding descriptor context params =>
    fromDecoding request descriptor context params now state
  | .handler descriptor context args => fromHandler request descriptor context args now state
  | .conversion descriptor context reply =>
    fromConversion request descriptor context reply now state
  | .after _ index context reply => fromAfter request index context reply now state
  | .encoding _ reply => Stage.ofResult now state (.ok reply)

/-- What the server has done and still has to do. -/
def resumed (moment : Moment A codec.State) : Stage A codec.State Value :=
  behind moment.log (remaining request moment.server moment.state moment.point)

/-! ## Step lemmas -/

theorem dispatch_eq (now : Server A) (state : codec.State) :
    dispatch codec request now state =
      (Stage.ofResult now state (now.checkSize request)).andThen fun now state _ =>
        fromName request now state :=
  rfl

variable {request}

theorem fromName_of_ok {now : Server A} {state : codec.State} {name : String}
    (named : (codec.method state).answer = .ok name) :
    fromName request now state =
      behind (codec.method state).events
        (fromLookup request name now (codec.method state).state) := by
  have done : (Stage.ofStep now (codec.method state)).outcome = .ok name := named
  exact andThen_eq_behind done _

theorem fromArgument_of_ok {descriptor : Descriptor A} {context : A.Context} {now : Server A}
    {state : codec.State} {params : Value} (read : (codec.read state).answer = .ok params) :
    fromArgument request descriptor context now state =
      behind (codec.read state).events
        (fromDecoding request descriptor context params now (codec.read state).state) := by
  have done : (Stage.ofStep now (codec.read state)).outcome = .ok params := read
  exact andThen_eq_behind done _

/-- A hook that succeeds leads to the hooks after it. -/
theorem phaseFrom_of_success {σ : Type} {phase : Phase} {index : Nat} {context next : A.Context}
    {now : Server A} {hook : Hook A} {notes : List String} (state : σ)
    (found : (now.hooks phase)[index]? = some hook)
    (plays : (hook request context).Plays notes next (.ok ())) :
    phaseFrom request phase index context now state =
      behind (hookLog phase index notes) (phaseFrom request phase (index + 1) next now state) := by
  rcases List.getElem?_eq_some_iff.1 found with ⟨inside, hookEq⟩
  have rest : (now.hooks phase).drop index = hook :: (now.hooks phase).drop (index + 1) := by
    rw [List.drop_eq_getElem_cons inside, hookEq]
  simp [phaseFrom, rest, runHooks, plays.runScript_eq, behind, hookLog]

/-- A hook that fails ends its phase. -/
theorem phaseFrom_of_failure {σ : Type} {phase : Phase} {index : Nat} {context next : A.Context}
    {now : Server A} {hook : Hook A} {notes : List String} {message : String} (state : σ)
    (found : (now.hooks phase)[index]? = some hook)
    (plays : (hook request context).Plays notes next (.error message)) :
    phaseFrom request phase index context now state =
      ⟨now, state, hookLog phase index notes, .error (.hook message)⟩ := by
  rcases List.getElem?_eq_some_iff.1 found with ⟨inside, hookEq⟩
  have rest : (now.hooks phase).drop index = hook :: (now.hooks phase).drop (index + 1) := by
    rw [List.drop_eq_getElem_cons inside, hookEq]
  simp [phaseFrom, rest, runHooks, plays.runScript_eq, hookLog]

/-- Behind the last hook a phase has succeeded. -/
theorem phaseFrom_length {σ : Type} (phase : Phase) (context : A.Context) (now : Server A)
    (state : σ) :
    phaseFrom request phase (now.hooks phase).length context now state =
      ⟨now, state, [], .ok context⟩ := by
  simp [phaseFrom, runHooks]

theorem fromDecoding_of_ok {σ : Type} {descriptor : Descriptor A} {context : A.Context}
    {params : Value} {args : descriptor.method.Args} (now : Server A) (state : σ)
    (decoded : descriptor.method.decode params = .ok args) :
    fromDecoding request descriptor context params now state =
      fromHandler request descriptor context args now state := by
  simp only [fromDecoding, invoke, Method.call, decoded, fromHandler, fromConversion, handle]
  cases descriptor.method.run (now.receiverOf descriptor) context args
      descriptor.method.blank with
  | mk receiver context notes outcome =>
      cases outcome with
      | error message =>
          simp [Stage.andThen, Except.map, behind, callLog, Stage.ofResult, keep]
      | ok reply =>
          cases converted : (descriptor.method.encode reply).toValue with
          | error reason =>
              have failed : (Except.error reason).mapError RpcError.reply
                  = (.error (.reply reason) : Except RpcError Value) := rfl
              simp [Stage.andThen, Except.map, converted, failed, behind, callLog, Stage.ofResult,
                keep]
          | ok value =>
              have replied : (Except.ok value).mapError RpcError.reply = .ok value := rfl
              simp [Stage.andThen, Except.map, converted, replied, behind, callLog, keep]

theorem fromDecoding_of_error {σ : Type} {descriptor : Descriptor A} {context : A.Context}
    {params : Value} {mismatch : Mismatch} (now : Server A) (state : σ)
    (refused : descriptor.method.decode params = .error mismatch) :
    fromDecoding request descriptor context params now state =
      ⟨now, state, [], .error (.invalidParams mismatch)⟩ := by
  simp [fromDecoding, invoke, Method.call, refused, Stage.andThen, Except.map]

/-- A stage that succeeds moves what it does from the rest into the log. -/
theorem Advances.resumed_eq {moment next : Moment A codec.State}
    (advances : Advances codec request moment next) :
    resumed request moment = resumed request next := by
  cases advances with
  | @size now state log fits =>
      have checked : now.checkSize request = .ok () := if_neg (Nat.not_lt.2 fits)
      simp [resumed, remaining, dispatch_eq, checked, andThen_eq_behind, Stage.ofResult]
  | name named =>
      simp [resumed, remaining, fromName_of_ok named]
  | lookup found =>
      simp [resumed, remaining, fromLookup, found, andThen_eq_behind, Stage.ofResult]
  | @before now state log descriptor index context hook notes next found plays =>
      simp [resumed, remaining, fromBefore, phaseFrom_of_success state found plays,
        behind_andThen]
  | beforeDone =>
      simp [resumed, remaining, fromBefore, phaseFrom_length, Stage.andThen, behind]
  | argument read =>
      simp [resumed, remaining, fromArgument_of_ok read]
  | decoding decoded =>
      simp [resumed, remaining, fromDecoding_of_ok _ _ decoded]
  | handler returned =>
      simp [resumed, remaining, fromHandler, returned]
  | conversion converted =>
      simp [resumed, remaining, fromConversion, converted]
  | @after now state log descriptor index context value hook notes next found plays =>
      simp [resumed, remaining, fromAfter, phaseFrom_of_success state found plays, behind_andThen]
  | afterDone =>
      simp [resumed, remaining, fromAfter, phaseFrom_length, Stage.andThen, behind, Stage.ofResult]

/-- The stage that fails leaves its error as the outcome of everything. -/
theorem Halts.resumed_eq {moment : Moment A codec.State} {failure : RpcError} {now : Server A}
    {state : codec.State} {log : List Event}
    (halts : Halts codec request moment failure now state log) :
    resumed request moment = ⟨now, state, log, .error failure⟩ := by
  cases halts with
  | @size now state log exceeds =>
      have checked : now.checkSize request =
          .error (.bodyTooLarge request.body.length now.config.maxBodySize) := if_pos exceeds
      simp [resumed, remaining, dispatch_eq, checked, Stage.andThen, Stage.ofResult, behind]
  | name failed =>
      simp [resumed, remaining, fromName, Stage.ofStep, Stage.andThen, failed, behind]
  | lookup failed =>
      simp [resumed, remaining, fromLookup, Stage.ofResult, Stage.andThen, failed, behind]
  | @before now state log descriptor index context hook notes next message found plays =>
      simp [resumed, remaining, fromBefore, phaseFrom_of_failure state found plays,
        Stage.andThen, behind]
  | argument failed =>
      simp [resumed, remaining, fromArgument, Stage.ofStep, Stage.andThen, failed, behind]
  | decoding refused =>
      simp [resumed, remaining, fromDecoding_of_error _ _ refused, behind]
  | handler failed =>
      simp [resumed, remaining, fromHandler, failed, Stage.ofResult, behind]
  | conversion failed =>
      simp [resumed, remaining, fromConversion, failed, Stage.ofResult, behind]
  | @after now state log descriptor index context value hook notes next message found plays =>
      simp [resumed, remaining, fromAfter, phaseFrom_of_failure state found plays,
        Stage.andThen, behind]

/-- Along a course, what has been done and what remains to be done stay the
same in all. -/
theorem Reaches.resumed_eq {server : Server A} {moment : Moment A codec.State}
    (reaches : Reaches codec server request moment) :
    resumed request moment = resumed request (opening codec server request) := by
  induction reaches with
  | refl => rfl
  | tail _ advances ih => rw [← advances.resumed_eq, ih]

end Server

end RemoteCall
