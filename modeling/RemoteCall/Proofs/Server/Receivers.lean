import RemoteCall.Proofs.Server.Arising

/-!
# What a request has to do with receivers

Up to the run of its method a request takes the same course whatever the receivers
are (`Reaches.withReceivers`), and behind it everything goes by what that run has
left behind.  So there is a `Plan` for each request: to answer without running a
method, or to run one method, with a context and an argument, and to answer by what
its run leaves behind.  A server without registering hooks follows the same plan
whatever its receivers are (`exists_follows`).
-/

namespace RemoteCall.Server

variable {A : Application}

/-- The server with other receivers. -/
def withReceivers (server : Server A) (receivers : Table A.Receiver) : Server A :=
  { server with receivers }

theorem Quiet.withReceivers {server : Server A} (quiet : server.Quiet)
    (receivers : Table A.Receiver) : (server.withReceivers receivers).Quiet := by
  intro phase hook mem
  cases phase with
  | before => exact quiet .before hook mem
  | after => exact quiet .after hook mem

/-! ## Up to the run of the method -/

/-- The stages up to the run of the method. -/
def Point.Early : Point A → Prop
  | .conversion .. | .after .. | .encoding .. => False
  | _ => True

/-- The moment on a server with other receivers. -/
def Moment.withReceivers {σ : Type} (moment : Moment A σ) (receivers : Table A.Receiver) :
    Moment A σ :=
  { moment with server := moment.server.withReceivers receivers }

variable {codec : Codec} {request : Request} {server : Server A}

/-- Before the method runs, every stage leaves the server as it is and succeeds whatever the
receivers are. -/
theorem Advances.withReceivers {moment next : Moment A codec.State}
    (advances : Advances codec request moment next) (early : next.point.Early) :
    moment.point.Early ∧ next.server = moment.server ∧ ∀ receivers,
      Advances codec request (moment.withReceivers receivers) (next.withReceivers receivers) := by
  cases advances with
  | size fits => exact ⟨trivial, rfl, fun _ => .size fits⟩
  | name named => exact ⟨trivial, rfl, fun _ => .name named⟩
  | lookup found => exact ⟨trivial, rfl, fun _ => .lookup found⟩
  | before found plays => exact ⟨trivial, rfl, fun _ => .before found plays⟩
  | @beforeDone now state log descriptor context =>
      exact ⟨trivial, rfl, fun receivers =>
        @Advances.beforeDone _ _ _ (now.withReceivers receivers) state log descriptor context⟩
  | argument read => exact ⟨trivial, rfl, fun _ => .argument read⟩
  | decoding decoded => exact ⟨trivial, rfl, fun _ => .decoding decoded⟩
  | _ => exact early.elim

/-- Up to the run of the method, a course leaves the server as it is and is taken whatever the
receivers are. -/
theorem Reaches.withReceivers {moment : Moment A codec.State}
    (reaches : Reaches codec server request moment) (early : moment.point.Early) :
    moment.server = server ∧ ∀ receivers,
      Reaches codec (server.withReceivers receivers) request (moment.withReceivers receivers) := by
  induction reaches with
  | refl => exact ⟨rfl, fun _ => .refl⟩
  | tail _ advances ih =>
      rcases advances.withReceivers early with ⟨earlier, same, advances⟩
      rcases ih earlier with ⟨kept, reaches⟩
      exact ⟨same.trans kept, fun receivers => (reaches receivers).tail (advances receivers)⟩

/-- Whether a method is called, and with what, does not depend on receivers. -/
theorem Enters.withReceivers {point : Point A} (enters : server.Enters request point)
    (early : point.Early) (receivers : Table A.Receiver) :
    (server.withReceivers receivers).Enters request point := by
  rcases enters with ⟨post, codec, selected, now, state, log, reaches⟩
  exact ⟨post, codec, selected, now.withReceivers receivers, state, log,
    (reaches.withReceivers early).2 receivers⟩

/-- Behind the run of a method lies the stage of that method. -/
theorem Reaches.exists_handler {moment : Moment A codec.State}
    (reaches : Reaches codec server request moment) (late : ¬ moment.point.Early) :
    ∃ descriptor context args now state log,
      Reaches codec server request ⟨.handler descriptor context args, now, state, log⟩ := by
  induction reaches with
  | refl => exact absurd trivial late
  | tail reaches advances ih =>
      cases advances with
      | handler => exact ⟨_, _, _, _, _, _, reaches⟩
      | conversion | after | afterDone => exact ih id
      | _ => exact absurd trivial late

/-- Every stage but the run of the method fails whatever the receivers are, and leaves the
server as it is. -/
theorem Halts.withReceivers {moment : Moment A codec.State} {failure : RpcError}
    {now : Server A} {state : codec.State} {log : List Event}
    (halts : Halts codec request moment failure now state log)
    (apart : ∀ descriptor context args, moment.point ≠ .handler descriptor context args) :
    now = moment.server ∧ ∀ receivers,
      Halts codec request (moment.withReceivers receivers) failure
        (moment.server.withReceivers receivers) state log := by
  cases halts with
  | size exceeds => exact ⟨rfl, fun _ => .size exceeds⟩
  | name failed => exact ⟨rfl, fun _ => .name failed⟩
  | lookup failed => exact ⟨rfl, fun _ => .lookup failed⟩
  | before found plays => exact ⟨rfl, fun _ => .before found plays⟩
  | argument failed => exact ⟨rfl, fun _ => .argument failed⟩
  | decoding refused => exact ⟨rfl, fun _ => .decoding refused⟩
  | handler => exact absurd rfl (apart _ _ _)
  | conversion failed => exact ⟨rfl, fun _ => .conversion failed⟩
  | after found plays => exact ⟨rfl, fun _ => .after found plays⟩

/-! ## What a request is resolved to -/

/-- The server finds a method for a request, with the codec that it chooses. -/
def Resolves (server : Server A) (request : Request) (descriptor : Descriptor A) : Prop :=
  request.verb = "POST" ∧ ∃ codec, server.selectCodec request = .ok codec ∧
    ResolvesTo codec server request descriptor

theorem Resolves.unique {descriptor descriptor' : Descriptor A}
    (resolves : server.Resolves request descriptor)
    (resolves' : server.Resolves request descriptor') : descriptor = descriptor' := by
  rcases resolves with ⟨_, codec, selected, found⟩
  rcases resolves' with ⟨_, codec', selected', found'⟩
  obtain rfl := Except.ok.inj (selected.symm.trans selected')
  exact found.unique found'

theorem Resolves.exists_get {descriptor : Descriptor A}
    (resolves : server.Resolves request descriptor) :
    ∃ name, server.registry.get name = .ok descriptor := by
  rcases resolves with ⟨_, codec, _, found⟩
  rcases found.named with ⟨name, _, found⟩
  exact ⟨name, found⟩

/-- What the stages before a moment have found out about the method. -/
def Moment.Resolved (codec : Codec) (server : Server A) (request : Request)
    (moment : Moment A codec.State) : Prop :=
  let start := (codec.start request).1
  match moment.point with
  | .size => moment.state = start
  | .name => moment.state = start ∧ request.body.length ≤ server.config.maxBodySize
  | .lookup name =>
    (codec.method start).answer = .ok name ∧ request.body.length ≤ server.config.maxBodySize
  | .before descriptor .. | .argument descriptor .. | .decoding descriptor ..
  | .handler descriptor .. | .conversion descriptor .. | .after descriptor ..
  | .encoding descriptor .. => ResolvesTo codec server request descriptor

theorem Reaches.resolved {moment : Moment A codec.State}
    (reaches : Reaches codec server request moment) : moment.Resolved codec server request := by
  induction reaches with
  | refl => rfl
  | tail reaches advances ih =>
      cases advances with
      | size fits =>
          obtain rfl := (Reaches.withReceivers reaches trivial).1
          exact ⟨ih, fits⟩
      | name named =>
          obtain ⟨rfl, fits⟩ := ih
          exact ⟨named, fits⟩
      | lookup found =>
          obtain rfl := (Reaches.withReceivers reaches trivial).1
          exact ⟨ih.2, _, ih.1, found⟩
      | _ => exact ih

/-- The method that a request calls is the one that it is resolved to. -/
theorem Enters.resolves {descriptor : Descriptor A} {context : A.Context}
    {args : descriptor.method.Args}
    (enters : server.Enters request (.handler descriptor context args)) :
    server.Resolves request descriptor := by
  rcases enters with ⟨post, codec, selected, now, state, log, reaches⟩
  exact ⟨post, codec, selected, reaches.resolved⟩

/-! ## Behind the run of the method -/

/-- Hooks that register nothing leave the server as it is and do the same on every server. -/
theorem runHooks_of_quiet {hooks : List (Hook A)}
    (quiet : ∀ hook ∈ hooks, ∀ context, (hook request context).Quiet) (phase : Phase)
    (index : Nat) (context : A.Context) (now now' : Server A) :
    runHooks phase request index hooks context now =
      { runHooks phase request index hooks context now' with server := now } := by
  induction hooks generalizing index context with
  | nil => rfl
  | cons hook hooks ih =>
      rcases (quiet hook List.mem_cons_self context).exists_plays with
        ⟨notes, next, outcome, plays⟩
      have others := ih (fun other mem => quiet other (List.mem_cons_of_mem _ mem))
      cases outcome with
      | error message => simp only [runHooks, plays.runScript_eq]
      | ok => simp only [runHooks, plays.runScript_eq, others (index + 1) next]

/-- The conversion of a reply and the hooks after it leave the server as it is and do the
same whatever the receivers are. -/
theorem resumed_conversion (quiet : server.Quiet) {descriptor : Descriptor A}
    (context : A.Context) (reply : descriptor.method.Reply) (state : codec.State)
    (log : List Event) (receivers : Table A.Receiver) :
    resumed request (⟨.conversion descriptor context reply, server.withReceivers receivers, state,
        log⟩ : Moment A codec.State) =
      { resumed request (⟨.conversion descriptor context reply, server, state, log⟩ :
          Moment A codec.State) with
        server := server.withReceivers receivers } := by
  cases converted : (descriptor.method.encode reply).toValue with
  | error reason =>
      rw [(Halts.conversion converted).resumed_eq, (Halts.conversion converted).resumed_eq]
  | ok value =>
      have same := runHooks_of_quiet (fun hook mem => quiet .after hook mem request) .after 0
        context (server.withReceivers receivers) server
      rw [(Advances.conversion converted).resumed_eq, (Advances.conversion converted).resumed_eq,
        resumed_after, resumed_after]
      exact congrArg (fun ran : Ran A => (⟨ran.server, state, log ++ ran.events,
        (ran.outcome.mapError .hook).map fun _ => value⟩ : Stage A codec.State Value)) same

/-- What becomes of a request whose method has run, but for the receiver. -/
def settle (request : Request) (server : Server A) (state : codec.State) (log : List Event)
    (descriptor : Descriptor A) (run : Invocation A descriptor.method.Reply) :
    Stage A codec.State Value :=
  match run.outcome with
  | .error message =>
    ⟨server, state, log ++ callLog descriptor run.notes, .error (.handler message)⟩
  | .ok reply =>
    resumed request
      ⟨.conversion descriptor run.context reply, server, state,
        log ++ callLog descriptor run.notes⟩

/-- From its method on, a request depends on receivers by the run of the method only. -/
theorem resumed_handler_eq_settle (quiet : server.Quiet) (descriptor : Descriptor A)
    (context : A.Context) (args : descriptor.method.Args) (state : codec.State)
    (log : List Event) (receivers : Table A.Receiver) :
    let now := server.withReceivers receivers
    let run := now.handle descriptor context args
    resumed request (⟨.handler descriptor context args, now, state, log⟩ : Moment A codec.State) =
      { settle request server state log descriptor run with
        server := now.keep descriptor run.receiver } := by
  intro now run
  cases returned : run.outcome with
  | error message =>
      rw [(Halts.handler returned).resumed_eq, settle, returned]
  | ok reply =>
      rw [(Advances.handler returned).resumed_eq, settle, returned]
      exact resumed_conversion quiet run.context reply state _
        (now.receivers.insert descriptor.service run.receiver)

theorem conclude_withServer (codec : Codec) (stage : Stage A codec.State Value)
    (server : Server A) :
    conclude codec { stage with server } = { conclude codec stage with server } := by
  rcases stage with ⟨now, state, events, outcome⟩
  cases outcome with
  | error failure => rfl
  | ok reply => rfl

/-! ## Plans -/

/-- What there is to do for a request. -/
inductive Plan (A : Application) : Type 1 where
  /-- To answer, without running a method. -/
  | idle (events : List Event) (response : Response)
  /-- To run a method, and to answer by what it leaves behind. -/
  | call (descriptor : Descriptor A) (context : A.Context) (args : descriptor.method.Args)
      (events : Invocation A descriptor.method.Reply → List Event)
      (response : Invocation A descriptor.method.Reply → Response)

/-- Does what there is to do. -/
def Plan.carryOut : Plan A → Server A → Served A
  | .idle events response, server => ⟨server, events, response⟩
  | .call descriptor context args events response, server =>
    let run := server.handle descriptor context args
    ⟨server.keep descriptor run.receiver, events run, response run⟩

/-- Whether a plan runs a method exactly if the request gets to that method. -/
def Plan.Suits (server : Server A) (request : Request) : Plan A → Prop
  | .idle .. => ∀ descriptor context args,
      ¬ server.Enters request (.handler descriptor context args)
  | .call descriptor context args .. => server.Enters request (.handler descriptor context args)

/-- A server serves a request by a plan, whatever its receivers are. -/
structure Follows (server : Server A) (request : Request) (plan : Plan A) : Prop where
  suits : plan.Suits server request
  serve_eq : ∀ receivers, (server.withReceivers receivers).serve request =
    plan.carryOut (server.withReceivers receivers)

/-- A request that no codec answers is answered by the server alone. -/
theorem serve_of_refused (server : Server A) {request : Request}
    (refused : ¬ (request.verb = "POST" ∧ ∃ codec, server.selectCodec request = .ok codec)) :
    ∃ failure, ∀ receivers, (server.withReceivers receivers).serve request =
      (server.withReceivers receivers).refuse failure := by
  by_cases post : request.verb = "POST"
  · cases selected : server.selectCodec request with
    | error failure =>
        refine ⟨failure, fun receivers => ?_⟩
        have failed : (server.withReceivers receivers).selectCodec request = .error failure :=
          selected
        rw [serve, if_neg (not_not_intro post), failed]
    | ok codec => exact absurd ⟨post, codec, selected⟩ refused
  · exact ⟨_, fun receivers => if_pos post⟩

/-- A request that gets to a method is served by a plan that runs it. -/
theorem exists_follows_of_enters (quiet : server.Quiet) {descriptor : Descriptor A}
    {context : A.Context} {args : descriptor.method.Args}
    (enters : server.Enters request (.handler descriptor context args)) :
    ∃ plan, server.Follows request plan := by
  rcases enters with ⟨post, codec, selected, now, state, log, reaches⟩
  obtain ⟨rfl, reaches'⟩ := reaches.withReceivers trivial
  let answer := fun run => conclude codec (settle request now state log descriptor run)
  refine ⟨.call descriptor context args (fun run => (answer run).events)
    (fun run => (answer run).response), ?_, ?_⟩
  · exact ⟨post, codec, selected, now, state, log, reaches⟩
  · intro receivers
    have selected' : (now.withReceivers receivers).selectCodec request = .ok codec := selected
    rw [serve_eq_conclude post selected', ← (reaches' receivers).resumed_eq,
      Moment.withReceivers, resumed_handler_eq_settle quiet, conclude_withServer]
    rfl

/-- Where no method runs, the stage that fails is the same whatever the receivers are. -/
theorem serve_of_no_method (quiet : server.Quiet) (post : request.verb = "POST")
    (selected : server.selectCodec request = .ok codec)
    (uncalled : ∀ descriptor context args,
      ¬ server.Enters request (.handler descriptor context args)) :
    ∃ events response, ∀ receivers, (server.withReceivers receivers).serve request =
      ⟨server.withReceivers receivers, events, response⟩ := by
  have unreached : ∀ descriptor context args now state log,
      ¬ Reaches codec server request ⟨.handler descriptor context args, now, state, log⟩ := by
    intro descriptor context args now state log reaches
    exact uncalled descriptor context args ⟨post, codec, selected, now, state, log, reaches⟩
  have start : Reaches codec server request (opening codec server request) := .refl
  rcases start.exists_last quiet with ⟨last, reaches, ended⟩
  have early : last.point.Early := by
    by_contra late
    rcases reaches.exists_handler late with ⟨descriptor, context, args, now, state, log, called⟩
    exact unreached descriptor context args now state log called
  rcases ended with ⟨descriptor, value, encoding⟩ | ⟨failure, now, state, log, halts⟩
  · rw [encoding] at early
    exact early.elim
  have apart : ∀ descriptor context args, last.point ≠ .handler descriptor context args := by
    intro descriptor context args atCall
    rcases last with ⟨point, now, state, log⟩
    obtain rfl := atCall
    exact unreached descriptor context args now state log reaches
  obtain ⟨rfl, reaches'⟩ := reaches.withReceivers early
  obtain ⟨rfl, halts'⟩ := halts.withReceivers apart
  let stage : Stage A codec.State Value := ⟨last.server, state, log, .error failure⟩
  refine ⟨(conclude codec stage).events, (conclude codec stage).response, fun receivers => ?_⟩
  have selected' : (last.server.withReceivers receivers).selectCodec request = .ok codec :=
    selected
  rw [serve_eq_conclude post selected', ← (reaches' receivers).resumed_eq,
    (halts' receivers).resumed_eq]
  exact conclude_withServer codec stage _

/-- For every request there is a plan. -/
theorem exists_follows (quiet : server.Quiet) (request : Request) :
    ∃ plan, server.Follows request plan := by
  by_cases calls : ∃ descriptor context args,
    server.Enters request (.handler descriptor context args)
  · rcases calls with ⟨descriptor, context, args, enters⟩
    exact exists_follows_of_enters quiet enters
  have uncalled : ∀ descriptor context args,
      ¬ server.Enters request (.handler descriptor context args) := by
    intro descriptor context args enters
    exact calls ⟨descriptor, context, args, enters⟩
  by_cases answers : request.verb = "POST" ∧ ∃ codec, server.selectCodec request = .ok codec
  · rcases answers with ⟨post, codec, selected⟩
    rcases serve_of_no_method quiet post selected uncalled with ⟨events, response, served⟩
    exact ⟨.idle events response, uncalled, served⟩
  · rcases serve_of_refused server answers with ⟨failure, served⟩
    exact ⟨.idle [] (.plain failure.status failure.message), uncalled, served⟩

end RemoteCall.Server
