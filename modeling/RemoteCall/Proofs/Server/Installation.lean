import RemoteCall.Proofs.Server.Performance

/-!
# Registrations while a request is served

Hooks may register codecs, services and hooks with the server that is serving
their request.  `Meanwhile` says when this takes effect.  Everything in it is
about the server as it is when the request comes in: the codec, the method and
the hooks before are its own, and the hooks after are its own together with
those that the hooks before have put behind them.  All registrations are in
force once the request has been served, whatever came of it
(`serve_meanwhile`).
-/

namespace RemoteCall.Server

variable {A : Application}

/-! ## What a request is resolved to -/

/-- The server, as it is, finds a method for a request with the codec chosen for it. -/
structure ResolvesTo (codec : Codec) (server : Server A) (request : Request)
    (descriptor : Descriptor A) : Prop where
  fits : request.body.length ≤ server.config.maxBodySize
  named : ∃ name, (codec.method (codec.start request).1).answer = .ok name ∧
    server.registry.get name = .ok descriptor

theorem ResolvesTo.unique {codec : Codec} {server : Server A} {request : Request}
    {descriptor descriptor' : Descriptor A}
    (resolves : ResolvesTo codec server request descriptor)
    (resolves' : ResolvesTo codec server request descriptor') : descriptor = descriptor' := by
  rcases resolves.named with ⟨name, asked, found⟩
  rcases resolves'.named with ⟨name', asked', found'⟩
  obtain rfl := Except.ok.inj (asked.symm.trans asked')
  exact Except.ok.inj (found.symm.trans found')

/-! ## Questions and their outcomes -/

section

variable (codec : Codec) (request : Request)

/-- The question for the method, the first that a codec is asked. -/
def naming : Step codec.State (Except RpcError String) :=
  codec.method (codec.start request).1

/-- The question for the argument, which comes after it. -/
def reading : Step codec.State (Except RpcError Value) :=
  codec.read (naming codec request).state

/-- What a codec reports until it has been asked for the method. -/
def namingLog : List Event :=
  (codec.start request).2.map Notice.event ++ (naming codec request).events

end

/-- Why the server, as it is, finds no method for a request: the failure, the state in which
the codec is left, and what it has reported. -/
inductive Unresolved (codec : Codec) (server : Server A) (request : Request) :
    RpcError → codec.State → List Event → Prop where
  /-- The body is too long, and the codec is not asked anything. -/
  | size :
      server.config.maxBodySize < request.body.length →
      Unresolved codec server request
        (.bodyTooLarge request.body.length server.config.maxBodySize)
        (codec.start request).1 ((codec.start request).2.map Notice.event)
  /-- The codec names no method. -/
  | name {failure} :
      request.body.length ≤ server.config.maxBodySize →
      (naming codec request).answer = .error failure →
      Unresolved codec server request failure (naming codec request).state
        (namingLog codec request)
  /-- The server has no method of that name. -/
  | lookup {name failure} :
      request.body.length ≤ server.config.maxBodySize →
      (naming codec request).answer = .ok name → server.registry.get name = .error failure →
      Unresolved codec server request failure (naming codec request).state
        (namingLog codec request)

section

variable {codec : Codec} {server : Server A} {request : Request} {failure : RpcError}
  {state : codec.State} {log : List Event}

theorem Unresolved.not_resolvesTo (unresolved : Unresolved codec server request failure state log)
    (descriptor : Descriptor A) : ¬ ResolvesTo codec server request descriptor := by
  rintro ⟨fits, name, answered, found⟩
  cases unresolved with
  | size exceeds => exact absurd exceeds (Nat.not_lt.2 fits)
  | name _ unnamed => cases unnamed.symm.trans answered
  | lookup _ named missing =>
      obtain rfl := Except.ok.inj (named.symm.trans answered)
      cases missing.symm.trans found

@[simp]
theorem filter_isRun_namingLog (codec : Codec) (request : Request) :
    (namingLog codec request).filter isRun = [] := by
  simp [namingLog]

end

/-- What a method makes of the answer to the question for the argument: an argument that it
takes, or the failure that there is none. -/
inductive Takes (method : Method A) :
    Except RpcError Value → Except RpcError method.Args → Prop where
  | unread (failure : RpcError) : Takes method (.error failure) (.error failure)
  | mistyped {params mismatch} :
      method.decode params = .error mismatch →
      Takes method (.ok params) (.error (.invalidParams mismatch))
  | taken {params args} :
      method.decode params = .ok args → Takes method (.ok params) (.ok args)

/-- What a run of a method comes to: the neutral form of its reply, or the failure that the
method reports or that its reply has no such form. -/
inductive Returns (method : Method A) :
    Except String method.Reply → Except RpcError Value → Prop where
  | failed (message : String) : Returns method (.error message) (.error (.handler message))
  | refused {reply reason} :
      (method.encode reply).toValue = .error reason →
      Returns method (.ok reply) (.error (.reply reason))
  | value {reply value} :
      (method.encode reply).toValue = .ok value → Returns method (.ok reply) (.ok value)

/-! ## The course of a request -/

/-- What a request comes to while its hooks make the registrations `made`, between the
choice of the codec and the writing of the response. -/
inductive Meanwhile (codec : Codec) (server : Server A) (request : Request) :
    List (Registration A) → Stage A codec.State Value → Prop where
  /-- The server has no such method, and no hook runs. -/
  | unresolved {failure state log} :
      (∀ descriptor, ¬ ResolvesTo codec server request descriptor) →
      Unresolved codec server request failure state log →
      Meanwhile codec server request [] ⟨server, state, log, .error failure⟩
  /-- A hook before stops the request. -/
  | stopped {descriptor first made ran message} :
      ResolvesTo codec server request descriptor →
      HooksPerform .before request 0 first A.fresh server made ran → first <+: server.before →
      ran.outcome = .error message →
      Meanwhile codec server request made
        ⟨ran.server, (naming codec request).state, namingLog codec request ++ ran.events,
          .error (.hook message)⟩
  /-- There is no argument that the method takes. -/
  | uncalled {descriptor made ran failure} :
      ResolvesTo codec server request descriptor →
      HooksPerform .before request 0 server.before A.fresh server made ran →
      ran.outcome = .ok () →
      Takes descriptor.method (reading codec request).answer (.error failure) →
      Meanwhile codec server request made
        ⟨ran.server, (reading codec request).state,
          namingLog codec request ++ ran.events ++ (reading codec request).events,
          .error failure⟩
  /-- The method fails, or its reply has no neutral form. -/
  | unanswered {descriptor made ran args run failure} :
      ResolvesTo codec server request descriptor →
      HooksPerform .before request 0 server.before A.fresh server made ran →
      ran.outcome = .ok () →
      Takes descriptor.method (reading codec request).answer (.ok args) →
      run = ran.server.handle descriptor ran.context args →
      Returns descriptor.method run.outcome (.error failure) →
      Meanwhile codec server request made
        ⟨ran.server.keep descriptor run.receiver, (reading codec request).state,
          namingLog codec request ++ ran.events ++ (reading codec request).events
            ++ callLog descriptor run.notes,
          .error failure⟩
  /-- The method succeeds, and hooks after it run. -/
  | answered {descriptor made ran args run value afters first made' ran'} :
      ResolvesTo codec server request descriptor →
      HooksPerform .before request 0 server.before A.fresh server made ran →
      ran.outcome = .ok () →
      Takes descriptor.method (reading codec request).answer (.ok args) →
      run = ran.server.handle descriptor ran.context args →
      Returns descriptor.method run.outcome (.ok value) →
      afters = server.after ++ made.filterMap (·.hook? .after) →
      HooksPerform .after request 0 first run.context (ran.server.keep descriptor run.receiver)
        made' ran' →
      first <+: afters → (ran'.outcome = .ok () → first = afters) →
      Meanwhile codec server request (made ++ made')
        ⟨ran'.server, (reading codec request).state,
          namingLog codec request ++ ran.events ++ (reading codec request).events
            ++ callLog descriptor run.notes ++ ran'.events,
          (ran'.outcome.mapError .hook).map fun _ => value⟩

/-- The response that the codec writes to what a request has come to. -/
def conclude (codec : Codec) (stage : Stage A codec.State Value) : Served A :=
  match stage.outcome with
  | .ok reply =>
    let step := codec.writeReply reply stage.state
    ⟨stage.server, stage.events ++ step.events, noSniff step.answer⟩
  | .error failure =>
    let step := codec.writeError 400 failure stage.state
    ⟨stage.server, stage.events ++ step.events, step.answer⟩

@[simp]
theorem conclude_server (codec : Codec) (stage : Stage A codec.State Value) :
    (conclude codec stage).server = stage.server := by
  unfold conclude
  split <;> rfl

variable {codec : Codec} {server : Server A} {request : Request}

theorem serve_eq_conclude (post : request.verb = "POST")
    (selected : server.selectCodec request = .ok codec) :
    server.serve request = conclude codec (resumed request (opening codec server request)) := by
  rw [serve_eq_of_reaches post selected .refl]
  rfl

/-! ## From one phase to the next -/

theorem resumed_before (descriptor : Descriptor A) (context : A.Context) (now : Server A)
    (state : codec.State) (log : List Event) :
    let ran := runHooks .before request 0 now.before context now
    resumed request (⟨.before descriptor 0 context, now, state, log⟩ : Moment A codec.State) =
      match ran.outcome with
      | .error message => ⟨ran.server, state, log ++ ran.events, .error (.hook message)⟩
      | .ok () =>
        resumed request
          ⟨.argument descriptor ran.context, ran.server, state, log ++ ran.events⟩ := by
  intro ran
  have phase : phaseFrom request .before 0 context now state =
      ⟨ran.server, state, ran.events,
        match ran.outcome with
        | .error message => .error (.hook message)
        | .ok () => .ok ran.context⟩ := rfl
  cases outcome : ran.outcome with
  | error message =>
      simp only [resumed, remaining, fromBefore, phase, outcome, Stage.andThen, behind]
  | ok =>
      simp only [resumed, remaining, fromBefore, phase, outcome, Stage.andThen, behind,
        List.append_assoc]

theorem resumed_after (descriptor : Descriptor A) (context : A.Context) (value : Value)
    (now : Server A) (state : codec.State) (log : List Event) :
    let ran := runHooks .after request 0 now.after context now
    resumed request (⟨.after descriptor 0 context value, now, state, log⟩ : Moment A codec.State) =
      ⟨ran.server, state, log ++ ran.events,
        (ran.outcome.mapError .hook).map fun _ => value⟩ := by
  intro ran
  have phase : phaseFrom request .after 0 context now state =
      ⟨ran.server, state, ran.events,
        match ran.outcome with
        | .error message => .error (.hook message)
        | .ok () => .ok ran.context⟩ := rfl
  cases outcome : ran.outcome with
  | error message =>
      simp only [resumed, remaining, fromAfter, phase, outcome, Stage.andThen, behind]
      rfl
  | ok =>
      simp only [resumed, remaining, fromAfter, phase, outcome, Stage.andThen, behind,
        Stage.ofResult, List.append_nil]
      rfl

/-- A request that is resolved to no method ends before any hook, and any other one gets to
the hooks. -/
theorem resumed_opening (codec : Codec) (server : Server A) (request : Request) :
    (∃ failure state log, Unresolved codec server request failure state log ∧
      resumed request (opening codec server request) = ⟨server, state, log, .error failure⟩) ∨
    ∃ descriptor, ResolvesTo codec server request descriptor ∧
      resumed request (opening codec server request) =
        resumed request
          ⟨.before descriptor 0 A.fresh, server, (naming codec request).state,
            namingLog codec request⟩ := by
  have sized : opening codec server request =
      ⟨.size, server, (codec.start request).1, (codec.start request).2.map Notice.event⟩ := rfl
  rw [sized]
  rcases Nat.lt_or_ge server.config.maxBodySize request.body.length with exceeds | fits
  · left
    rw [(Halts.size exceeds).resumed_eq]
    exact ⟨_, _, _, .size exceeds, rfl⟩
  rw [(Advances.size fits).resumed_eq]
  cases named : (codec.method (codec.start request).1).answer with
  | error failure =>
      left
      rw [(Halts.name named).resumed_eq]
      exact ⟨_, _, _, .name fits named, rfl⟩
  | ok name =>
      rw [(Advances.name named).resumed_eq]
      cases found : server.registry.get name with
      | error failure =>
          left
          rw [(Halts.lookup found).resumed_eq]
          exact ⟨_, _, _, .lookup fits named found, rfl⟩
      | ok descriptor =>
          right
          rw [(Advances.lookup found).resumed_eq]
          exact ⟨descriptor, ⟨fits, name, named, found⟩, rfl⟩

/-- Behind the hooks before, either there is no argument that the method takes or the
method runs. -/
theorem resumed_argument (request : Request) (state : codec.State) (descriptor : Descriptor A)
    (context : A.Context) (now : Server A) (log : List Event) :
    let read := codec.read state
    (∃ failure, Takes descriptor.method read.answer (.error failure) ∧
      resumed request (⟨.argument descriptor context, now, state, log⟩ : Moment A codec.State) =
        ⟨now, read.state, log ++ read.events, .error failure⟩) ∨
    ∃ args, Takes descriptor.method read.answer (.ok args) ∧
      resumed request (⟨.argument descriptor context, now, state, log⟩ : Moment A codec.State) =
        resumed request
          ⟨.handler descriptor context args, now, read.state, log ++ read.events⟩ := by
  intro read
  cases answered : read.answer with
  | error failure =>
      left
      rw [(Halts.argument answered).resumed_eq]
      exact ⟨failure, .unread failure, rfl⟩
  | ok params =>
      rw [(Advances.argument answered).resumed_eq]
      cases decoded : descriptor.method.decode params with
      | error mismatch =>
          left
          rw [(Halts.decoding decoded).resumed_eq]
          exact ⟨_, .mistyped decoded, rfl⟩
      | ok args =>
          right
          rw [(Advances.decoding decoded).resumed_eq]
          exact ⟨args, .taken decoded, rfl⟩

/-- A method that runs leaves its receiver behind, and hooks after it run if it succeeds. -/
theorem resumed_handler (request : Request) (descriptor : Descriptor A) (context : A.Context)
    (args : descriptor.method.Args) (now : Server A) (state : codec.State) (log : List Event) :
    let run := now.handle descriptor context args
    let kept := now.keep descriptor run.receiver
    (∃ failure, Returns descriptor.method run.outcome (.error failure) ∧
      resumed request (⟨.handler descriptor context args, now, state, log⟩ :
          Moment A codec.State) =
        ⟨kept, state, log ++ callLog descriptor run.notes, .error failure⟩) ∨
    ∃ value, Returns descriptor.method run.outcome (.ok value) ∧
      resumed request (⟨.handler descriptor context args, now, state, log⟩ :
          Moment A codec.State) =
        resumed request
          ⟨.after descriptor 0 run.context value, kept, state,
            log ++ callLog descriptor run.notes⟩ := by
  intro run kept
  cases returned : run.outcome with
  | error message =>
      left
      rw [(Halts.handler returned).resumed_eq]
      exact ⟨_, .failed message, rfl⟩
  | ok reply =>
      rw [(Advances.handler returned).resumed_eq]
      cases converted : (descriptor.method.encode reply).toValue with
      | error reason =>
          left
          rw [(Halts.conversion converted).resumed_eq]
          exact ⟨_, .refused converted, rfl⟩
      | ok value =>
          right
          rw [(Advances.conversion converted).resumed_eq]
          exact ⟨value, .value converted, rfl⟩

/-- Whatever its hooks register, a request takes a course that `Meanwhile` allows. -/
theorem exists_meanwhile (codec : Codec) (server : Server A) (request : Request) :
    ∃ made,
      Meanwhile codec server request made (resumed request (opening codec server request)) := by
  rcases resumed_opening codec server request with
    ⟨failure, state, log, unresolved, same⟩ | ⟨descriptor, resolves, same⟩
  · rw [same]
    exact ⟨[], .unresolved unresolved.not_resolvesTo unresolved⟩
  rw [same, resumed_before]
  rcases exists_hooksPerform .before request 0 server.before A.fresh server with
    ⟨first, made, isFirst, whole, performs⟩
  generalize runHooks .before request 0 server.before A.fresh server = ran at whole performs ⊢
  cases outcome : ran.outcome with
  | error message => exact ⟨made, .stopped resolves performs isFirst outcome⟩
  | ok =>
      obtain rfl := whole outcome
      simp only
      rcases resumed_argument request (naming codec request).state descriptor ran.context
          ran.server (namingLog codec request ++ ran.events) with
        ⟨failure, untaken, same⟩ | ⟨args, taken, same⟩
      · rw [same]
        exact ⟨made, .uncalled resolves performs outcome untaken⟩
      rw [same]
      rcases resumed_handler request descriptor ran.context args ran.server
          (reading codec request).state
          (namingLog codec request ++ ran.events ++ (reading codec request).events) with
        ⟨failure, failed, same⟩ | ⟨value, returned, same⟩
      · rw [reading] at same
        rw [same]
        exact ⟨made, .unanswered resolves performs outcome taken rfl failed⟩
      rw [reading] at same
      rw [same, resumed_after]
      have afters : ran.server.after = server.after ++ made.filterMap (·.hook? .after) :=
        hooks_registerAll performs.registerAll_eq .after
      rcases exists_hooksPerform .after request 0 ran.server.after
          (ran.server.handle descriptor ran.context args).context
          (ran.server.keep descriptor (ran.server.handle descriptor ran.context args).receiver) with
        ⟨first', made', isFirst', whole', performs'⟩
      exact ⟨made ++ made', .answered resolves performs outcome taken rfl returned afters
        performs' isFirst' whole'⟩

/-! ## What is in force afterwards -/

section

variable {made : List (Registration A)} {stage : Stage A codec.State Value}

/-- The server left behind is, but for a receiver, the one on which the registrations have
been made. -/
theorem Meanwhile.registered (meanwhile : Meanwhile codec server request made stage) :
    ∃ last, server.registerAll made = .ok last ∧
      stage.server = { last with receivers := stage.server.receivers } := by
  cases meanwhile with
  | unresolved => exact ⟨server, rfl, rfl⟩
  | stopped _ performs => exact ⟨_, performs.registerAll_eq, rfl⟩
  | uncalled _ performs => exact ⟨_, performs.registerAll_eq, rfl⟩
  | unanswered _ performs => exact ⟨_, performs.registerAll_eq, rfl⟩
  | @answered _ _ ran _ _ _ _ _ _ ran' _ performs _ _ _ _ _ performs' =>
      have later := registerAll_withReceivers performs'.registerAll_eq ran.server.receivers
      refine ⟨{ ran'.server with receivers := ran.server.receivers }, ?_, rfl⟩
      rw [registerAll_append_of_ok performs.registerAll_eq]
      exact later

end

/-- A request with a codec takes a course that `Meanwhile` allows, and any other one leaves
the server as it is. -/
theorem serve_cases (server : Server A) (request : Request) :
    (∃ codec made stage, request.verb = "POST" ∧ server.selectCodec request = .ok codec ∧
      Meanwhile codec server request made stage ∧ server.serve request = conclude codec stage) ∨
    (¬ (request.verb = "POST" ∧ ∃ codec, server.selectCodec request = .ok codec) ∧
      (server.serve request).server = server) := by
  by_cases post : request.verb = "POST"
  · cases selected : server.selectCodec request with
    | ok codec =>
        rcases exists_meanwhile codec server request with ⟨made, meanwhile⟩
        exact .inl ⟨codec, made, _, post, rfl, meanwhile, serve_eq_conclude post selected⟩
    | error failure => exact .inr ⟨by simp, by simp [serve, post, selected, refuse]⟩
  · exact .inr ⟨fun answers => post answers.1, by simp [serve, post, refuse]⟩

end RemoteCall.Server
