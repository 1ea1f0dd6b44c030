import RemoteCall.Server.Serve

/-!
# Hooks that do not look at the body

A blind hook plays the same script on requests that differ in nothing but their
bodies and content types, and so do the hooks that it registers.  On a server of
blind hooks the hooks of a phase do the same to both requests, and what they
register leaves the server one of blind hooks.
-/

namespace RemoteCall

variable {A : Application}

/-- The headers of a request other than its content type. -/
def Request.otherHeaders (request : Request) : List (String × Bytes) :=
  request.headers.filter fun header => lowerAscii header.1 ≠ "content-type"

/-- Whether requests differ at most in their bodies and content types. -/
structure Request.AgreesWith (request request' : Request) : Prop where
  verb_eq : request.verb = request'.verb
  headers_eq : request.otherHeaders = request'.otherHeaders

/-- Whether a hook takes requests that agree for the same. -/
def Hook.Indifferent (hook : Hook A) : Prop :=
  ∀ request request' : Request, request.AgreesWith request' →
    ∀ context, hook request context = hook request' context

/-- Whether all hooks that a script registers, or that their scripts register, take
requests that agree for the same. -/
inductive Script.Blind : Script A → Prop where
  | finish (context : A.Context) (outcome : Except String Unit) : Blind (.finish context outcome)
  | note (text : String) {next : Script A} : Blind next → Blind (.note text next)
  | codec (contentType : String) (codec : Codec) {next : Except RpcError Unit → Script A} :
      (∀ answer, Blind (next answer)) → Blind (.register (.codec contentType codec) next)
  | service (service : Service A) (name : Option String)
      {next : Except RpcError Unit → Script A} :
      (∀ answer, Blind (next answer)) → Blind (.register (.service service name) next)
  | hook (phase : Phase) (requestType contextType : String) {run : Hook A}
      {next : Except RpcError Unit → Script A} :
      Hook.Indifferent run → (∀ request context, Blind (run request context)) →
      (∀ answer, Blind (next answer)) →
        Blind (.register (.hook phase requestType contextType run) next)

/-- Whether a hook, and all hooks that it leads to, take requests that agree for the same. -/
structure Hook.Blind (hook : Hook A) : Prop where
  indifferent : Hook.Indifferent hook
  scripts : ∀ request context, (hook request context).Blind

namespace Server

/-- Whether all hooks of a server are blind. -/
def Blind (server : Server A) : Prop :=
  ∀ phase, ∀ hook ∈ server.hooks phase, Hook.Blind hook

/-! ## Registrations -/

theorem hooks_registerCodec (server : Server A) (contentType : String) (codec : Codec)
    (phase : Phase) :
    (server.registerCodec contentType codec).hooks phase = server.hooks phase := by
  cases phase <;> rfl

/-- A service is registered by adding it to the registry. -/
theorem registerService_eq_ok_iff {server after : Server A} {service : Service A}
    {explicit : Option String} :
    server.registerService service explicit = .ok after ↔
      ∃ registry, server.registry.add service explicit = .ok registry ∧
        after = { server with registry } := by
  rw [registerService]
  cases server.registry.add service explicit with
  | error failure => simp [Except.map]
  | ok registry => simp [Except.map, eq_comm]

/-- A hook of the right types is registered by putting it behind those of its phase. -/
theorem registerHook_eq_ok_iff {server after : Server A} {phase : Phase}
    {requestType contextType : String} {run : Hook A} :
    server.registerHook phase requestType contextType run = .ok after ↔
      requestType = A.requestType ∧ contextType = A.contextType ∧
        after = match phase with
          | .before => { server with before := server.before ++ [run] }
          | .after => { server with after := server.after ++ [run] } := by
  unfold registerHook
  by_cases requestTyped : requestType = A.requestType
  · by_cases contextTyped : contextType = A.contextType
    · cases phase with
      | before => simp [requestTyped, contextTyped, eq_comm]
      | after => simp [requestTyped, contextTyped, eq_comm]
    · simp [requestTyped, contextTyped]
  · simp [requestTyped]

theorem hooks_registerService {server after : Server A} {service : Service A}
    {name : Option String} (registered : server.registerService service name = .ok after)
    (phase : Phase) : after.hooks phase = server.hooks phase := by
  rcases registerService_eq_ok_iff.1 registered with ⟨registry, _, rfl⟩
  cases phase <;> rfl

theorem mem_hooks_registerHook {server after : Server A} {phase : Phase}
    {requestType contextType : String} {run : Hook A}
    (registered : server.registerHook phase requestType contextType run = .ok after)
    {phase' : Phase} {hook : Hook A} (mem : hook ∈ after.hooks phase') :
    hook = run ∨ hook ∈ server.hooks phase' := by
  rcases registerHook_eq_ok_iff.1 registered with ⟨_, _, rfl⟩
  cases phase with
  | before =>
      cases phase' with
      | before =>
          rcases List.mem_append.1 mem with old | new
          · exact .inr old
          · exact .inl (List.mem_singleton.1 new)
      | after => exact .inr mem
  | after =>
      cases phase' with
      | before => exact .inr mem
      | after =>
          rcases List.mem_append.1 mem with old | new
          · exact .inr old
          · exact .inl (List.mem_singleton.1 new)

/-! ## Running hooks -/

/-- A blind script leaves a server of blind hooks one of blind hooks. -/
theorem Blind.runScript {script : Script A} (blind : script.Blind) {server : Server A}
    (ofServer : server.Blind) : (Server.runScript script server).server.Blind := by
  induction blind generalizing server with
  | finish => exact ofServer
  | note text _ ih => exact ih ofServer
  | codec contentType codec _ ih =>
      apply ih
      intro phase hook mem
      rw [hooks_registerCodec] at mem
      exact ofServer phase hook mem
  | service service name _ ih =>
      unfold Server.runScript
      cases registered : server.register (.service service name) with
      | error failure => exact ih _ ofServer
      | ok after =>
          apply ih
          intro phase hook mem
          rw [hooks_registerService registered] at mem
          exact ofServer phase hook mem
  | hook phase requestType contextType indifferent scripts _ _ ih =>
      unfold Server.runScript
      cases registered : server.register (.hook phase requestType contextType _) with
      | error failure => exact ih _ ofServer
      | ok after =>
          apply ih
          intro phase' hook mem
          rcases mem_hooks_registerHook registered mem with rfl | old
          · exact ⟨indifferent, scripts⟩
          · exact ofServer phase' hook old

/-- Blind hooks do the same to requests that agree. -/
theorem runHooks_eq_of_agreesWith {request request' : Request}
    (agrees : request.AgreesWith request') (phase : Phase) (index : Nat) {hooks : List (Hook A)}
    (blind : ∀ hook ∈ hooks, Hook.Blind hook) (context : A.Context) (server : Server A) :
    runHooks phase request index hooks context server
      = runHooks phase request' index hooks context server := by
  induction hooks generalizing index context server with
  | nil => rfl
  | cons hook hooks ih =>
      have same := (blind hook List.mem_cons_self).indifferent request request' agrees context
      have others (index : Nat) (context : A.Context) (server : Server A) :=
        ih index (fun other mem => blind other (List.mem_cons_of_mem _ mem)) context server
      simp only [runHooks, same, others]

/-- Blind hooks leave a server of blind hooks one of blind hooks. -/
theorem Blind.runHooks {request : Request} (phase : Phase) (index : Nat) {hooks : List (Hook A)}
    (blind : ∀ hook ∈ hooks, Hook.Blind hook) (context : A.Context) {server : Server A}
    (ofServer : server.Blind) :
    (Server.runHooks phase request index hooks context server).server.Blind := by
  induction hooks generalizing index context server with
  | nil => exact ofServer
  | cons hook hooks ih =>
      have ran : (Server.runScript (hook request context) server).server.Blind :=
        Blind.runScript ((blind hook List.mem_cons_self).scripts request context) ofServer
      unfold Server.runHooks
      simp only
      split
      next => exact ran
      next => exact ih _ (fun other mem => blind other (List.mem_cons_of_mem _ mem)) _ ran

end Server

end RemoteCall
