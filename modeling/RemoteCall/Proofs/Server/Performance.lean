import RemoteCall.Proofs.Server.Blind
import RemoteCall.Proofs.Server.Runs

/-!
# Hooks that register things

What scripts do when they may register things: `Script.Performs` lists the
registrations that are accepted, beside what a script comes to, and
`HooksPerform` does so for the hooks that run in a phase.  Every run performs
something (`Script.exists_performs`, `exists_hooksPerform`), the hooks that run
are the first of those that were given, and the server that is left behind is
the one on which just these registrations have been made, in order
(`HooksPerform.registerAll_eq`).
-/

namespace RemoteCall

variable {A : Application}

/-- The hook that a registration puts behind those of a phase. -/
def Registration.hook? (phase : Phase) : Registration A → Option (Hook A)
  | .codec _ _ => none
  | .service _ _ => none
  | .hook ofPhase _ _ run => if ofPhase = phase then some run else none

namespace Server

/-- The server after all of the registrations, in order, none of which may fail. -/
def registerAll (server : Server A) (registrations : List (Registration A)) :
    Except RpcError (Server A) :=
  registrations.foldlM register server

theorem registerAll_cons_of_ok {server after : Server A} {what : Registration A}
    (registered : server.register what = .ok after) (rest : List (Registration A)) :
    server.registerAll (what :: rest) = after.registerAll rest := by
  rw [registerAll, List.foldlM_cons, registered]
  rfl

theorem registerAll_cons_of_error {server : Server A} {what : Registration A}
    {failure : RpcError} (refused : server.register what = .error failure)
    (rest : List (Registration A)) : server.registerAll (what :: rest) = .error failure := by
  rw [registerAll, List.foldlM_cons, refused]
  rfl

theorem registerAll_cons_eq_ok_iff {server after : Server A} {what : Registration A}
    {rest : List (Registration A)} :
    server.registerAll (what :: rest) = .ok after ↔
      ∃ middle, server.register what = .ok middle ∧ middle.registerAll rest = .ok after := by
  cases registered : server.register what with
  | error failure => simp [registerAll_cons_of_error registered]
  | ok middle => simp [registerAll_cons_of_ok registered]

theorem registerAll_append_of_ok {server after : Server A} {earlier : List (Registration A)}
    (registered : server.registerAll earlier = .ok after) (later : List (Registration A)) :
    server.registerAll (earlier ++ later) = after.registerAll later := by
  unfold registerAll at registered ⊢
  rw [List.foldlM_append, registered]
  rfl

/-! ## What registrations leave alone -/

/-- A registration neither looks at the receivers nor changes them. -/
theorem register_withReceivers {server after : Server A} {what : Registration A}
    (registered : server.register what = .ok after) (receivers : Table A.Receiver) :
    { server with receivers }.register what = .ok { after with receivers } := by
  cases what with
  | codec contentType codec =>
      obtain rfl := Except.ok.inj registered
      rfl
  | service service name =>
      rcases registerService_eq_ok_iff.1 registered with ⟨registry, added, rfl⟩
      exact registerService_eq_ok_iff.2 ⟨registry, added, rfl⟩
  | hook phase requestType contextType run =>
      rcases registerHook_eq_ok_iff.1 registered with ⟨requestTyped, contextTyped, rfl⟩
      apply registerHook_eq_ok_iff.2
      cases phase with
      | before => exact ⟨requestTyped, contextTyped, rfl⟩
      | after => exact ⟨requestTyped, contextTyped, rfl⟩

theorem registerAll_withReceivers {server after : Server A} {made : List (Registration A)}
    (registered : server.registerAll made = .ok after) (receivers : Table A.Receiver) :
    { server with receivers }.registerAll made = .ok { after with receivers } := by
  induction made generalizing server with
  | nil =>
      obtain rfl := Except.ok.inj registered
      rfl
  | cons what rest ih =>
      rcases registerAll_cons_eq_ok_iff.1 registered with ⟨middle, first, others⟩
      exact registerAll_cons_eq_ok_iff.2
        ⟨_, register_withReceivers first receivers, ih others⟩

/-- A registration puts its hook behind those of its phase. -/
theorem hooks_register {server after : Server A} {what : Registration A}
    (registered : server.register what = .ok after) (phase : Phase) :
    after.hooks phase = server.hooks phase ++ (what.hook? phase).toList := by
  cases what with
  | codec contentType codec =>
      obtain rfl := Except.ok.inj registered
      simp [Registration.hook?, hooks_registerCodec]
  | service service name =>
      simp [Registration.hook?, hooks_registerService registered]
  | hook ofPhase requestType contextType run =>
      rcases registerHook_eq_ok_iff.1 registered with ⟨_, _, rfl⟩
      cases ofPhase with
      | before => cases phase <;> simp [Registration.hook?, hooks]
      | after => cases phase <;> simp [Registration.hook?, hooks]

theorem hooks_registerAll {server after : Server A} {made : List (Registration A)}
    (registered : server.registerAll made = .ok after) (phase : Phase) :
    after.hooks phase = server.hooks phase ++ made.filterMap (·.hook? phase) := by
  induction made generalizing server with
  | nil =>
      obtain rfl := Except.ok.inj registered
      simp
  | cons what rest ih =>
      rcases registerAll_cons_eq_ok_iff.1 registered with ⟨middle, first, others⟩
      rw [ih others, hooks_register first phase]
      cases installed : what.hook? phase with
      | none => simp [installed]
      | some hook => simp [installed]

end Server

/-! ## Scripts -/

/-- `Performs script server made ran`: on that server the script comes to `ran`, and of
the registrations that it attempts those in `made` are accepted, in order. -/
inductive Script.Performs :
    Script A → Server A → List (Registration A) → Server.Ran A → Prop where
  | finish (context : A.Context) (outcome : Except String Unit) (server : Server A) :
      Performs (.finish context outcome) server [] ⟨server, context, [], outcome⟩
  | note (text : String) {next : Script A} {server made ran} :
      Performs next server made ran →
      Performs (.note text next) server made { ran with events := .note text :: ran.events }
  | accepted {what : Registration A} {next : Except RpcError Unit → Script A}
      {server after made ran} :
      server.register what = .ok after → Performs (next (.ok ())) after made ran →
      Performs (.register what next) server (what :: made) ran
  | refused {what : Registration A} {next : Except RpcError Unit → Script A}
      {server failure made ran} :
      server.register what = .error failure → Performs (next (.error failure)) server made ran →
      Performs (.register what next) server made ran

/-- Running a script performs something. -/
theorem Script.exists_performs :
    (script : Script A) → (server : Server A) →
      ∃ made, script.Performs server made (Server.runScript script server)
  | .finish context outcome, server => ⟨[], .finish context outcome server⟩
  | .note text next, server => by
      rcases exists_performs next server with ⟨made, performs⟩
      exact ⟨made, performs.note text⟩
  | .register what next, server => by
      cases registered : server.register what with
      | ok after =>
          rcases exists_performs (next (.ok ())) after with ⟨made, performs⟩
          refine ⟨what :: made, ?_⟩
          rw [Server.runScript, registered]
          exact .accepted registered performs
      | error failure =>
          rcases exists_performs (next (.error failure)) server with ⟨made, performs⟩
          refine ⟨made, ?_⟩
          rw [Server.runScript, registered]
          exact .refused registered performs

/-- A script leaves the server on which its accepted registrations have been made. -/
theorem Script.Performs.registerAll_eq {script : Script A} {server : Server A}
    {made : List (Registration A)} {ran : Server.Ran A}
    (performs : script.Performs server made ran) : server.registerAll made = .ok ran.server := by
  induction performs with
  | finish => rfl
  | note _ _ ih => exact ih
  | accepted registered _ ih => exact Server.registerAll_cons_eq_ok_iff.2 ⟨_, registered, ih⟩
  | refused _ _ ih => exact ih

namespace Server

/-! ## The hooks of a phase -/

/-- `HooksPerform phase request index hooks context server made ran`: these hooks run one
after the other, the first of them at that index of its phase, each with the context and
on the server that the one before has left behind, and none but the last fails.  They make
the registrations `made` and come to `ran`. -/
inductive HooksPerform (phase : Phase) (request : Request) :
    Nat → List (Hook A) → A.Context → Server A → List (Registration A) → Ran A → Prop where
  | done {index context server} :
      HooksPerform phase request index [] context server [] ⟨server, context, [], .ok ()⟩
  | failed {index hook context server made ran message} :
      (hook request context).Performs server made ran → ran.outcome = .error message →
      HooksPerform phase request index [hook] context server made
        { ran with events := .hook phase index :: ran.events }
  | passed {index hook hooks context server made made' ran rest} :
      (hook request context).Performs server made ran → ran.outcome = .ok () →
      HooksPerform phase request (index + 1) hooks ran.context ran.server made' rest →
      HooksPerform phase request index (hook :: hooks) context server (made ++ made')
        { rest with events := .hook phase index :: ran.events ++ rest.events }

theorem runHooks_cons_of_error {request : Request} {hook : Hook A} {context : A.Context}
    {server : Server A} {message : String}
    (failed : (runScript (hook request context) server).outcome = .error message) (phase : Phase)
    (index : Nat) (hooks : List (Hook A)) :
    runHooks phase request index (hook :: hooks) context server =
      { runScript (hook request context) server with
        events := .hook phase index :: (runScript (hook request context) server).events } := by
  simp only [runHooks, failed]

theorem runHooks_cons_of_ok {request : Request} {hook : Hook A} {context : A.Context}
    {server : Server A} (succeeded : (runScript (hook request context) server).outcome = .ok ())
    (phase : Phase) (index : Nat) (hooks : List (Hook A)) :
    runHooks phase request index (hook :: hooks) context server =
      let ran := runScript (hook request context) server
      let rest := runHooks phase request (index + 1) hooks ran.context ran.server
      { rest with events := .hook phase index :: ran.events ++ rest.events } := by
  simp only [runHooks, succeeded]

/-- The hooks that run are the first of those given, and all of them if none fails. -/
theorem exists_hooksPerform (phase : Phase) (request : Request) (index : Nat)
    (hooks : List (Hook A)) (context : A.Context) (server : Server A) :
    ∃ first made, first <+: hooks ∧
      ((runHooks phase request index hooks context server).outcome = .ok () → first = hooks) ∧
      HooksPerform phase request index first context server made
        (runHooks phase request index hooks context server) := by
  induction hooks generalizing index context server with
  | nil => exact ⟨[], [], List.prefix_rfl, fun _ => rfl, .done⟩
  | cons hook hooks ih =>
      rcases (hook request context).exists_performs server with ⟨made, performs⟩
      cases outcome : (runScript (hook request context) server).outcome with
      | error message =>
          rw [runHooks_cons_of_error outcome]
          refine ⟨[hook], made, by simp, ?_, .failed performs outcome⟩
          intro succeeded
          rw [outcome] at succeeded
          cases succeeded
      | ok =>
          rw [runHooks_cons_of_ok outcome]
          rcases ih (index + 1) (runScript (hook request context) server).context
            (runScript (hook request context) server).server with
            ⟨first, made', ofRest, whole, others⟩
          refine ⟨hook :: first, made ++ made', ?_, ?_, .passed performs outcome others⟩
          · exact List.cons_prefix_cons.2 ⟨rfl, ofRest⟩
          · intro succeeded
            rw [whole succeeded]

section

variable {phase : Phase} {request : Request} {index : Nat} {hooks : List (Hook A)}
  {context : A.Context} {server : Server A} {made : List (Registration A)} {ran : Ran A}

/-- Hooks leave the server on which their registrations have been made. -/
theorem HooksPerform.registerAll_eq
    (performs : HooksPerform phase request index hooks context server made ran) :
    server.registerAll made = .ok ran.server := by
  induction performs with
  | done => rfl
  | failed performs _ => exact performs.registerAll_eq
  | passed performs _ _ ih => rw [registerAll_append_of_ok performs.registerAll_eq, ih]

end

end Server

end RemoteCall
