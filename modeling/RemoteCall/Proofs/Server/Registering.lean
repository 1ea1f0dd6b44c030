import RemoteCall.Proofs.Server.Performance
import RemoteCall.Proofs.Service.Adding

/-!
# Registering in place

A server is changed in place: a registration looks into its conditions one after the
other and then makes its change, and nothing takes back what has been changed by the time
of a failure.  `Server.actions` says what is done, in order, and `Server.act` does
it.  Since no registration changes anything before its last condition, it comes to what
`Server.register` says, and one that is refused has changed nothing (`act_actions`).  The
reasons for which a registration is refused are those of `Refuses`
(`register_eq_error_iff`).
-/

namespace RemoteCall

variable {A : Application}

/-! ## What is refused -/

namespace Server

/-- `server.Refuses what failure`: for this reason the server does not accept the
registration.  Of several reasons that apply it is the first of them. -/
inductive Refuses (server : Server A) : Registration A → RpcError → Prop where
  | noServiceName {service : Service A} {explicit : Option String} :
      Registry.resolveName service explicit = "" →
      Refuses server (.service service explicit) (.noServiceName service.typeName)
  | invalidServiceName {service : Service A} {explicit : Option String} {name : String} :
      Registry.resolveName service explicit = name → '.' ∈ name.toList →
      Refuses server (.service service explicit) (.invalidServiceName name)
  | noSuitableMethods {service : Service A} {explicit : Option String} {name : String} :
      Registry.resolveName service explicit = name → Name.isAddressable name = true →
      (∀ candidate ∈ service.candidates, ¬ Registry.Suitable candidate) →
      Refuses server (.service service explicit) (.noSuitableMethods name)
  | duplicateService {service : Service A} {explicit : Option String} {name : String} :
      Registry.resolveName service explicit = name → Name.isAddressable name = true →
      (∃ candidate ∈ service.candidates, Registry.Suitable candidate) →
      server.registry.services.find? name ≠ none →
      Refuses server (.service service explicit) (.duplicateService name)
  | malformedRequest {phase : Phase} {requestType contextType : String} {run : Hook A} :
      requestType ≠ A.requestType →
      Refuses server (.hook phase requestType contextType run)
        (.malformedHook "request" A.requestType requestType)
  | malformedContext {phase : Phase} {contextType : String} {run : Hook A} :
      contextType ≠ A.contextType →
      Refuses server (.hook phase A.requestType contextType run)
        (.malformedHook "context" A.contextType contextType)

theorem refuses_of_add_eq_error {server : Server A} {service : Service A}
    {explicit : Option String} {failure : RpcError}
    (refused : server.registry.add service explicit = .error failure) :
    server.Refuses (.service service explicit) failure := by
  have decided := Registry.decision_add server.registry service explicit
  rw [refused] at decided
  cases decided with
  | noServiceName unnamed => exact .noServiceName unnamed
  | invalidServiceName dotted => exact .invalidServiceName rfl dotted
  | noSuitableMethods addressable unsuitable => exact .noSuitableMethods rfl addressable unsuitable
  | duplicateService addressable suitable taken =>
      exact .duplicateService rfl addressable suitable taken

theorem register_eq_error_of_refuses {server : Server A} {what : Registration A}
    {failure : RpcError} (refuses : server.Refuses what failure) :
    server.register what = .error failure := by
  cases refuses with
  | noServiceName unnamed => simp [register, registerService, Registry.add, unnamed, Except.map]
  | @invalidServiceName service explicit _ resolves dotted =>
      subst resolves
      have named : Registry.resolveName service explicit ≠ "" := by
        intro unnamed
        simp [unnamed] at dotted
      simp [register, registerService, Registry.add, named, dotted, Except.map]
  | @noSuitableMethods service explicit _ resolves addressable unsuitable =>
      subst resolves
      rcases Name.isAddressable_iff.1 addressable with ⟨named, dotless⟩
      have bare := (Registry.size_methodsOf_eq_zero_iff
        (Registry.resolveName service explicit) service).2 unsuitable
      simp [register, registerService, Registry.add, named, dotless, bare, Except.map]
  | @duplicateService service explicit _ resolves addressable suitable taken =>
      subst resolves
      rcases Name.isAddressable_iff.1 addressable with ⟨named, dotless⟩
      have inhabited : (Registry.methodsOf (Registry.resolveName service explicit) service).size
          ≠ 0 := by
        rw [ne_eq, Registry.size_methodsOf_eq_zero_iff]
        push Not
        exact suitable
      have there : server.registry.services.contains (Registry.resolveName service explicit)
          = true := by
        rwa [Table.contains, Option.isSome_iff_ne_none]
      simp [register, registerService, Registry.add, named, dotless, inhabited, there, Except.map]
  | malformedRequest foreign => simp [register, registerHook, foreign]
  | malformedContext foreign => simp [register, registerHook, foreign]

/-- A registration fails for the reasons of `Refuses`, and for no others. -/
theorem register_eq_error_iff {server : Server A} {what : Registration A} {failure : RpcError} :
    server.register what = .error failure ↔ server.Refuses what failure := by
  constructor
  · intro refused
    cases what with
    | codec => cases refused
    | service service explicit =>
        rw [register, registerService] at refused
        cases added : server.registry.add service explicit with
        | ok registry =>
            rw [added] at refused
            cases refused
        | error reason =>
            rw [added] at refused
            obtain rfl := Except.error.inj refused
            exact refuses_of_add_eq_error added
    | hook phase requestType contextType run =>
        simp only [register, registerHook] at refused
        split at refused
        next foreign =>
            obtain rfl := Except.error.inj refused
            exact .malformedRequest foreign
        next requestTyped =>
          obtain rfl := not_not.1 requestTyped
          split at refused
          next foreign =>
              obtain rfl := Except.error.inj refused
              exact .malformedContext foreign
          next => cases phase <;> cases refused
  · exact register_eq_error_of_refuses

end Server

/-! ## What is done -/

/-- What is done to a server in the course of a registration. -/
inductive Action (A : Application) : Type 1 where
  /-- Goes on only if the condition holds. -/
  | require (condition : Server A → Bool) (otherwise : RpcError)
  /-- Changes the server. -/
  | change (update : Server A → Server A)

namespace Server

/-- What there is to do for a registration, in order. -/
def actions : Registration A → List (Action A)
  | .codec contentType codec => [.change fun server => server.registerCodec contentType codec]
  | .service service explicit =>
    let name := Registry.resolveName service explicit
    let methods := Registry.methodsOf name service
    [.require (fun _ => name ≠ "") (.noServiceName service.typeName),
      .require (fun _ => !name.toList.contains '.') (.invalidServiceName name),
      .require (fun _ => methods.size ≠ 0) (.noSuitableMethods name),
      .require (fun server => !server.registry.services.contains name) (.duplicateService name),
      .change fun server =>
        { server with registry := ⟨server.registry.services.insert name methods⟩ }]
  | .hook phase requestType contextType run =>
    [.require (fun _ => requestType = A.requestType)
        (.malformedHook "request" A.requestType requestType),
      .require (fun _ => contextType = A.contextType)
        (.malformedHook "context" A.contextType contextType),
      .change fun server =>
        match phase with
        | .before => { server with before := server.before ++ [run] }
        | .after => { server with after := server.after ++ [run] }]

/-- Does one thing after the other, up to the first condition that fails.  The server is
left as it is by then. -/
def act : Server A → List (Action A) → Server A × Except RpcError Unit
  | server, [] => (server, .ok ())
  | server, .require condition otherwise :: rest =>
    if condition server then act server rest else (server, .error otherwise)
  | server, .change update :: rest => act (update server) rest

/-- What is done behind actions that have been done. -/
theorem act_append_of_ok {server after : Server A} {earlier : List (Action A)}
    (done : server.act earlier = (after, .ok ())) (later : List (Action A)) :
    server.act (earlier ++ later) = after.act later := by
  induction earlier generalizing server with
  | nil =>
      obtain rfl := (Prod.mk.inj done).1
      rfl
  | cons action rest ih =>
      cases action with
      | require condition otherwise =>
          rw [act] at done
          split at done
          next holds =>
              rw [List.cons_append, act, if_pos holds]
              exact ih done
          next => cases done
      | change update => exact ih done

/-- Nothing is done behind a failure. -/
theorem act_append_of_error {server after : Server A} {earlier : List (Action A)}
    {failure : RpcError} (failed : server.act earlier = (after, .error failure))
    (later : List (Action A)) : server.act (earlier ++ later) = (after, .error failure) := by
  induction earlier generalizing server with
  | nil => cases failed
  | cons action rest ih =>
      cases action with
      | require condition otherwise =>
          rw [act] at failed
          rw [List.cons_append, act]
          split at failed
          next holds =>
              rw [if_pos holds]
              exact ih failed
          next fails =>
              rw [if_neg fails]
              exact failed
      | change update => exact ih failed

/-- A registration in place comes to what `register` says.  If it is refused, it has
changed nothing. -/
theorem act_actions (server : Server A) (what : Registration A) :
    server.act (actions what) =
      match server.register what with
      | .ok after => (after, .ok ())
      | .error failure => (server, .error failure) := by
  cases what with
  | codec contentType codec => rfl
  | service service explicit =>
      simp only [actions, act, register, registerService, Registry.add]
      generalize Registry.resolveName service explicit = name
      by_cases unnamed : name = ""
      · simp [unnamed, Except.map]
      by_cases dotted : '.' ∈ name.toList
      · simp [unnamed, dotted, Except.map]
      by_cases bare : (Registry.methodsOf name service).size = 0
      · simp [unnamed, dotted, bare, Except.map]
      by_cases taken : server.registry.services.contains name = true
      · simp [unnamed, dotted, bare, taken, Except.map]
      · simp [unnamed, dotted, bare, taken, Except.map]
  | hook phase requestType contextType run =>
      simp only [actions, act, register, registerHook]
      by_cases requestTyped : requestType = A.requestType
      · by_cases contextTyped : contextType = A.contextType
        · cases phase <;> simp [requestTyped, contextTyped]
        · simp [requestTyped, contextTyped]
      · simp [requestTyped]

theorem act_actions_of_ok {server after : Server A} {what : Registration A}
    (registered : server.register what = .ok after) :
    server.act (actions what) = (after, .ok ()) := by
  rw [act_actions, registered]

theorem act_actions_of_error {server : Server A} {what : Registration A} {failure : RpcError}
    (refused : server.register what = .error failure) :
    server.act (actions what) = (server, .error failure) := by
  rw [act_actions, refused]

/-! ## One registration after the other -/

/-- Of registrations that are made in order, the first that fails decides. -/
theorem registerAll_eq_error_iff {server : Server A} {registrations : List (Registration A)}
    {failure : RpcError} :
    server.registerAll registrations = .error failure ↔
      ∃ earlier what later middle, registrations = earlier ++ what :: later ∧
        server.registerAll earlier = .ok middle ∧ middle.register what = .error failure := by
  constructor
  · intro failed
    induction registrations generalizing server with
    | nil => cases failed
    | cons what rest ih =>
        cases registered : server.register what with
        | error reason =>
            rw [registerAll_cons_of_error registered] at failed
            obtain rfl := Except.error.inj failed
            exact ⟨[], what, rest, server, rfl, rfl, registered⟩
        | ok after =>
            rw [registerAll_cons_of_ok registered] at failed
            rcases ih failed with ⟨earlier, other, later, middle, rfl, before, refused⟩
            refine ⟨what :: earlier, other, later, middle, rfl, ?_, refused⟩
            rw [registerAll_cons_of_ok registered, before]
  · rintro ⟨earlier, what, later, middle, rfl, before, refused⟩
    rw [registerAll_append_of_ok before, registerAll_cons_of_error refused]

/-- Registrations in place, none of which is refused. -/
theorem act_flatMap_of_ok {server after : Server A} {registrations : List (Registration A)}
    (registered : server.registerAll registrations = .ok after) :
    server.act (registrations.flatMap actions) = (after, .ok ()) := by
  induction registrations generalizing server with
  | nil =>
      obtain rfl := Except.ok.inj registered
      rfl
  | cons what rest ih =>
      rcases registerAll_cons_eq_ok_iff.1 registered with ⟨middle, first, others⟩
      rw [List.flatMap_cons, act_append_of_ok (act_actions_of_ok first), ih others]

/-- Registrations in place up to the first that is refused, behind which nothing is done. -/
theorem act_flatMap_of_error {server middle : Server A} {earlier : List (Registration A)}
    (before : server.registerAll earlier = .ok middle) {what : Registration A}
    {failure : RpcError} (refused : middle.register what = .error failure)
    (later : List (Registration A)) :
    server.act ((earlier ++ what :: later).flatMap actions) = (middle, .error failure) := by
  rw [List.flatMap_append, List.flatMap_cons, act_append_of_ok (act_flatMap_of_ok before)]
  exact act_append_of_error (act_actions_of_error refused) _

end Server

end RemoteCall
