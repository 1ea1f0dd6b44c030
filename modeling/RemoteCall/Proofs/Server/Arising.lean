import RemoteCall.Proofs.Server.Installation
import RemoteCall.Proofs.Service.Registry
import RemoteCall.Server.Builder

/-!
# The servers there can be

A server arises from its settings by registrations and by serving requests.
Its registry is then well-formed, and it keeps receivers of registered services
only (`Arises.wellFormed`).  So the methods of a service share one receiver, and
a service that is registered starts with its own, whatever has happened to the
others (`WellFormed.receiverOf_registerService`).
-/

namespace RemoteCall

variable {A : Application}

namespace Server

/-! ## Registrations, requests and receivers -/

theorem receivers_register {server after : Server A} {what : Registration A}
    (registered : server.register what = .ok after) : after.receivers = server.receivers := by
  have same : server.register what = .ok { after with receivers := server.receivers } :=
    register_withReceivers registered server.receivers
  have kept := congrArg Server.receivers (Except.ok.inj (registered.symm.trans same))
  exact kept

theorem receivers_registerAll {server after : Server A} {made : List (Registration A)}
    (registered : server.registerAll made = .ok after) : after.receivers = server.receivers := by
  have same : server.registerAll made = .ok { after with receivers := server.receivers } :=
    registerAll_withReceivers registered server.receivers
  have kept := congrArg Server.receivers (Except.ok.inj (registered.symm.trans same))
  exact kept

/-- A request changes at most the receiver of the service that it is resolved to. -/
theorem Meanwhile.receivers_eq {codec : Codec} {server : Server A} {request : Request}
    {made : List (Registration A)} {stage : Stage A codec.State Value}
    (meanwhile : Meanwhile codec server request made stage) :
    stage.server.receivers = server.receivers ∨
      ∃ descriptor receiver, ResolvesTo codec server request descriptor ∧
        stage.server.receivers = server.receivers.insert descriptor.service receiver := by
  cases meanwhile with
  | unresolved => exact .inl rfl
  | stopped _ performs => exact .inl (receivers_registerAll performs.registerAll_eq)
  | uncalled _ performs => exact .inl (receivers_registerAll performs.registerAll_eq)
  | @unanswered descriptor _ _ _ run _ resolves performs =>
      refine .inr ⟨descriptor, run.receiver, resolves, ?_⟩
      rw [keep, receivers_registerAll performs.registerAll_eq]
  | @answered descriptor _ _ _ run _ _ _ _ _ resolves performs _ _ _ _ _ performs' =>
      refine .inr ⟨descriptor, run.receiver, resolves, ?_⟩
      rw [receivers_registerAll performs'.registerAll_eq, keep,
        receivers_registerAll performs.registerAll_eq]

/-! ## Well-formed servers -/

/-- A server with a well-formed registry that keeps receivers of registered services only. -/
structure WellFormed (server : Server A) : Prop where
  registry : server.registry.WellFormed
  receivers : ∀ service, server.receivers.find? service ≠ none →
    server.registry.services.find? service ≠ none

theorem wellFormed_withConfig (config : Config) : (withConfig config : Server A).WellFormed :=
  ⟨Registry.wellFormed_empty, fun _ kept => absurd rfl kept⟩

/-- A registration leaves the registry as it is or adds a service to it. -/
theorem registry_register {server after : Server A} {what : Registration A}
    (registered : server.register what = .ok after) :
    after.registry = server.registry ∨
      ∃ service name, server.registry.add service name = .ok after.registry := by
  cases what with
  | codec contentType codec =>
      obtain rfl := Except.ok.inj registered
      exact .inl rfl
  | service service name =>
      rcases registerService_eq_ok_iff.1 registered with ⟨registry, added, rfl⟩
      exact .inr ⟨service, name, added⟩
  | hook phase requestType contextType run =>
      rcases registerHook_eq_ok_iff.1 registered with ⟨_, _, rfl⟩
      cases phase with
      | before => exact .inl rfl
      | after => exact .inl rfl

theorem extends_register {server after : Server A} {what : Registration A}
    (registered : server.register what = .ok after) : after.registry.Extends server.registry := by
  rcases registry_register registered with same | ⟨service, name, added⟩
  · rw [same]
    exact .refl _
  · exact Registry.extends_of_add added

theorem extends_registerAll {server after : Server A} {made : List (Registration A)}
    (registered : server.registerAll made = .ok after) :
    after.registry.Extends server.registry := by
  induction made generalizing server with
  | nil =>
      obtain rfl := Except.ok.inj registered
      exact .refl _
  | cons what rest ih =>
      rcases registerAll_cons_eq_ok_iff.1 registered with ⟨middle, first, others⟩
      exact (ih others).trans (extends_register first)

/-- Serving a request leaves the services as they are, whatever its hooks do. -/
theorem extends_serve (server : Server A) (request : Request) :
    (server.serve request).server.registry.Extends server.registry := by
  rcases serve_cases server request with
    ⟨codec, made, stage, _, _, meanwhile, served⟩ | ⟨_, untouched⟩
  · rcases meanwhile.registered with ⟨last, registered, left⟩
    have sameRegistry : stage.server.registry = last.registry := by rw [left]
    rw [served, conclude_server, sameRegistry]
    exact extends_registerAll registered
  · rw [untouched]
    exact .refl _

theorem WellFormed.register {server after : Server A} (wellFormed : server.WellFormed)
    {what : Registration A} (registered : server.register what = .ok after) :
    after.WellFormed := by
  constructor
  · rcases registry_register registered with same | ⟨service, name, added⟩
    · rw [same]
      exact wellFormed.registry
    · exact wellFormed.registry.add added
  · intro service kept
    rw [receivers_register registered] at kept
    have there := wellFormed.receivers service kept
    rw [Option.ne_none_iff_exists'] at there ⊢
    rcases there with ⟨methods, found⟩
    exact ⟨methods, extends_register registered service methods found⟩

theorem WellFormed.registerAll {server after : Server A} (wellFormed : server.WellFormed)
    {made : List (Registration A)} (registered : server.registerAll made = .ok after) :
    after.WellFormed := by
  induction made generalizing server with
  | nil =>
      obtain rfl := Except.ok.inj registered
      exact wellFormed
  | cons what rest ih =>
      rcases registerAll_cons_eq_ok_iff.1 registered with ⟨middle, first, others⟩
      exact ih (wellFormed.register first) others

/-- Serving a request leaves a well-formed server well-formed, whatever its hooks do. -/
theorem WellFormed.serve {server : Server A} (wellFormed : server.WellFormed) (request : Request) :
    (server.serve request).server.WellFormed := by
  rcases serve_cases server request with
    ⟨codec, made, stage, _, _, meanwhile, served⟩ | ⟨_, untouched⟩
  · rw [served, conclude_server]
    rcases meanwhile.registered with ⟨last, registered, left⟩
    have extension := extends_registerAll registered
    have sameRegistry : stage.server.registry = last.registry := by rw [left]
    constructor
    · rw [sameRegistry]
      exact (wellFormed.registerAll registered).registry
    · intro service kept
      have there : server.registry.services.find? service ≠ none := by
        rcases meanwhile.receivers_eq with same | ⟨descriptor, receiver, resolves, inserted⟩
        · rw [same] at kept
          exact wellFormed.receivers service kept
        · rw [inserted, Table.find?_insert] at kept
          split at kept
          next same =>
              rcases resolves.named with ⟨name, _, found⟩
              rw [same]
              rcases wellFormed.registry.exists_find?_eq_some found with ⟨methods, services, _⟩
              rw [services]
              exact Option.some_ne_none methods
          next => exact wellFormed.receivers service kept
      rw [Option.ne_none_iff_exists'] at there
      rcases there with ⟨methods, found⟩
      rw [sameRegistry, extension service methods found]
      exact Option.some_ne_none methods
  · rw [untouched]
    exact wellFormed

/-- The servers there can be: made with some settings, and changed by registrations that
succeed and by serving requests. -/
inductive Arises : Server A → Prop where
  | made (config : Config) : Arises (withConfig config)
  | registered {server after : Server A} {what : Registration A} :
      Arises server → server.register what = .ok after → Arises after
  | served {server : Server A} (request : Request) :
      Arises server → Arises (server.serve request).server

theorem Arises.registerAll {server after : Server A} (arises : server.Arises)
    {made : List (Registration A)} (registered : server.registerAll made = .ok after) :
    after.Arises := by
  induction made generalizing server with
  | nil =>
      obtain rfl := Except.ok.inj registered
      exact arises
  | cons what rest ih =>
      rcases registerAll_cons_eq_ok_iff.1 registered with ⟨middle, first, others⟩
      exact ih (arises.registered first) others

theorem arises_of_build {builder : Builder A} {server : Server A}
    (built : builder.build = .ok server) : server.Arises :=
  (Arises.made builder.config).registerAll built

theorem Arises.wellFormed {server : Server A} (arises : server.Arises) : server.WellFormed := by
  induction arises with
  | made config => exact wellFormed_withConfig config
  | registered _ registered ih => exact ih.register registered
  | served request _ ih => exact ih.serve request

/-! ## Receivers -/

theorem receiverOf_eq {server : Server A} {descriptor descriptor' : Descriptor A}
    (sameService : descriptor.service = descriptor'.service)
    (sameReceiver : descriptor.receiver = descriptor'.receiver) :
    server.receiverOf descriptor = server.receiverOf descriptor' := by
  rw [receiverOf, receiverOf, sameService, sameReceiver]

/-- The methods of a service share its receiver. -/
theorem WellFormed.receiverOf_eq {server : Server A} (wellFormed : server.WellFormed)
    {name name' : String} {descriptor descriptor' : Descriptor A}
    (found : server.registry.get name = .ok descriptor)
    (found' : server.registry.get name' = .ok descriptor')
    (sameService : descriptor.service = descriptor'.service) :
    server.receiverOf descriptor = server.receiverOf descriptor' :=
  Server.receiverOf_eq sameService (wellFormed.registry.receiver_eq found found' sameService)

/-- A service that is registered starts with its own receiver as it is given. -/
theorem WellFormed.receiverOf_registerService {server after : Server A}
    (wellFormed : server.WellFormed) {service : Service A} {explicit : Option String}
    (registered : server.registerService service explicit = .ok after) {name : String}
    {descriptor : Descriptor A} (found : after.registry.get name = .ok descriptor)
    (new : descriptor.service = Registry.resolveName service explicit) :
    after.receiverOf descriptor = service.receiver := by
  rcases registerService_eq_ok_iff.1 registered with ⟨registry, added, rfl⟩
  rcases (wellFormed.registry.add added).exists_find?_eq_some found with ⟨methods, services, listed⟩
  rcases Registry.add_eq_ok_iff.1 added with ⟨_, _, free, rfl⟩
  rw [new, Table.find?_insert_self] at services
  obtain rfl := Option.some.inj services
  have unkept : server.receivers.find? descriptor.service = none := by
    rw [new]
    by_contra kept
    exact wellFormed.receivers _ kept free
  rw [receiverOf, unkept, Option.getD_none]
  exact (Registry.methodsOf_bound _ service _ descriptor listed).2.2.2

/-- A service that is registered leaves the others with their methods and receivers. -/
theorem WellFormed.get_of_registerService {server after : Server A}
    (wellFormed : server.WellFormed) {service : Service A} {explicit : Option String}
    (registered : server.registerService service explicit = .ok after) {name : String}
    {descriptor : Descriptor A} (found : after.registry.get name = .ok descriptor)
    (old : descriptor.service ≠ Registry.resolveName service explicit) :
    server.registry.get name = .ok descriptor ∧
      after.receiverOf descriptor = server.receiverOf descriptor := by
  rcases registerService_eq_ok_iff.1 registered with ⟨registry, added, rfl⟩
  rcases Registry.get_eq_ok_iff.1 found with
    ⟨ofService, method, methods, addresses, services, listed⟩
  have reports : descriptor.service = ofService := by
    rcases (wellFormed.registry.add added).bound ofService methods services with ⟨receiver, bound⟩
    exact (bound method descriptor listed).2.1
  rcases Registry.add_eq_ok_iff.1 added with ⟨_, _, _, rfl⟩
  rw [Table.find?_insert, if_neg (reports ▸ old)] at services
  exact ⟨Registry.get_eq_ok_iff.2 ⟨ofService, method, methods, addresses, services, listed⟩, rfl⟩

end Server

end RemoteCall
