import RemoteCall.Proofs.Server.Registering
import RemoteCall.Proofs.Server.Session

/-!
# Dialogues with a server

Whoever has a server at hand registers things with it, looks methods up, compares the
methods that were found, asks for what is registered and has requests served, in any
order.  A `Dialogue` is the server together with the methods that are held, and every
`Command` is answered by an `Observation`.

A registration that is refused leaves the dialogue as it is, so it can be left out without
any other observation being another one (`refused_registrations_leave_no_trace`).
-/

namespace RemoteCall

variable {A : Application}

/-- What can be asked of a server. -/
inductive Command (A : Application) : Type 1 where
  /-- Registers something. -/
  | register (what : Registration A)
  /-- Looks a method up and holds it under a name. -/
  | get (method hold : String)
  /-- Compares two methods that are held. -/
  | compare (hold other : String)
  /-- Asks whether there is a method. -/
  | hasMethod (method : String)
  /-- Asks for the services and their methods. -/
  | serviceMap
  /-- Asks for the settings. -/
  | config
  /-- Asks for the server in words, the numbers of its hooks among them. -/
  | describe
  /-- Has a request served. -/
  | serve (request : Request)

/-- What is seen of the answer to a command. -/
inductive Observation (A : Application) : Type 1 where
  | registered (outcome : Except RpcError Unit)
  | found (outcome : Except RpcError (Descriptor A))
  /-- There is no answer if one of the methods is not held. -/
  | compared (same : Option Bool)
  | has (answer : Bool)
  | services (map : Table (List String))
  | settings (config : Config)
  | described (text : String)
  | served (events : List Event) (response : Response)

/-- Whether it is seen that a registration is refused. -/
def Observation.isRefusal : Observation A → Bool
  | .registered (.error _) => true
  | _ => false

/-- A server and the methods that have been found and are held. -/
structure Dialogue (A : Application) where
  server : Server A
  held : Table (Descriptor A) := .empty

namespace Dialogue

/-! ## Commands -/

/-- What is seen of a command, and how the dialogue stands behind it. -/
def perform (now : Dialogue A) : Command A → Observation A × Dialogue A
  | .register what =>
    let done := now.server.act (Server.actions what)
    (.registered done.2, { now with server := done.1 })
  | .get method hold =>
    match now.server.registry.get method with
    | .ok descriptor =>
      (.found (.ok descriptor), { now with held := now.held.insert hold descriptor })
    | .error failure => (.found (.error failure), now)
  | .compare hold other =>
    match now.held.find? hold, now.held.find? other with
    | some descriptor, some descriptor' => (.compared (some (descriptor.same descriptor')), now)
    | _, _ => (.compared none, now)
  | .hasMethod method => (.has (now.server.hasMethod method), now)
  | .serviceMap => (.services now.server.serviceMap, now)
  | .config => (.settings now.server.config, now)
  | .describe => (.described now.server.describe, now)
  | .serve request =>
    let served := now.server.serve request
    (.served served.events served.response, { now with server := served.server })

/-- What is seen of commands that are given one after the other. -/
def observations : Dialogue A → List (Command A) → List (Observation A)
  | _, [] => []
  | now, command :: rest => (now.perform command).1 :: observations (now.perform command).2 rest

/-- How the dialogue stands behind the commands. -/
def after (now : Dialogue A) (commands : List (Command A)) : Dialogue A :=
  commands.foldl (fun now command => (now.perform command).2) now

@[simp]
theorem after_nil (now : Dialogue A) : now.after [] = now :=
  rfl

@[simp]
theorem after_cons (now : Dialogue A) (command : Command A) (rest : List (Command A)) :
    now.after (command :: rest) = (now.perform command).2.after rest :=
  rfl

theorem observations_append (now : Dialogue A) (earlier later : List (Command A)) :
    now.observations (earlier ++ later) =
      now.observations earlier ++ (now.after earlier).observations later := by
  induction earlier generalizing now with
  | nil => rfl
  | cons command rest ih => simp only [List.cons_append, observations, ih, after_cons]

theorem after_append (now : Dialogue A) (earlier later : List (Command A)) :
    now.after (earlier ++ later) = (now.after earlier).after later :=
  List.foldl_append

theorem length_observations (now : Dialogue A) (commands : List (Command A)) :
    (now.observations commands).length = commands.length := by
  induction commands generalizing now with
  | nil => rfl
  | cons command rest ih => simp only [observations, List.length_cons, ih]

/-! ## Registering -/

theorem perform_register_of_ok {now : Dialogue A} {server : Server A} {what : Registration A}
    (registered : now.server.register what = .ok server) :
    now.perform (.register what) = (.registered (.ok ()), { now with server }) := by
  simp only [perform, Server.act_actions_of_ok registered]

theorem perform_register_of_error {now : Dialogue A} {what : Registration A} {failure : RpcError}
    (refused : now.server.register what = .error failure) :
    now.perform (.register what) = (.registered (.error failure), now) := by
  simp only [perform, Server.act_actions_of_error refused]

/-- It is registrations that are refused, for the reasons that there are. -/
theorem perform_eq_refusal_iff {now : Dialogue A} {command : Command A} {failure : RpcError} :
    (now.perform command).1 = .registered (.error failure) ↔
      ∃ what, command = .register what ∧ now.server.Refuses what failure := by
  constructor
  · intro refused
    cases command with
    | register what =>
        refine ⟨what, rfl, Server.register_eq_error_iff.1 ?_⟩
        cases registered : now.server.register what with
        | ok server =>
            rw [perform_register_of_ok registered] at refused
            cases refused
        | error reason =>
            rw [perform_register_of_error registered] at refused
            cases refused
            rfl
    | get method hold =>
        simp only [perform] at refused
        split at refused <;> cases refused
    | compare hold other =>
        simp only [perform] at refused
        split at refused <;> cases refused
    | _ => cases refused
  · rintro ⟨what, rfl, refuses⟩
    rw [perform_register_of_error (Server.register_eq_error_iff.2 refuses)]

theorem perform_register_eq_error_iff {now : Dialogue A} {what : Registration A}
    {failure : RpcError} :
    (now.perform (.register what)).1 = .registered (.error failure) ↔
      now.server.register what = .error failure := by
  rw [perform_eq_refusal_iff, Server.register_eq_error_iff]
  constructor
  · rintro ⟨_, same, refuses⟩
    cases same
    exact refuses
  · intro refuses
    exact ⟨what, rfl, refuses⟩

/-- A registration that is refused leaves the dialogue as it is. -/
theorem perform_of_refusal {now : Dialogue A} {command : Command A}
    (refused : (now.perform command).1.isRefusal = true) : (now.perform command).2 = now := by
  cases seen : (now.perform command).1 with
  | registered outcome =>
      cases outcome with
      | error failure =>
          rcases perform_eq_refusal_iff.1 seen with ⟨what, rfl, refuses⟩
          rw [perform_register_of_error (Server.register_eq_error_iff.2 refuses)]
      | ok =>
          rw [seen] at refused
          cases refused
  | _ =>
      rw [seen] at refused
      cases refused

/-! ## What stays found -/

/-- Whatever is asked of a server, the services that it has stay as they are. -/
theorem extends_perform (now : Dialogue A) (command : Command A) :
    (now.perform command).2.server.registry.Extends now.server.registry := by
  cases command with
  | register what =>
      cases registered : now.server.register what with
      | ok server =>
          rw [perform_register_of_ok registered]
          exact Server.extends_register registered
      | error failure =>
          rw [perform_register_of_error registered]
          exact .refl _
  | get method hold =>
      simp only [perform]
      split
      · exact .refl _
      · exact .refl _
  | compare hold other =>
      simp only [perform]
      split
      · exact .refl _
      · exact .refl _
  | serve request => exact Server.extends_serve now.server request
  | _ => exact .refl _

theorem extends_after (now : Dialogue A) (commands : List (Command A)) :
    (now.after commands).server.registry.Extends now.server.registry := by
  induction commands generalizing now with
  | nil => exact .refl _
  | cons command rest ih => exact (ih (now.perform command).2).trans (now.extends_perform command)

/-- Under a name that a service has taken, every other service is refused, and nothing is
changed by that. -/
theorem perform_of_taken {now : Dialogue A} {service : Service A} {explicit : Option String}
    {name : String} (resolves : Registry.resolveName service explicit = name)
    (addressable : Name.isAddressable name = true)
    (taken : now.server.registry.services.find? name ≠ none) :
    ∃ failure, (failure = .noSuitableMethods name ∨ failure = .duplicateService name) ∧
      now.perform (.register (.service service explicit)) =
        (.registered (.error failure), now) := by
  by_cases suitable : ∃ candidate ∈ service.candidates, Registry.Suitable candidate
  · have refuses := Server.Refuses.duplicateService resolves addressable suitable taken
    exact ⟨_, .inr rfl, perform_register_of_error (Server.register_eq_error_iff.2 refuses)⟩
  · push Not at suitable
    have refuses : now.server.Refuses _ _ :=
      Server.Refuses.noSuitableMethods resolves addressable suitable
    exact ⟨_, .inl rfl, perform_register_of_error (Server.register_eq_error_iff.2 refuses)⟩

/-- A service that is accepted stands under its name with its methods. -/
theorem find?_of_accepted {now : Dialogue A} {service : Service A} {explicit : Option String}
    (accepted : (now.perform (.register (.service service explicit))).1 = .registered (.ok ())) :
    let name := Registry.resolveName service explicit
    Name.isAddressable name = true ∧
      (now.perform (.register (.service service explicit))).2.server.registry.services.find? name =
        some (Registry.methodsOf name service) := by
  intro name
  cases registered : now.server.register (.service service explicit) with
  | error failure =>
      rw [perform_register_of_error registered] at accepted
      cases accepted
  | ok server =>
      rw [perform_register_of_ok registered]
      rcases Server.registerService_eq_ok_iff.1 registered with ⟨registry, added, rfl⟩
      rcases Registry.add_eq_ok_iff.1 added with ⟨addressable, _, _, rfl⟩
      exact ⟨addressable, Table.find?_insert_self _ _ _⟩

/-! ## Leaving out what is refused -/

/-- Registrations that are refused can be left out. -/
theorem leave_out_refused {now : Dialogue A} {marks : List Bool} {commands : List (Command A)}
    (full : marks.length = commands.length)
    (refused : ∀ seen ∈ Server.unmarked marks (now.observations commands), seen.isRefusal = true) :
    now.observations (Server.marked marks commands) =
        Server.marked marks (now.observations commands) ∧
      now.after (Server.marked marks commands) = now.after commands := by
  induction commands generalizing marks now with
  | nil =>
      obtain rfl := List.eq_nil_of_length_eq_zero full
      exact ⟨rfl, rfl⟩
  | cons command rest ih =>
      cases marks with
      | nil => cases full
      | cons mark marks =>
          have fullRest : marks.length = rest.length := Nat.succ.inj full
          cases mark with
          | true =>
              have later := ih fullRest refused
              simp only [Server.marked, observations, after_cons, later, and_self]
          | false =>
              have here := perform_of_refusal (refused _ List.mem_cons_self)
              have others := fun seen mem => refused seen (List.mem_cons_of_mem _ mem)
              have later := ih fullRest others
              rw [here] at later
              simp only [Server.marked, observations, after_cons, here, later, and_self]

/-- Registrations that are refused leave no trace.  Any of them, and so all of them, can be
left out of a dialogue: everything else is seen as before, and the dialogue comes to the
same end.  They are refused for the reasons of `Server.Refuses`.  In particular, once a
service has been accepted, and whatever has been asked for meanwhile, any other service is
refused under its name, which leaves the first its methods and the dialogue as a whole, the
receivers included, as it is. -/
theorem refused_registrations_leave_no_trace (now : Dialogue A) (commands : List (Command A)) :
    (∀ marks, marks.length = commands.length →
      (∀ seen ∈ Server.unmarked marks (now.observations commands), seen.isRefusal = true) →
      now.observations (Server.marked marks commands) =
          Server.marked marks (now.observations commands) ∧
        now.after (Server.marked marks commands) = now.after commands) ∧
    (let accepted := (now.observations commands).map (fun seen => !seen.isRefusal)
     now.observations (Server.marked accepted commands) =
         (now.observations commands).filter (fun seen => !seen.isRefusal) ∧
       now.after (Server.marked accepted commands) = now.after commands) ∧
    (∀ command failure, (now.perform command).1 = .registered (.error failure) ↔
      ∃ what, command = .register what ∧ now.server.Refuses what failure) ∧
    (∀ first explicit second explicit',
      Registry.resolveName second explicit' = Registry.resolveName first explicit →
      (now.perform (.register (.service first explicit))).1 = .registered (.ok ()) →
      let name := Registry.resolveName first explicit
      let later := now.after (.register (.service first explicit) :: commands)
      later.server.registry.services.find? name = some (Registry.methodsOf name first) ∧
        ∃ failure, (failure = .noSuitableMethods name ∨ failure = .duplicateService name) ∧
          later.perform (.register (.service second explicit')) =
            (.registered (.error failure), later)) := by
  constructor
  · intro marks full refused
    exact leave_out_refused full refused
  constructor
  · intro accepted
    have full : accepted.length = commands.length := by
      rw [List.length_map, length_observations]
    have refused : ∀ seen ∈ Server.unmarked accepted (now.observations commands),
        seen.isRefusal = true := by
      intro seen mem
      rw [Server.unmarked_map] at mem
      simpa using (List.mem_filter.1 mem).2
    rw [← Server.marked_map]
    exact leave_out_refused full refused
  constructor
  · intro command failure
    exact perform_eq_refusal_iff
  · intro first explicit second explicit' same accepted name later
    rcases find?_of_accepted accepted with ⟨addressable, found⟩
    have there : later.server.registry.services.find? name =
        some (Registry.methodsOf name first) :=
      extends_after _ commands name _ found
    refine ⟨there, perform_of_taken same addressable ?_⟩
    rw [there]
    exact Option.some_ne_none _

end Dialogue

end RemoteCall
