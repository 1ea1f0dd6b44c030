import RemoteCall.Proofs.Server.Receivers

/-!
# Sessions

A session is a sequence of requests that a server serves one after the other.  On a
server without registering hooks each of them follows a plan of its own, so that a
session is a sequence of runs of methods, each on the receiver of its service
(`Evolves`).  A request that runs no method can be left out, and requests that run
methods of different services can change places (`receivers_carry_all_state`).
-/

namespace RemoteCall.Server

variable {A : Application} {server : Server A}

/-! ## Serving one request after the other -/

/-- What is seen of a session: of each request, what happens and the response. -/
def transcript : Server A → List Request → List (List Event × Response)
  | _, [] => []
  | server, request :: rest =>
    let served := server.serve request
    (served.events, served.response) :: transcript served.server rest

/-- The server after a session. -/
def afterAll (server : Server A) (requests : List Request) : Server A :=
  requests.foldl (fun server request => (server.serve request).server) server

@[simp]
theorem afterAll_cons (server : Server A) (request : Request) (rest : List Request) :
    server.afterAll (request :: rest) = (server.serve request).server.afterAll rest :=
  rfl

theorem afterAll_append (server : Server A) (earlier later : List Request) :
    server.afterAll (earlier ++ later) = (server.afterAll earlier).afterAll later :=
  List.foldl_append

theorem transcript_append (server : Server A) (earlier later : List Request) :
    server.transcript (earlier ++ later) =
      server.transcript earlier ++ (server.afterAll earlier).transcript later := by
  induction earlier generalizing server with
  | nil => rfl
  | cons request rest ih => simp only [List.cons_append, transcript, ih, afterAll_cons]

theorem length_transcript (server : Server A) (requests : List Request) :
    (server.transcript requests).length = requests.length := by
  induction requests generalizing server with
  | nil => rfl
  | cons request rest ih => simp only [transcript, List.length_cons, ih]

/-! ## The receiver of a service -/

/-- `Evolves server service requests receiver last`: beginning with `receiver`, the
receiver of the service goes through the runs of its methods, one for each request that
gets to one of them, and ends as `last`. -/
inductive Evolves (server : Server A) (service : String) :
    List Request → A.Receiver → A.Receiver → Prop where
  | done {receiver : A.Receiver} : Evolves server service [] receiver receiver
  /-- The request runs no method of the service. -/
  | apart {request : Request} {rest : List Request} {receiver last : A.Receiver} :
      (∀ descriptor context args,
        server.Enters request (.handler descriptor context args) →
          descriptor.service ≠ service) →
      Evolves server service rest receiver last →
      Evolves server service (request :: rest) receiver last
  /-- The request runs a method of the service, and what that leaves behind counts even
  if the request fails later. -/
  | run {request : Request} {rest : List Request} {receiver last : A.Receiver}
      {descriptor : Descriptor A} {context : A.Context} {args : descriptor.method.Args} :
      server.Enters request (.handler descriptor context args) →
      descriptor.service = service →
      Evolves server service rest
        (descriptor.method.run receiver context args descriptor.method.blank).receiver last →
      Evolves server service (request :: rest) receiver last

theorem receiverOf_keep (now : Server A) (descriptor other : Descriptor A)
    (receiver : A.Receiver) :
    (now.keep descriptor receiver).receiverOf other =
      if other.service = descriptor.service then receiver else now.receiverOf other := by
  simp only [receiverOf, keep, Table.find?_insert]
  split
  next => rfl
  next => rfl

theorem keep_withReceivers (server : Server A) (receivers : Table A.Receiver)
    (descriptor : Descriptor A) (receiver : A.Receiver) :
    (server.withReceivers receivers).keep descriptor receiver =
      server.withReceivers (receivers.insert descriptor.service receiver) :=
  rfl

/-- A plan changes at most the receivers. -/
theorem Plan.exists_carryOut_server (plan : Plan A) (server : Server A)
    (receivers : Table A.Receiver) :
    ∃ left, (plan.carryOut (server.withReceivers receivers)).server =
      server.withReceivers left := by
  cases plan with
  | idle => exact ⟨receivers, rfl⟩
  | call => exact ⟨_, rfl⟩

theorem exists_serve_server (quiet : server.Quiet) (request : Request)
    (receivers : Table A.Receiver) :
    ∃ left, ((server.withReceivers receivers).serve request).server =
      server.withReceivers left := by
  rcases exists_follows quiet request with ⟨plan, follows⟩
  rw [follows.serve_eq]
  exact plan.exists_carryOut_server server receivers

theorem exists_afterAll (quiet : server.Quiet) (requests : List Request)
    (receivers : Table A.Receiver) :
    ∃ left, (server.withReceivers receivers).afterAll requests = server.withReceivers left := by
  induction requests generalizing receivers with
  | nil => exact ⟨receivers, rfl⟩
  | cons request rest ih =>
      rcases exists_serve_server quiet request receivers with ⟨left, served⟩
      rw [afterAll_cons, served]
      exact ih left

/-- Over a session, the receiver of a service goes through the runs of its methods. -/
theorem evolves_afterAll (wellFormed : server.registry.WellFormed) (quiet : server.Quiet)
    (requests : List Request) {name : String} {descriptor : Descriptor A}
    (found : server.registry.get name = .ok descriptor) (receivers : Table A.Receiver) :
    Evolves server descriptor.service requests
      ((server.withReceivers receivers).receiverOf descriptor)
      (((server.withReceivers receivers).afterAll requests).receiverOf descriptor) := by
  induction requests generalizing receivers with
  | nil => exact .done
  | cons request rest ih =>
      rcases exists_follows quiet request with ⟨plan, follows⟩
      rw [afterAll_cons, follows.serve_eq]
      cases plan with
      | idle events response =>
          apply Evolves.apart
          · intro other context args enters
            exact absurd enters (follows.suits other context args)
          · exact ih receivers
      | call called context args events response =>
          have resolves := Enters.resolves follows.suits
          let run := (server.withReceivers receivers).handle called context args
          have later := ih (receivers.insert called.service run.receiver)
          rw [← keep_withReceivers, receiverOf_keep] at later
          by_cases same : descriptor.service = called.service
          · rw [if_pos same] at later
            have shared : (server.withReceivers receivers).receiverOf called =
                (server.withReceivers receivers).receiverOf descriptor := by
              rcases resolves.exists_get with ⟨name', found'⟩
              exact receiverOf_eq same.symm (wellFormed.receiver_eq found' found same.symm)
            apply Evolves.run follows.suits same.symm
            rw [← shared]
            exact later
          · rw [if_neg same] at later
            apply Evolves.apart
            · intro other context' args' enters
              rw [(Enters.resolves enters).unique resolves]
              exact Ne.symm same
            · exact later

/-! ## Two requests -/

/-- Whether plans run methods of different services, if they run any. -/
def Plan.Apart : Plan A → Plan A → Prop
  | .call descriptor .., .call descriptor' .. => descriptor.service ≠ descriptor'.service
  | _, _ => True

theorem Plan.Apart.symm {plan plan' : Plan A} (apart : plan.Apart plan') :
    plan'.Apart plan := by
  cases plan with
  | idle => cases plan' <;> trivial
  | call =>
      cases plan' with
      | idle => trivial
      | call => exact Ne.symm apart

theorem handle_keep (now : Server A) {descriptor other : Descriptor A}
    (apart : other.service ≠ descriptor.service) (receiver : A.Receiver) (context : A.Context)
    (args : other.method.Args) :
    (now.keep descriptor receiver).handle other context args = now.handle other context args := by
  rw [handle, receiverOf_keep, if_neg apart, handle]

/-- A plan is carried out in the same way behind one that is apart from it. -/
theorem Plan.carryOut_behind {plan plan' : Plan A} (apart : plan.Apart plan') (now : Server A) :
    (plan'.carryOut (plan.carryOut now).server).events = (plan'.carryOut now).events ∧
      (plan'.carryOut (plan.carryOut now).server).response = (plan'.carryOut now).response := by
  cases plan with
  | idle => exact ⟨rfl, rfl⟩
  | call descriptor context args events response =>
      cases plan' with
      | idle => exact ⟨rfl, rfl⟩
      | call descriptor' context' args' events' response' =>
          simp only [carryOut, handle_keep now (Ne.symm apart), and_self]

/-- Plans that are apart leave the same server in either order. -/
theorem Plan.carryOut_comm {plan plan' : Plan A} (apart : plan.Apart plan') (now : Server A) :
    (plan'.carryOut (plan.carryOut now).server).server =
      (plan.carryOut (plan'.carryOut now).server).server := by
  cases plan with
  | idle => rfl
  | call descriptor context args events response =>
      cases plan' with
      | idle => rfl
      | call descriptor' context' args' events' response' =>
          simp only [carryOut, handle_keep now apart, handle_keep now (Ne.symm apart)]
          simp only [keep, Table.insert_comm now.receivers apart]

/-- Plans of requests that are resolved to different services are apart. -/
theorem Follows.apart {a b : Request} {plan plan' : Plan A} (follows : server.Follows a plan)
    (follows' : server.Follows b plan')
    (different : ∀ descriptor descriptor', server.Resolves a descriptor →
      server.Resolves b descriptor' → descriptor.service ≠ descriptor'.service) :
    plan.Apart plan' := by
  cases plan with
  | idle => trivial
  | call =>
      cases plan' with
      | idle => trivial
      | call =>
          exact different _ _ (Enters.resolves follows.suits) (Enters.resolves follows'.suits)

/-! ## Sessions compared -/

/-- A request is served alike whatever the receivers are, but for the one of its service. -/
theorem serve_congr (quiet : server.Quiet) {request : Request}
    {receivers receivers' : Table A.Receiver}
    (agree : ∀ descriptor, server.Resolves request descriptor →
      (server.withReceivers receivers).receiverOf descriptor =
        (server.withReceivers receivers').receiverOf descriptor) :
    ((server.withReceivers receivers).serve request).events =
        ((server.withReceivers receivers').serve request).events ∧
      ((server.withReceivers receivers).serve request).response =
        ((server.withReceivers receivers').serve request).response := by
  rcases exists_follows quiet request with ⟨plan, follows⟩
  rw [follows.serve_eq, follows.serve_eq]
  cases plan with
  | idle => exact ⟨rfl, rfl⟩
  | call descriptor context args events response =>
      have same : (server.withReceivers receivers).handle descriptor context args =
          (server.withReceivers receivers').handle descriptor context args := by
        rw [handle, agree descriptor (Enters.resolves follows.suits), handle]
      simp only [Plan.carryOut, same, and_self]

/-- A request that runs no method leaves the server as it is. -/
theorem serve_server_of_uncalled (quiet : server.Quiet) {request : Request}
    {receivers : Table A.Receiver}
    (uncalled : ∀ event ∈ ((server.withReceivers receivers).serve request).events,
      isCall event = false) :
    ((server.withReceivers receivers).serve request).server = server.withReceivers receivers := by
  rcases exists_follows quiet request with ⟨plan, follows⟩
  rw [follows.serve_eq]
  cases plan with
  | idle => rfl
  | call descriptor context args events response =>
      have enters := Enters.withReceivers follows.suits trivial receivers
      rcases (exists_call_iff (quiet.withReceivers receivers)).2
        ⟨descriptor, context, args, enters⟩ with ⟨call, mem, called⟩
      rw [uncalled call mem] at called
      cases called

/-- The entries with a mark. -/
def marked {α : Type*} : List Bool → List α → List α
  | true :: marks, entry :: rest => entry :: marked marks rest
  | false :: marks, _ :: rest => marked marks rest
  | _, _ => []

/-- The entries without a mark. -/
def unmarked {α : Type*} (marks : List Bool) (entries : List α) : List α :=
  marked (marks.map not) entries

/-- Marking entries by a test keeps those that pass it. -/
theorem marked_map {α : Type*} (keep : α → Bool) (entries : List α) :
    marked (entries.map keep) entries = entries.filter keep := by
  induction entries with
  | nil => rfl
  | cons entry rest ih =>
      cases kept : keep entry with
      | true => rw [List.map_cons, kept, marked, ih, List.filter_cons_of_pos kept]
      | false =>
          rw [List.map_cons, kept, marked, ih, List.filter_cons_of_neg (by simp [kept])]

theorem unmarked_map {α : Type*} (keep : α → Bool) (entries : List α) :
    unmarked (entries.map keep) entries = entries.filter fun entry => !keep entry := by
  rw [unmarked, List.map_map]
  exact marked_map _ entries

/-- Requests that run no method can be left out of a session. -/
theorem leave_out (quiet : server.Quiet) {marks : List Bool} {requests : List Request}
    (full : marks.length = requests.length) {receivers : Table A.Receiver}
    (uncalled : ∀ entry ∈ unmarked marks ((server.withReceivers receivers).transcript requests),
      ∀ event ∈ entry.1, isCall event = false) :
    (server.withReceivers receivers).transcript (marked marks requests) =
        marked marks ((server.withReceivers receivers).transcript requests) ∧
      (server.withReceivers receivers).afterAll (marked marks requests) =
        (server.withReceivers receivers).afterAll requests := by
  induction requests generalizing marks receivers with
  | nil =>
      obtain rfl := List.eq_nil_of_length_eq_zero full
      exact ⟨rfl, rfl⟩
  | cons request rest ih =>
      cases marks with
      | nil => cases full
      | cons mark marks =>
          have fullRest : marks.length = rest.length := Nat.succ.inj full
          cases mark with
          | true =>
              rcases exists_serve_server quiet request receivers with ⟨left, served⟩
              simp only [unmarked, transcript, served] at uncalled
              have later := ih fullRest uncalled
              simp only [marked, transcript, afterAll_cons, served, later, and_self]
          | false =>
              have uncalledNow := uncalled _ List.mem_cons_self
              have served := serve_server_of_uncalled quiet uncalledNow
              simp only [transcript, served] at uncalled
              have later := ih fullRest fun entry mem =>
                uncalled entry (List.mem_cons_of_mem _ mem)
              simp only [marked, transcript, afterAll_cons, served, later, and_self]

/-- Two requests that are resolved to different services can change places. -/
theorem change_places (quiet : server.Quiet) {a b : Request}
    (different : ∀ descriptor descriptor', server.Resolves a descriptor →
      server.Resolves b descriptor' → descriptor.service ≠ descriptor'.service)
    (later : List Request) (receivers : Table A.Receiver) :
    let now := server.withReceivers receivers
    now.afterAll (a :: b :: later) = now.afterAll (b :: a :: later) ∧
      ∃ ofA ofB behind, now.transcript (a :: b :: later) = ofA :: ofB :: behind ∧
        now.transcript (b :: a :: later) = ofB :: ofA :: behind := by
  intro now
  rcases exists_follows quiet a with ⟨plan, follows⟩
  rcases exists_follows quiet b with ⟨plan', follows'⟩
  have apart := follows.apart follows' different
  have servedA : now.serve a = plan.carryOut now := follows.serve_eq receivers
  have servedB : now.serve b = plan'.carryOut now := follows'.serve_eq receivers
  have servedAfterA : (plan.carryOut now).server.serve b =
      plan'.carryOut (plan.carryOut now).server := by
    rcases plan.exists_carryOut_server server receivers with ⟨left, kept⟩
    rw [kept, follows'.serve_eq]
  have servedAfterB : (plan'.carryOut now).server.serve a =
      plan.carryOut (plan'.carryOut now).server := by
    rcases plan'.exists_carryOut_server server receivers with ⟨left, kept⟩
    rw [kept, follows.serve_eq]
  have together := Plan.carryOut_comm apart now
  rcases Plan.carryOut_behind apart now with ⟨eventsB, responseB⟩
  rcases Plan.carryOut_behind apart.symm now with ⟨eventsA, responseA⟩
  constructor
  · simp only [afterAll_cons, servedA, servedB, servedAfterA, servedAfterB, together]
  · refine ⟨_, _, _, rfl, ?_⟩
    simp only [transcript, servedA, servedB, servedAfterA, servedAfterB, together, eventsA,
      eventsB, responseA, responseB]

/-- A server without registering hooks carries nothing from one request to the next but the
receivers of its services.  A request is answered by the registrations and the receiver of
the service that it is resolved to; the receiver of a service goes through the runs of its
methods and nothing else, and begins as that service brought it, even if another service has
been registered with the same.  So requests that run no method can be left out of a session,
and neighbours that are resolved to different services can change places. -/
theorem receivers_carry_all_state (arises : server.Arises) (quiet : server.Quiet) :
    (∀ requests, ∃ receivers, server.afterAll requests = server.withReceivers receivers) ∧
    (∀ request receivers receivers',
      (∀ descriptor, server.Resolves request descriptor →
        (server.withReceivers receivers).receiverOf descriptor =
          (server.withReceivers receivers').receiverOf descriptor) →
      ((server.withReceivers receivers).serve request).events =
          ((server.withReceivers receivers').serve request).events ∧
        ((server.withReceivers receivers).serve request).response =
          ((server.withReceivers receivers').serve request).response) ∧
    (∀ earlier request descriptor context args,
      (server.afterAll earlier).Enters request (.handler descriptor context args) ↔
        server.Enters request (.handler descriptor context args)) ∧
    (∀ requests name descriptor, server.registry.get name = .ok descriptor →
      Evolves server descriptor.service requests (server.receiverOf descriptor)
        ((server.afterAll requests).receiverOf descriptor)) ∧
    (∀ name name' descriptor descriptor', server.registry.get name = .ok descriptor →
      server.registry.get name' = .ok descriptor' → descriptor.service = descriptor'.service →
        server.receiverOf descriptor = server.receiverOf descriptor') ∧
    (∀ service explicit after, server.registerService service explicit = .ok after →
      ∀ name descriptor, after.registry.get name = .ok descriptor →
        (descriptor.service = Registry.resolveName service explicit →
          after.receiverOf descriptor = service.receiver) ∧
        (descriptor.service ≠ Registry.resolveName service explicit →
          server.registry.get name = .ok descriptor ∧
            after.receiverOf descriptor = server.receiverOf descriptor)) ∧
    (∀ marks requests, marks.length = requests.length →
      (∀ entry ∈ unmarked marks (server.transcript requests), ∀ event ∈ entry.1,
        isCall event = false) →
      server.transcript (marked marks requests) = marked marks (server.transcript requests) ∧
        server.afterAll (marked marks requests) = server.afterAll requests) ∧
    (∀ earlier a b later,
      (∀ descriptor descriptor', server.Resolves a descriptor →
        server.Resolves b descriptor' → descriptor.service ≠ descriptor'.service) →
      server.afterAll (earlier ++ a :: b :: later) =
          server.afterAll (earlier ++ b :: a :: later) ∧
        ∃ before ofA ofB behind, before.length = earlier.length ∧
          server.transcript (earlier ++ a :: b :: later) = before ++ ofA :: ofB :: behind ∧
          server.transcript (earlier ++ b :: a :: later) = before ++ ofB :: ofA :: behind) := by
  have wellFormed := arises.wellFormed
  constructor
  · intro requests
    exact exists_afterAll quiet requests server.receivers
  constructor
  · intro request receivers receivers' agree
    exact serve_congr quiet agree
  constructor
  · intro earlier request descriptor context args
    rcases exists_afterAll quiet earlier server.receivers with ⟨left, kept⟩
    have after : server.afterAll earlier = server.withReceivers left := kept
    rw [after]
    constructor
    · intro enters
      exact enters.withReceivers trivial server.receivers
    · intro enters
      exact enters.withReceivers trivial left
  constructor
  · intro requests name descriptor found
    exact evolves_afterAll wellFormed.registry quiet requests found server.receivers
  constructor
  · intro name name' descriptor descriptor' found found' sameService
    exact wellFormed.receiverOf_eq found found' sameService
  constructor
  · intro service explicit after registered name descriptor found
    exact ⟨wellFormed.receiverOf_registerService registered found,
      wellFormed.get_of_registerService registered found⟩
  constructor
  · intro marks requests full uncalled
    exact leave_out quiet full uncalled
  · intro earlier a b later different
    rcases exists_afterAll quiet earlier server.receivers with ⟨left, kept⟩
    have after : server.afterAll earlier = server.withReceivers left := kept
    rcases change_places quiet different later left with ⟨same, ofA, ofB, behind, first, second⟩
    constructor
    · rw [afterAll_append, afterAll_append, after, same]
    · refine ⟨server.transcript earlier, ofA, ofB, behind, length_transcript server earlier, ?_, ?_⟩
      · rw [transcript_append, after, first]
      · rw [transcript_append, after, second]

/-! ### Two counters

Two services of the same kind, each of which counts its calls, behind a hook that reports
the verb.  An empty body calls the first, any other body the second. -/

namespace TwoCounters

def application : Application :=
  ⟨Nat, "Nat", 0, "Request", Nat⟩

def codec : Codec :=
  { State := Bytes
    start := fun request => (request.body, [])
    method := fun body => ⟨body, [], .ok (if body = [] then "One.Count" else "Two.Count")⟩
    read := fun body => ⟨body, [], .ok .null⟩
    writeReply := fun _ body => ⟨body, [], ⟨200, .empty, []⟩⟩
    writeError := fun status _ body => ⟨body, [], ⟨status, .empty, []⟩⟩ }

def count : Method application :=
  ⟨Value, Value, "Value", "Value", .ok, .null,
    fun calls context _ reply => ⟨Nat.succ calls, context, [Nat.repr calls], .ok reply⟩, .value⟩

def counter : Service application :=
  ⟨"Counter", "Counter", (0 : Nat), [⟨"Count", "Nat", count⟩]⟩

def report : Hook application :=
  fun request seen => .note request.verb (.finish seen (.ok ()))

def builder : Builder application :=
  { steps := [.codec "text/plain" codec, .service counter (some "One"),
      .service counter (some "Two"), .hook .before "Request" "Nat" report] }

/-- The method of the service of that name. -/
def descriptor (service : String) : Descriptor application :=
  ⟨service, "Count", 0, (0 : Nat), count⟩

def host : Server application :=
  { Server.new.registerCodec "text/plain" codec with
    registry := ⟨(Table.empty.insert "One" (Table.empty.insert "Count" (descriptor "One"))).insert
      "Two" (Table.empty.insert "Count" (descriptor "Two"))⟩
    before := [report] }

def request (body : Bytes) : Request :=
  ⟨"POST", [], body⟩

theorem selectCodec_eq (body : Bytes) : host.selectCodec (request body) = .ok codec := by
  have untyped : contentTypeOf (request []) = "" := by decide +kernel
  have same : contentTypeOf (request body) = "" := untyped
  have single : host.codecs.entries = [("text/plain", codec)] := rfl
  simp only [selectCodec, same, single, if_true]

end TwoCounters

open TwoCounters in
/-- Calls of the two counters can change places. -/
theorem receivers_carry_all_state_two_counters :
    builder.build = .ok host ∧ host.Arises ∧ host.Quiet ∧
      host.afterAll [request [], request [], request [0]] =
        host.afterAll [request [], request [0], request []] := by
  have built : builder.build = .ok host := rfl
  have quiet : host.Quiet := by
    intro phase hook mem request context
    cases phase with
    | before =>
        rcases List.mem_singleton.1 mem with rfl
        exact .note request.verb (.finish _ _)
    | after => cases mem
  have resolvesOne : host.Resolves (request []) (descriptor "One") :=
    ⟨rfl, codec, selectCodec_eq [], by decide, "One.Count", rfl, rfl⟩
  have resolvesTwo : host.Resolves (request [0]) (descriptor "Two") :=
    ⟨rfl, codec, selectCodec_eq [0], by decide, "Two.Count", rfl, rfl⟩
  have different : ∀ one two, host.Resolves (request []) one →
      host.Resolves (request [0]) two → one.service ≠ two.service := by
    intro one two resolves resolves'
    rw [← resolvesOne.unique resolves, ← resolvesTwo.unique resolves']
    decide
  have arises := arises_of_build built
  obtain ⟨-, -, -, -, -, -, -, swap⟩ := receivers_carry_all_state arises quiet
  exact ⟨built, arises, quiet, (swap [request []] (request []) (request [0]) [] different).1⟩

end RemoteCall.Server
