import RemoteCall.Proofs.Server.Blind
import RemoteCall.Proofs.Server.Course

/-!
# Two codecs on one server

Two runs of a server side by side, each with a codec of its own.  If the codecs
answer all questions alike, and the requests agree in all that hooks look at,
the runs do the same at every stage: they leave the same server, report the same
events and come to the same outcome.
-/

namespace RemoteCall

universe u v

variable {A : Application}

/-- Whether codecs in related states answer alike, report alike and stay related. -/
structure Codec.Simulates (codec codec' : Codec) (related : codec.State → codec'.State → Prop) :
    Prop where
  method {state : codec.State} {state' : codec'.State} : related state state' →
    related (codec.method state).state (codec'.method state').state ∧
      (codec.method state).notices = (codec'.method state').notices ∧
      (codec.method state).answer = (codec'.method state').answer
  read {state : codec.State} {state' : codec'.State} : related state state' →
    related (codec.read state).state (codec'.read state').state ∧
      (codec.read state).notices = (codec'.read state').notices ∧
      (codec.read state).answer = (codec'.read state').answer

/-- Whether two runs stand alike after some stages, on servers of blind hooks. -/
structure Stage.Alike {σ τ : Type} {α : Type u} (related : σ → τ → Prop) (stage : Stage A σ α)
    (stage' : Stage A τ α) : Prop where
  server_eq : stage.server = stage'.server
  blind : stage.server.Blind
  related : related stage.state stage'.state
  events_eq : stage.events = stage'.events
  outcome_eq : stage.outcome = stage'.outcome

namespace Stage

variable {σ τ : Type} {related : σ → τ → Prop}

theorem alike_ofResult {α : Type u} {server : Server A} (blind : server.Blind) {state : σ}
    {state' : τ} (states : related state state') (outcome : Except RpcError α) :
    Alike related (ofResult server state outcome) (ofResult server state' outcome) :=
  ⟨rfl, blind, states, rfl, rfl⟩

/-- Runs that stand alike after a stage, and go on alike, stand alike after the next. -/
theorem Alike.andThen {α : Type u} {β : Type v} {stage : Stage A σ α} {stage' : Stage A τ α}
    (alike : Alike related stage stage') {next : Server A → σ → α → Stage A σ β}
    {next' : Server A → τ → α → Stage A τ β}
    (goesOn : ∀ server : Server A, server.Blind → ∀ state state', related state state' →
      ∀ found, Alike related (next server state found) (next' server state' found)) :
    Alike related (stage.andThen next) (stage'.andThen next') := by
  rcases stage with ⟨server, state, events, outcome⟩
  rcases stage' with ⟨server', state', events', outcome'⟩
  rcases alike with ⟨rfl, blind, states, rfl, rfl⟩
  cases outcome with
  | error failure => exact ⟨rfl, blind, states, rfl, rfl⟩
  | ok found =>
      have later := goesOn server blind state state' states found
      exact ⟨later.server_eq, later.blind, later.related,
        congrArg (events ++ ·) later.events_eq, later.outcome_eq⟩

end Stage

namespace Server

open Stage

section States

variable {σ τ : Type} {related : σ → τ → Prop}

theorem runPhase_alike {request request' : Request} (agrees : request.AgreesWith request')
    (phase : Phase) (context : A.Context) {server : Server A} (blind : server.Blind) {state : σ}
    {state' : τ} (states : related state state') :
    Alike related (runPhase phase request context server state)
      (runPhase phase request' context server state') := by
  have same := runHooks_eq_of_agreesWith agrees phase 0 (blind phase) context server
  have left : (runHooks phase request 0 (server.hooks phase) context server).server.Blind :=
    Blind.runHooks phase 0 (blind phase) context blind
  unfold runPhase
  rw [← same]
  exact ⟨rfl, left, states, rfl, rfl⟩

theorem invoke_alike (descriptor : Descriptor A) (context : A.Context) (params : Value)
    {server : Server A} (blind : server.Blind) {state : σ} {state' : τ}
    (states : related state state') :
    Alike related (invoke descriptor context params server state)
      (invoke descriptor context params server state') := by
  cases notes : (descriptor.method.call (server.receiverOf descriptor) context params).notes with
  | none =>
      simp only [invoke, notes]
      exact ⟨rfl, blind, states, rfl, rfl⟩
  | some notes =>
      simp only [invoke, notes]
      let called := descriptor.method.call (server.receiverOf descriptor) context params
      have left : (server.keep descriptor called.receiver).Blind := by
        intro phase hook mem
        rw [keep_hooks] at mem
        exact blind phase hook mem
      exact ⟨rfl, left, states, rfl, rfl⟩

end States

/-- Between the choice of the codec and the writing of the response, two runs stand
alike if the codecs answer alike and both bodies are short enough. -/
theorem dispatch_alike {codec codec' : Codec} {related : codec.State → codec'.State → Prop}
    (simulates : codec.Simulates codec' related) {request request' : Request}
    (agrees : request.AgreesWith request') {server : Server A} (blind : server.Blind)
    (fits : request.body.length ≤ server.config.maxBodySize)
    (fits' : request'.body.length ≤ server.config.maxBodySize) {state : codec.State}
    {state' : codec'.State} (states : related state state') :
    Alike related (dispatch codec request server state)
      (dispatch codec' request' server state') := by
  have size : server.checkSize request = .ok () := by simp [checkSize, Nat.not_lt.2 fits]
  have size' : server.checkSize request' = .ok () := by simp [checkSize, Nat.not_lt.2 fits']
  unfold dispatch
  rw [size, size']
  apply (alike_ofResult blind states (.ok ())).andThen
  intro server blind state state' states _
  have named : Alike related (ofStep server (codec.method state))
      (ofStep server (codec'.method state')) := by
    rcases simulates.method states with ⟨states, notices, answer⟩
    exact ⟨rfl, blind, states, congrArg (List.map Notice.event) notices, answer⟩
  apply named.andThen
  intro server blind state state' states name
  apply (alike_ofResult blind states (server.registry.get name)).andThen
  intro server blind state state' states descriptor
  apply (runPhase_alike agrees .before A.fresh blind states).andThen
  intro server blind state state' states context
  have read : Alike related (ofStep server (codec.read state))
      (ofStep server (codec'.read state')) := by
    rcases simulates.read states with ⟨states, notices, answer⟩
    exact ⟨rfl, blind, states, congrArg (List.map Notice.event) notices, answer⟩
  apply read.andThen
  intro server blind state state' states params
  apply (invoke_alike descriptor context params blind states).andThen
  intro server blind state state' states found
  apply (runPhase_alike agrees .after found.1 blind states).andThen
  intro server blind state state' states _
  exact alike_ofResult blind states (.ok found.2)

end Server

end RemoteCall
