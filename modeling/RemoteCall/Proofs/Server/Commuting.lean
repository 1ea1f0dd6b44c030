import RemoteCall.Proofs.Server.Building

/-!
# Registrations in any order

What is registered belongs to a `Lane`: the codecs of one content type, the services of one
name, the hooks of one phase.  Registrations in different lanes do not notice each other, so
only the order within each lane counts: orders that agree there (`SameOrder`) are answered
alike and end at the same server.
-/

namespace RemoteCall

variable {A : Application}

/-! ## Lanes -/

/-- Where the order of registrations matters. -/
inductive Lane where
  /-- The codecs of one content type, in lower case. -/
  | codec (contentType : String)
  | service (name : String)
  | hook (phase : Phase)
  deriving DecidableEq, Repr

/-- The lane of a registration. -/
def Registration.lane : Registration A → Lane
  | .codec contentType _ => .codec (lowerAscii contentType)
  | .service added explicit => .service (Registry.resolveName added explicit)
  | .hook phase _ _ _ => .hook phase

namespace Server

/-- The server with what is registered put in its place, without any conditions. -/
def put (server : Server A) : Registration A → Server A
  | .codec contentType codec => server.registerCodec contentType codec
  | .service service explicit =>
    let name := Registry.resolveName service explicit
    { server with
      registry := ⟨server.registry.services.insert name (Registry.methodsOf name service)⟩ }
  | .hook .before _ _ run => { server with before := server.before ++ [run] }
  | .hook .after _ _ run => { server with after := server.after ++ [run] }

theorem eq_put_of_register {server after : Server A} {what : Registration A}
    (registered : server.register what = .ok after) : after = server.put what := by
  cases what with
  | codec contentType codec => exact (Except.ok.inj registered).symm
  | service service explicit =>
      rcases registerService_eq_ok_iff.1 registered with ⟨registry, added, rfl⟩
      rcases Registry.add_eq_ok_iff.1 added with ⟨_, _, _, rfl⟩
      rfl
  | hook phase requestType contextType run =>
      rcases registerHook_eq_ok_iff.1 registered with ⟨_, _, rfl⟩
      cases phase <;> rfl

theorem put_comm (server : Server A) {first second : Registration A}
    (apart : first.lane ≠ second.lane) :
    (server.put first).put second = (server.put second).put first := by
  cases first with
  | codec contentType codec =>
      cases second with
      | codec contentType' codec' =>
          have different : lowerAscii contentType ≠ lowerAscii contentType' := by
            intro same
            exact apart (congrArg Lane.codec same)
          simp only [put, registerCodec, Table.insert_comm _ different]
      | service => rfl
      | hook phase => cases phase <;> rfl
  | service service explicit =>
      cases second with
      | codec => rfl
      | service service' explicit' =>
          have different : Registry.resolveName service explicit
              ≠ Registry.resolveName service' explicit' := by
            intro same
            exact apart (congrArg Lane.service same)
          simp only [put, Table.insert_comm _ different]
      | hook phase => cases phase <;> rfl
  | hook phase =>
      cases second with
      | codec => cases phase <;> rfl
      | service => cases phase <;> rfl
      | hook phase' =>
          cases phase with
          | before =>
              cases phase' with
              | before => exact absurd rfl apart
              | after => rfl
          | after =>
              cases phase' with
              | before => rfl
              | after => exact absurd rfl apart

/-- The services of other lanes are those that there were. -/
theorem find?_put (server : Server A) {other : Registration A} {name : String}
    (apart : Lane.service name ≠ other.lane) :
    (server.put other).registry.services.find? name = server.registry.services.find? name := by
  cases other with
  | codec => rfl
  | service service explicit =>
      have different : name ≠ Registry.resolveName service explicit := by
        intro same
        exact apart (congrArg Lane.service same)
      simp only [put, Table.find?_insert, if_neg different]
  | hook phase => cases phase <;> rfl

/-- A registration is refused for the same reason wherever the same services are in its lane. -/
theorem Refuses.transfer {server server' : Server A} {what : Registration A} {failure : RpcError}
    (refuses : server.Refuses what failure)
    (alike : ∀ name, what.lane = .service name →
      server'.registry.services.find? name = server.registry.services.find? name) :
    server'.Refuses what failure := by
  cases refuses with
  | noServiceName unnamed => exact .noServiceName unnamed
  | invalidServiceName resolves dotted => exact .invalidServiceName resolves dotted
  | noSuitableMethods resolves addressable unsuitable =>
      exact .noSuitableMethods resolves addressable unsuitable
  | duplicateService resolves addressable suitable taken =>
      rw [← alike _ (congrArg Lane.service resolves)] at taken
      exact .duplicateService resolves addressable suitable taken
  | malformedRequest foreign => exact .malformedRequest foreign
  | malformedContext foreign => exact .malformedContext foreign

/-- Whether a registration is refused is a matter of its own lane. -/
theorem refuses_put_iff (server : Server A) {what other : Registration A}
    (apart : what.lane ≠ other.lane) {failure : RpcError} :
    (server.put other).Refuses what failure ↔ server.Refuses what failure := by
  have alike (name : String) (own : what.lane = .service name) :
      (server.put other).registry.services.find? name = server.registry.services.find? name :=
    find?_put server (own ▸ apart)
  constructor
  · intro refuses
    exact refuses.transfer fun name own => (alike name own).symm
  · intro refuses
    exact refuses.transfer alike

/-- Behind a registration in another lane, a registration comes to what it comes to anyway. -/
theorem register_put (server : Server A) {what other : Registration A}
    (apart : what.lane ≠ other.lane) :
    (server.put other).register what = (server.register what).map (·.put other) := by
  cases registered : server.register what with
  | error failure =>
      have refuses := register_eq_error_iff.1 registered
      exact register_eq_error_iff.2 ((refuses_put_iff server apart).2 refuses)
  | ok after =>
      cases behind : (server.put other).register what with
      | error failure =>
          have refuses := (refuses_put_iff server apart).1 (register_eq_error_iff.1 behind)
          rw [register_eq_error_iff.2 refuses] at registered
          cases registered
      | ok after' =>
          rw [eq_put_of_register registered, eq_put_of_register behind, put_comm server apart.symm]
          rfl

end Server

/-! ## Orders -/

/-- Whether two orders of registrations agree within every lane. -/
def SameOrder (registrations others : List (Registration A)) : Prop :=
  ∀ lane, registrations.filter (fun what => what.lane = lane)
    = others.filter (fun what => what.lane = lane)

theorem SameOrder.symm {registrations others : List (Registration A)}
    (same : SameOrder registrations others) : SameOrder others registrations :=
  fun lane => (same lane).symm

/-- The first registration of an order stands in the other one behind registrations of other
lanes, and the orders still agree without it. -/
theorem SameOrder.exists_split {what : Registration A} {rest others : List (Registration A)}
    (same : SameOrder (what :: rest) others) :
    ∃ earlier later, others = earlier ++ what :: later ∧
      (∀ other ∈ earlier, other.lane ≠ what.lane) ∧ SameOrder rest (earlier ++ later) := by
  have own := same what.lane
  rw [List.filter_cons_of_pos (by simp)] at own
  rcases List.filter_eq_cons_iff.1 own.symm with ⟨earlier, later, rfl, others, -, behind⟩
  have apart : ∀ other ∈ earlier, other.lane ≠ what.lane := by
    intro other mem
    simpa using others other mem
  refine ⟨earlier, later, rfl, apart, ?_⟩
  intro lane
  rw [List.filter_append]
  by_cases here : what.lane = lane
  · subst here
    have none : earlier.filter (fun other => other.lane = what.lane) = [] := by
      simpa [List.filter_eq_nil_iff] using apart
    rw [none, List.nil_append, behind]
  · have whole := same lane
    rw [List.filter_append, List.filter_cons_of_neg (by simpa using here),
      List.filter_cons_of_neg (by simpa using here)] at whole
    exact whole

theorem SameOrder.eq_nil {others : List (Registration A)} (same : SameOrder [] others) :
    others = [] := by
  cases others with
  | nil => rfl
  | cons what rest =>
      have own := same what.lane
      rw [List.filter_nil, List.filter_cons_of_pos (by simp)] at own
      cases own

namespace Dialogue

/-- The dialogue with what is registered put in its place. -/
def put (now : Dialogue A) (what : Registration A) : Dialogue A :=
  { now with server := now.server.put what }

theorem perform_eq_self_or_put (now : Dialogue A) (what : Registration A) :
    (now.perform (.register what)).2 = now ∨ (now.perform (.register what)).2 = now.put what := by
  cases registered : now.server.register what with
  | error failure =>
      rw [perform_register_of_error registered]
      exact .inl rfl
  | ok after =>
      obtain rfl := Server.eq_put_of_register registered
      rw [perform_register_of_ok registered]
      exact .inr rfl

/-- What has been put in another lane stays out of a registration. -/
theorem perform_put (now : Dialogue A) {what other : Registration A}
    (apart : what.lane ≠ other.lane) :
    (now.put other).perform (.register what)
      = ((now.perform (.register what)).1, (now.perform (.register what)).2.put other) := by
  have behind : (now.put other).server.register what = _ := now.server.register_put apart
  cases registered : now.server.register what with
  | error failure =>
      rw [registered] at behind
      rw [perform_register_of_error registered, perform_register_of_error behind]
  | ok after =>
      rw [registered] at behind
      rw [perform_register_of_ok registered, perform_register_of_ok behind]
      rfl

/-- A registration in another lane makes no difference to the answer. -/
theorem perform_behind (now : Dialogue A) {what other : Registration A}
    (apart : what.lane ≠ other.lane) :
    ((now.perform (.register other)).2.perform (.register what)).1
      = (now.perform (.register what)).1 := by
  rcases now.perform_eq_self_or_put other with unchanged | changed
  · rw [unchanged]
  · rw [changed, perform_put now apart]

/-- Two registrations in different lanes come to the same end in either order. -/
theorem perform_comm (now : Dialogue A) {first second : Registration A}
    (apart : first.lane ≠ second.lane) :
    ((now.perform (.register first)).2.perform (.register second)).2
      = ((now.perform (.register second)).2.perform (.register first)).2 := by
  have firstBehind := now.perform_put apart
  have secondBehind := now.perform_put apart.symm
  rcases now.perform_eq_self_or_put first with noFirst | first'
  · rcases now.perform_eq_self_or_put second with noSecond | second'
    · rw [noFirst, noSecond, noFirst]
    · rw [noFirst, second', firstBehind, noFirst]
  · rcases now.perform_eq_self_or_put second with noSecond | second'
    · rw [first', noSecond, secondBehind, noSecond, first']
    · rw [first', second', firstBehind, secondBehind, first', second']
      exact congrArg (fun server => { now with server }) (now.server.put_comm apart.symm)

/-! ## Registrations with their answers -/

/-- Registrations, one after the other, each with the answer to it. -/
def answers (now : Dialogue A) (registrations : List (Registration A)) :
    List (Registration A × Observation A) :=
  registrations.zip (now.observations (registrations.map .register))

theorem answers_cons (now : Dialogue A) (what : Registration A) (rest : List (Registration A)) :
    now.answers (what :: rest) = (what, (now.perform (.register what)).1) ::
      (now.perform (.register what)).2.answers rest :=
  rfl

theorem answers_append (now : Dialogue A) (earlier later : List (Registration A)) :
    now.answers (earlier ++ later)
      = now.answers earlier ++ (now.after (earlier.map .register)).answers later := by
  induction earlier generalizing now with
  | nil => rfl
  | cons what rest ih =>
      rw [List.cons_append, answers_cons, answers_cons, ih]
      rfl

theorem map_fst_answers (now : Dialogue A) (registrations : List (Registration A)) :
    (now.answers registrations).map Prod.fst = registrations := by
  apply List.map_fst_zip
  rw [length_observations, List.length_map]

/-- A registration can be made in front of registrations in other lanes. -/
theorem perform_past (now : Dialogue A) {what : Registration A} {earlier : List (Registration A)}
    (apart : ∀ other ∈ earlier, other.lane ≠ what.lane) :
    (now.perform (.register what)).2.answers earlier = now.answers earlier ∧
      (now.after (earlier.map .register)).perform (.register what)
        = ((now.perform (.register what)).1,
          (now.perform (.register what)).2.after (earlier.map .register)) := by
  induction earlier generalizing now with
  | nil => exact ⟨rfl, rfl⟩
  | cons other rest ih =>
      rw [List.forall_mem_cons] at apart
      rcases ih (now.perform (.register other)).2 apart.2 with ⟨sameAnswers, sameEnd⟩
      rw [now.perform_comm apart.1] at sameAnswers sameEnd
      rw [now.perform_behind apart.1.symm] at sameEnd
      constructor
      · rw [answers_cons, answers_cons, now.perform_behind apart.1, sameAnswers]
      · exact sameEnd

/-- Orders that agree within every lane are answered alike there, and come to the same end. -/
theorem answers_of_sameOrder (now : Dialogue A) {registrations others : List (Registration A)}
    (same : SameOrder registrations others) :
    (∀ lane, (now.answers registrations).filter (fun answered => answered.1.lane = lane)
        = (now.answers others).filter (fun answered => answered.1.lane = lane)) ∧
      now.after (registrations.map .register) = now.after (others.map .register) := by
  induction registrations generalizing now others with
  | nil =>
      obtain rfl := same.eq_nil
      exact ⟨fun _ => rfl, rfl⟩
  | cons what rest ih =>
      -- What comes first here is made first there too, past registrations in other lanes.
      rcases same.exists_split with ⟨earlier, later, rfl, apart, remaining⟩
      rcases now.perform_past apart with ⟨sameAnswers, behind⟩
      rcases ih (now.perform (.register what)).2 remaining with ⟨alike, sameEnd⟩
      constructor
      · intro lane
        have further := alike lane
        rw [answers_append, sameAnswers, List.filter_append] at further
        rw [answers_cons, answers_append, answers_cons, behind, List.filter_append]
        by_cases own : what.lane = lane
        · subst own
          have none : (now.answers earlier).filter (fun answered => answered.1.lane = what.lane)
              = [] := by
            rw [List.filter_eq_nil_iff]
            intro answered mem
            have made : answered.1 ∈ earlier :=
              now.map_fst_answers earlier ▸ List.mem_map_of_mem mem
            simpa using apart answered.1 made
          rw [none, List.nil_append] at further ⊢
          rw [List.filter_cons_of_pos (by simp), List.filter_cons_of_pos (by simp), further]
        · rw [List.filter_cons_of_neg (by simpa using own),
            List.filter_cons_of_neg (by simpa using own), further]
      · rw [List.map_append, after_append] at sameEnd
        rw [List.map_cons, after_cons, sameEnd, List.map_append, after_append, List.map_cons,
          after_cons, behind]

theorem mem_observations_iff {now : Dialogue A} {registrations : List (Registration A)}
    {seen : Observation A} :
    seen ∈ now.observations (registrations.map .register) ↔
      ∃ what, (what, seen) ∈ now.answers registrations := by
  have seenAll : (now.answers registrations).map Prod.snd
      = now.observations (registrations.map .register) := by
    apply List.map_snd_zip
    rw [length_observations, List.length_map]
  rw [← seenAll]
  simp

theorem mem_answers_of_sameOrder {now : Dialogue A} {registrations others : List (Registration A)}
    (same : SameOrder registrations others) {answered : Registration A × Observation A}
    (mem : answered ∈ now.answers others) : answered ∈ now.answers registrations := by
  have own : answered ∈ (now.answers others).filter
      (fun other => other.1.lane = answered.1.lane) := by
    simpa using mem
  rw [← (now.answers_of_sameOrder same).1 answered.1.lane] at own
  exact (List.mem_filter.1 own).1

end Dialogue

/-- A builder makes the same server of orders that agree within every lane. -/
theorem build_of_sameOrder {registrations others : List (Registration A)}
    (same : SameOrder registrations others) {config : Config} {server : Server A}
    (built : Builder.build ⟨config, registrations⟩ = .ok server) :
    Builder.build ⟨config, others⟩ = .ok server := by
  let fresh : Dialogue A := { server := .withConfig config }
  have registered : fresh.server.registerAll registrations = .ok server := built
  have accepted := Dialogue.forall_accepted_iff.2 ⟨server, registered⟩
  have acceptedToo : ∃ server', fresh.server.registerAll others = .ok server' := by
    apply Dialogue.forall_accepted_iff.1
    intro seen mem
    rcases Dialogue.mem_observations_iff.1 mem with ⟨what, answered⟩
    apply accepted
    exact Dialogue.mem_observations_iff.2 ⟨what, Dialogue.mem_answers_of_sameOrder same answered⟩
  rcases acceptedToo with ⟨server', builtToo⟩
  have sameEnd := (fresh.answers_of_sameOrder same).2
  rw [Dialogue.after_registrations registered, Dialogue.after_registrations builtToo] at sameEnd
  have sameServer : server = server' := congrArg Dialogue.server sameEnd
  rw [sameServer]
  exact builtToo

/-! ## The order in which codecs are listed -/

/-- Wherever an entry stands in a list, a search by the key finds it. -/
theorem Table.find?_of_perm {α : Type*} {table : Table α} {listing : List (String × α)}
    (perm : listing.Perm table.entries) (key : String) :
    (listing.find? fun entry => entry.1 = key).map Prod.snd = table.find? key := by
  apply Option.ext
  intro value
  rw [Table.find?_eq_some_iff, ← perm.mem_iff, Option.map_eq_some_iff]
  constructor
  · rintro ⟨entry, found, rfl⟩
    have named : entry.1 = key := by simpa using List.find?_some found
    exact named ▸ List.mem_of_find?_eq_some found
  · intro mem
    cases found : listing.find? fun entry => entry.1 = key with
    | none => simpa using List.find?_eq_none.1 found _ mem
    | some entry =>
        have named : entry.1 = key := by simpa using List.find?_some found
        have there := Table.find?_eq_some_iff.2 (perm.mem_iff.1 (List.mem_of_find?_eq_some found))
        rw [named, Table.find?_eq_some_iff.2 (perm.mem_iff.1 mem)] at there
        exact ⟨entry, rfl, (Option.some.inj there).symm⟩

namespace Server

/-- The codec for a content type, if the codecs are listed in this order. -/
def chooseFrom (listing : List (String × Codec)) (contentType : String) : Except RpcError Codec :=
  let chosen :=
    if contentType = "" ∧ listing.length = 1 then listing.head?
    else listing.find? fun entry => entry.1 = lowerAscii contentType
  match chosen with
  | some entry => .ok entry.2
  | none => .error (.unsupportedContentType contentType)

/-- Whichever codec is listed first, the same one is chosen. -/
theorem selectCodec_of_listing {server : Server A} {listing : List (String × Codec)}
    (perm : listing.Perm server.codecs.entries) (request : Request) :
    server.selectCodec request = chooseFrom listing (contentTypeOf request) := by
  by_cases several : contentTypeOf request = "" → server.codecs.size ≠ 1
  · have notSole : ¬ (contentTypeOf request = "" ∧ listing.length = 1) := by
      rw [perm.length_eq]
      exact not_and.2 several
    rw [selectCodec_of_several several, ← Table.find?_of_perm perm]
    simp only [chooseFrom, if_neg notSole]
    cases listing.find? fun entry => entry.1 = lowerAscii (contentTypeOf request) with
    | none => rfl
    | some entry => rfl
  · rw [Classical.not_imp, Decidable.not_not] at several
    rcases several with ⟨untyped, size⟩
    rcases List.length_eq_one_iff.1 size with ⟨⟨contentType, codec⟩, single⟩
    obtain rfl : listing = [(contentType, codec)] := List.perm_singleton.1 (single ▸ perm)
    rw [selectCodec_of_single untyped single, untyped]
    rfl

end Server

/-! ## Any order -/

/-- Registrations in different lanes commute: each is answered as it would have been without the
other, and nothing that is asked later tells in which order they were made.  So all orders that
agree within every lane are answered alike there, leave the same behind and, in a builder, make
the same server.  Nor does it matter in which order the codecs are listed. -/
theorem registrations_commute (now : Dialogue A) :
    (∀ first second : Registration A, first.lane ≠ second.lane →
      ((now.perform (.register second)).2.perform (.register first)).1
          = (now.perform (.register first)).1 ∧
        ((now.perform (.register first)).2.perform (.register second)).1
          = (now.perform (.register second)).1 ∧
        ∀ later, (now.after [.register first, .register second]).observations later
          = (now.after [.register second, .register first]).observations later) ∧
    (∀ registrations others : List (Registration A), SameOrder registrations others →
      (∀ lane, (now.answers registrations).filter (fun answered => answered.1.lane = lane)
          = (now.answers others).filter (fun answered => answered.1.lane = lane)) ∧
        ∀ later, (now.after (registrations.map .register)).observations later
          = (now.after (others.map .register)).observations later) ∧
    (∀ (config : Config) (registrations others : List (Registration A)),
      SameOrder registrations others → ∀ server,
        Builder.build ⟨config, registrations⟩ = .ok server ↔
          Builder.build ⟨config, others⟩ = .ok server) ∧
    ∀ (request : Request) (listing : List (String × Codec)),
      listing.Perm now.server.codecs.entries →
        now.server.selectCodec request
          = Server.chooseFrom listing (Server.contentTypeOf request) := by
  constructor
  · intro first second apart
    constructor
    · exact now.perform_behind apart
    constructor
    · exact now.perform_behind apart.symm
    · intro later
      exact congrArg (fun behind : Dialogue A => behind.observations later) (now.perform_comm apart)
  constructor
  · intro registrations others same
    rcases now.answers_of_sameOrder same with ⟨alike, sameEnd⟩
    constructor
    · exact alike
    · intro later
      rw [sameEnd]
  constructor
  · intro config registrations others same server
    constructor
    · exact build_of_sameOrder same
    · exact build_of_sameOrder same.symm
  · intro request listing perm
    exact Server.selectCodec_of_listing perm request

end RemoteCall
