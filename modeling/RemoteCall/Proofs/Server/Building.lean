import RemoteCall.Proofs.Server.Dialogue

/-!
# Building by replaying

A builder is given registrations and limits, in any order, and makes its server only at the
end.  This comes to the same as setting up a server with the last of the limits and making
the registrations on it in a dialogue (`build_replays_dialogue`): the builder succeeds if
all of them are accepted, and its server cannot be told from the one in the dialogue;
otherwise it fails for the reason for which the first of them is refused, and it gets no
further than that.
-/

namespace RemoteCall

variable {A : Application}

namespace Builder

/-- What a builder can be given. -/
inductive Instruction (A : Application) : Type 1 where
  | register (what : Registration A)
  | maxBodySize (limit : Nat)

/-- The registration that an instruction asks for. -/
def Instruction.registration? : Instruction A → Option (Registration A)
  | register what => some what
  | maxBodySize _ => none

/-- The limit that an instruction sets. -/
def Instruction.limit? : Instruction A → Option Nat
  | register _ => none
  | maxBodySize limit => some limit

/-- The builder behind an instruction. -/
def follow (builder : Builder A) : Instruction A → Builder A
  | .register what => builder.register what
  | .maxBodySize limit => builder.maxBodySize limit

/-- The builder that has been given the instructions, in order. -/
def ofInstructions (instructions : List (Instruction A)) : Builder A :=
  instructions.foldl follow {}

theorem steps_foldl (builder : Builder A) (instructions : List (Instruction A)) :
    (instructions.foldl follow builder).steps =
      builder.steps ++ instructions.filterMap Instruction.registration? := by
  induction instructions generalizing builder with
  | nil => simp
  | cons instruction rest ih =>
      rw [List.foldl_cons, ih]
      cases instruction with
      | register what =>
          have own : Instruction.registration? (.register what) = some what := rfl
          rw [List.filterMap_cons_some own]
          exact List.append_assoc builder.steps [what] _
      | maxBodySize limit =>
          rw [List.filterMap_cons_none rfl]
          rfl

/-- Of several limits the last one holds. -/
theorem maxBodySize_foldl (builder : Builder A) (instructions : List (Instruction A)) :
    (instructions.foldl follow builder).config.maxBodySize =
      (instructions.filterMap Instruction.limit?).getLast?.getD builder.config.maxBodySize := by
  induction instructions generalizing builder with
  | nil => rfl
  | cons instruction rest ih =>
      rw [List.foldl_cons, ih]
      cases instruction with
      | register what =>
          rw [List.filterMap_cons_none rfl]
          rfl
      | maxBodySize limit =>
          have own : Instruction.limit? (.maxBodySize limit : Instruction A) = some limit := rfl
          rw [List.filterMap_cons_some own, List.getLast?_cons]
          rfl

/-- A builder makes all of its registrations on a server with the last of its limits. -/
theorem build_ofInstructions (instructions : List (Instruction A)) :
    (ofInstructions instructions).build =
      (Server.withConfig
        ⟨(instructions.filterMap Instruction.limit?).getLast?.getD (4 * 1024 * 1024)⟩).registerAll
          (instructions.filterMap Instruction.registration?) := by
  have steps := steps_foldl {} instructions
  have limit := maxBodySize_foldl {} instructions
  have config : (ofInstructions instructions).config =
      ⟨(instructions.filterMap Instruction.limit?).getLast?.getD (4 * 1024 * 1024)⟩ := by
    rw [← limit, ofInstructions]
  rw [build, config, ofInstructions, steps, Server.registerAll]
  rfl

end Builder

/-! ## The dialogue -/

namespace Dialogue

/-- Whether it is seen that a registration is accepted. -/
def Accepted (seen : Observation A) : Prop :=
  seen = .registered (.ok ())

/-- Registrations that are all accepted lead to the server on which they have been made. -/
theorem after_registrations {now : Dialogue A} {server : Server A}
    {registrations : List (Registration A)}
    (registered : now.server.registerAll registrations = .ok server) :
    now.after (registrations.map .register) = { now with server } := by
  induction registrations generalizing now with
  | nil =>
      obtain rfl := Except.ok.inj registered
      rfl
  | cons what rest ih =>
      rcases Server.registerAll_cons_eq_ok_iff.1 registered with ⟨middle, first, others⟩
      rw [List.map_cons, after_cons, perform_register_of_ok first]
      exact ih others

/-- It is seen that all registrations are accepted exactly if they can all be made. -/
theorem forall_accepted_iff {now : Dialogue A} {registrations : List (Registration A)} :
    (∀ seen ∈ now.observations (registrations.map .register), Accepted seen) ↔
      ∃ server, now.server.registerAll registrations = .ok server := by
  induction registrations generalizing now with
  | nil =>
      constructor
      · intro _
        exact ⟨now.server, rfl⟩
      · rintro _ seen mem
        cases mem
  | cons what rest ih =>
      rw [List.map_cons, observations, List.forall_mem_cons]
      cases registered : now.server.register what with
      | error failure =>
          rw [perform_register_of_error registered, Server.registerAll_cons_of_error registered]
          simp [Accepted]
      | ok server =>
          rw [perform_register_of_ok registered, Server.registerAll_cons_of_ok registered, ih]
          exact and_iff_right rfl

/-- It is seen that the first registrations are accepted and the next one is refused exactly
if it fails on the server on which they have been made. -/
theorem refused_behind_iff {now : Dialogue A} {earlier : List (Registration A)}
    {what : Registration A} {failure : RpcError} :
    (∀ seen ∈ now.observations (earlier.map .register), Accepted seen) ∧
        ((now.after (earlier.map .register)).perform (.register what)).1 =
          .registered (.error failure) ↔
      ∃ middle, now.server.registerAll earlier = .ok middle ∧
        middle.register what = .error failure := by
  rw [forall_accepted_iff]
  constructor
  · rintro ⟨⟨middle, before⟩, refused⟩
    rw [after_registrations before, perform_register_eq_error_iff] at refused
    exact ⟨middle, before, refused⟩
  · rintro ⟨middle, before, refused⟩
    rw [after_registrations before, perform_register_eq_error_iff]
    exact ⟨⟨middle, before⟩, refused⟩

end Dialogue

/-! ## Replaying -/

/-- Building comes to the same as a dialogue with a server that has the last limit, in which
the registrations are made in order.  There is a server exactly if all of them are seen to be
accepted, and whatever that server is asked is answered as in the dialogue.  Otherwise there
is the failure of the first that is refused; the server in the making is then as those
before it have left it, and nothing depends on those behind it. -/
theorem build_replays_dialogue (instructions : List (Builder.Instruction A)) :
    let built := (Builder.ofInstructions instructions).build
    let registrations := instructions.filterMap Builder.Instruction.registration?
    let limit := (instructions.filterMap Builder.Instruction.limit?).getLast?.getD (4 * 1024 * 1024)
    let fresh : Dialogue A := { server := .withConfig ⟨limit⟩ }
    ((∃ server, built = .ok server) ↔
      ∀ seen ∈ fresh.observations (registrations.map .register), Dialogue.Accepted seen) ∧
    (∀ server, built = .ok server →
      fresh.after (registrations.map .register) = { server } ∧
        ∀ commands, fresh.observations (registrations.map .register ++ commands) =
          fresh.observations (registrations.map .register) ++
            Dialogue.observations { server } commands) ∧
    (∀ failure, built = .error failure ↔
      ∃ earlier what later, registrations = earlier ++ what :: later ∧
        (∀ seen ∈ fresh.observations (earlier.map .register), Dialogue.Accepted seen) ∧
        ((fresh.after (earlier.map .register)).perform (.register what)).1 =
          .registered (.error failure)) ∧
    (∀ failure earlier what later, registrations = earlier ++ what :: later →
      (∀ seen ∈ fresh.observations (earlier.map .register), Dialogue.Accepted seen) →
      ((fresh.after (earlier.map .register)).perform (.register what)).1 =
          .registered (.error failure) →
      fresh.server.act (registrations.flatMap Server.actions) =
          ((fresh.after (earlier.map .register)).server, .error failure) ∧
        ∀ later', Builder.build ⟨⟨limit⟩, earlier ++ what :: later'⟩ = .error failure) := by
  intro built registrations limit fresh
  have replayed : built = fresh.server.registerAll registrations :=
    Builder.build_ofInstructions instructions
  constructor
  · rw [replayed]
    exact Dialogue.forall_accepted_iff.symm
  constructor
  · intro server done
    have behind : fresh.after (registrations.map .register) = { server } :=
      Dialogue.after_registrations (replayed.symm.trans done)
    refine ⟨behind, fun commands => ?_⟩
    rw [Dialogue.observations_append, behind]
  constructor
  · intro failure
    rw [replayed, Server.registerAll_eq_error_iff]
    simp only [Dialogue.refused_behind_iff, exists_and_left]
  · intro failure earlier what later split accepted refused
    rcases Dialogue.refused_behind_iff.1 ⟨accepted, refused⟩ with ⟨middle, before, refusal⟩
    constructor
    · rw [split, Dialogue.after_registrations before]
      exact Server.act_flatMap_of_error before refusal later
    · intro later'
      exact Server.registerAll_eq_error_iff.2 ⟨earlier, what, later', middle, rfl, before, refusal⟩

end RemoteCall
