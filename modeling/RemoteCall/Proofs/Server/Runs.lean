import RemoteCall.Codec.Enveloped
import RemoteCall.Proofs.Server.Ending

/-!
# Serving in stages

The runs of hooks and methods are counted along the course: a moment determines
those behind it (`Moment.runs`), and the stage that it is about to enter begins
with at most one (`Moment.starting`).  With the end of the course this gives
`serve_follows_course`: the response is that of the first stage that fails, and
a hook or a method runs exactly if every stage before it succeeds.
-/

namespace RemoteCall.Server

variable {A : Application} {codec : Codec} {request : Request} {server : Server A}

/-! ## Runs of hooks and methods -/

/-- A hook starts or a method is called. -/
def isRun : Event → Bool
  | .hook .. | .called .. => true
  | .note _ | .decoded => false

/-- A method is called. -/
def isCall : Event → Bool
  | .called .. => true
  | _ => false

/-- The first hooks of a phase, in order. -/
def firstHooks (phase : Phase) (count : Nat) : List Event :=
  (List.range count).map (.hook phase)

@[simp]
theorem firstHooks_succ (phase : Phase) (count : Nat) :
    firstHooks phase (count + 1) = firstHooks phase count ++ [.hook phase count] := by
  simp [firstHooks, List.range_succ]

@[simp]
theorem filter_isRun_notes (notes : List String) : (notes.map Event.note).filter isRun = [] := by
  simp [isRun]

@[simp]
theorem filter_isRun_notices (notices : List Notice) :
    (notices.map Notice.event).filter isRun = [] := by
  rw [List.filter_eq_nil_iff]
  intro event mem
  rcases List.mem_map.1 mem with ⟨notice, _, rfl⟩
  cases notice <;> simp [Notice.event, isRun]

@[simp]
theorem filter_isRun_events {σ α : Type} (step : Step σ α) : step.events.filter isRun = [] :=
  filter_isRun_notices step.notices

@[simp]
theorem filter_isRun_hookLog (phase : Phase) (index : Nat) (notes : List String) :
    (hookLog phase index notes).filter isRun = [.hook phase index] := by
  rw [hookLog, List.filter_cons_of_pos rfl, filter_isRun_notes]

@[simp]
theorem filter_isRun_callLog (descriptor : Descriptor A) (notes : List String) :
    (callLog descriptor notes).filter isRun = [.called descriptor.service descriptor.name] := by
  rw [callLog, List.filter_cons_of_pos rfl, filter_isRun_notes]

/-- The runs that lie behind a moment, in order. -/
def Moment.runs {σ : Type} (moment : Moment A σ) : List Event :=
  let befores := firstHooks .before (moment.server.hooks .before).length
  match moment.point with
  | .size | .name | .lookup _ => []
  | .before _ index _ => firstHooks .before index
  | .argument .. | .decoding .. | .handler .. => befores
  | .conversion descriptor .. => befores ++ [.called descriptor.service descriptor.name]
  | .after descriptor index _ _ =>
    befores ++ [.called descriptor.service descriptor.name] ++ firstHooks .after index
  | .encoding descriptor _ =>
    befores ++ [.called descriptor.service descriptor.name]
      ++ firstHooks .after (moment.server.hooks .after).length

/-- The run that the next stage begins with, if it begins with one. -/
def Moment.starting {σ : Type} (moment : Moment A σ) : Option Event :=
  match moment.point with
  | .before _ index _ =>
    if index < (moment.server.hooks .before).length then some (.hook .before index) else none
  | .handler descriptor .. => some (.called descriptor.service descriptor.name)
  | .after _ index _ _ =>
    if index < (moment.server.hooks .after).length then some (.hook .after index) else none
  | _ => none

/-- A stage that succeeds adds the run that it begins with. -/
theorem Advances.runs_eq {moment next : Moment A codec.State}
    (advances : Advances codec request moment next) :
    next.runs = moment.runs ++ moment.starting.toList := by
  cases advances with
  | before found =>
      have inside := (List.getElem?_eq_some_iff.1 found).1
      simp [Moment.runs, Moment.starting, inside]
  | after found =>
      have inside := (List.getElem?_eq_some_iff.1 found).1
      simp [Moment.runs, Moment.starting, inside]
  | conversion => simp [Moment.runs, Moment.starting, firstHooks]
  | lookup => simp [Moment.runs, Moment.starting, firstHooks]
  | _ => simp [Moment.runs, Moment.starting]

theorem Advances.filter_log {moment next : Moment A codec.State}
    (advances : Advances codec request moment next) :
    next.log.filter isRun = moment.log.filter isRun ++ moment.starting.toList := by
  cases advances with
  | before found =>
      have inside := (List.getElem?_eq_some_iff.1 found).1
      simp [Moment.starting, inside]
  | after found =>
      have inside := (List.getElem?_eq_some_iff.1 found).1
      simp [Moment.starting, inside]
  | _ => simp [Moment.starting]

/-- The log of a moment holds exactly the runs that lie behind it. -/
theorem Reaches.filter_log {moment : Moment A codec.State}
    (reaches : Reaches codec server request moment) : moment.log.filter isRun = moment.runs := by
  induction reaches with
  | refl => simp [opening, Moment.runs]
  | tail _ advances ih => rw [advances.filter_log, advances.runs_eq, ih]

/-- A stage that fails adds the run that it begins with. -/
theorem Halts.filter_log {moment : Moment A codec.State} {failure : RpcError} {now : Server A}
    {state : codec.State} {log : List Event}
    (halts : Halts codec request moment failure now state log) :
    log.filter isRun = moment.log.filter isRun ++ moment.starting.toList := by
  cases halts with
  | before found =>
      have inside := (List.getElem?_eq_some_iff.1 found).1
      simp [Moment.starting, inside]
  | after found =>
      have inside := (List.getElem?_eq_some_iff.1 found).1
      simp [Moment.starting, inside]
  | _ => simp [Moment.starting]

/-- Every run behind a moment was begun by a stage that was reached. -/
theorem Reaches.exists_starting {moment : Moment A codec.State}
    (reaches : Reaches codec server request moment) {run : Event} (mem : run ∈ moment.runs) :
    ∃ earlier, Reaches codec server request earlier ∧ earlier.starting = some run := by
  induction reaches with
  | refl => simp [opening, Moment.runs] at mem
  | @tail middle last before advances ih =>
      rw [advances.runs_eq, List.mem_append] at mem
      rcases mem with mem | begun
      · exact ih mem
      · exact ⟨middle, before, Option.mem_toList.1 begun⟩

/-- What a stage has done is not undone by the next one. -/
theorem mem_events_andThen {σ : Type} {α β : Type} {stage : Stage A σ α} {event : Event}
    (mem : event ∈ stage.events) (next : Server A → σ → α → Stage A σ β) :
    event ∈ (stage.andThen next).events := by
  cases outcome : stage.outcome with
  | error failure => simpa [Stage.andThen, outcome] using mem
  | ok found => simp [Stage.andThen, outcome, mem]

theorem mem_events_phaseFrom {σ : Type} {phase : Phase} {index : Nat} {now : Server A}
    (inside : index < (now.hooks phase).length) (context : A.Context) (state : σ) :
    .hook phase index ∈ (phaseFrom request phase index context now state).events := by
  rw [phaseFrom, List.drop_eq_getElem_cons inside]
  simp only [runHooks]
  split <;> simp

/-- A run that the next stage begins with takes place. -/
theorem mem_events_resumed {moment : Moment A codec.State} {run : Event}
    (begins : moment.starting = some run) : run ∈ (resumed request moment).events := by
  rcases moment with ⟨point, now, state, log⟩
  apply List.mem_append_right
  cases point with
  | before descriptor index context =>
      simp only [Moment.starting, Option.ite_none_right_eq_some, Option.some.injEq] at begins
      rcases begins with ⟨inside, rfl⟩
      exact mem_events_andThen (mem_events_phaseFrom inside context state) _
  | handler descriptor context args =>
      obtain rfl := Option.some.inj begins
      exact List.mem_append_left _ List.mem_cons_self
  | after descriptor index context value =>
      simp only [Moment.starting, Option.ite_none_right_eq_some, Option.some.injEq] at begins
      rcases begins with ⟨inside, rfl⟩
      exact mem_events_andThen (mem_events_phaseFrom inside context state) _
  | _ => cases begins

@[simp]
theorem firstHooks_zero (phase : Phase) : firstHooks phase 0 = [] :=
  rfl

/-- The runs of a course are hooks of the first phase in order, at most one
call, and hooks of the second phase in order. -/
theorem Moment.exists_runs_eq {σ : Type} (moment : Moment A σ) :
    ∃ befores calls afters, calls.length ≤ 1 ∧ (∀ call ∈ calls, isCall call = true) ∧
      moment.runs ++ moment.starting.toList =
        firstHooks .before befores ++ calls ++ firstHooks .after afters := by
  rcases moment with ⟨point, now, state, log⟩
  cases point with
  | before descriptor index context =>
      by_cases inside : index < (now.hooks .before).length
      · exact ⟨index + 1, [], 0, by simp, by simp, by simp [runs, starting, inside]⟩
      · exact ⟨index, [], 0, by simp, by simp, by simp [runs, starting, inside]⟩
  | argument | decoding =>
      exact ⟨(now.hooks .before).length, [], 0, by simp, by simp, by simp [runs, starting]⟩
  | handler descriptor | conversion descriptor =>
      exact ⟨(now.hooks .before).length, [.called descriptor.service descriptor.name], 0,
        by simp, by simp [isCall], by simp [runs, starting]⟩
  | after descriptor index context value =>
      by_cases inside : index < (now.hooks .after).length
      · exact ⟨(now.hooks .before).length, [.called descriptor.service descriptor.name], index + 1,
          by simp, by simp [isCall], by simp [runs, starting, inside]⟩
      · exact ⟨(now.hooks .before).length, [.called descriptor.service descriptor.name], index,
          by simp, by simp [isCall], by simp [runs, starting, inside]⟩
  | encoding descriptor value =>
      exact ⟨(now.hooks .before).length, [.called descriptor.service descriptor.name],
        (now.hooks .after).length, by simp, by simp [isCall], by simp [runs, starting]⟩
  | _ => exact ⟨0, [], 0, by simp, by simp, by simp [runs, starting]⟩

/-! ## Runs in a served request -/

/-- What is served through a codec has the runs of some last moment. -/
theorem exists_last_runs (quiet : server.Quiet) (post : request.verb = "POST")
    (selected : server.selectCodec request = .ok codec) :
    ∃ last : Moment A codec.State, Reaches codec server request last ∧
      (server.serve request).events.filter isRun = last.runs ++ last.starting.toList := by
  have start : Reaches codec server request (opening codec server request) := .refl
  rcases start.exists_last quiet with ⟨last, reaches, ended | halted⟩
  · rcases last with ⟨point, now, state, log⟩
    rcases ended with ⟨descriptor, value, rfl⟩
    refine ⟨_, reaches, ?_⟩
    have behindLog := reaches.filter_log
    rw [(Answered.replied post selected reaches (sentFor_noSniff _)).serve_eq,
      List.filter_append, behindLog]
    simp [Moment.starting]
  · rcases halted with ⟨failure, now, state, log, halts⟩
    refine ⟨last, reaches, ?_⟩
    rw [(Answered.failed post selected reaches halts).serve_eq, List.filter_append,
      halts.filter_log, reaches.filter_log]
    simp

/-- A request that no codec answers has no runs. -/
theorem events_eq_nil_of_refused
    (refused : ¬ (request.verb = "POST" ∧ ∃ codec, server.selectCodec request = .ok codec)) :
    (server.serve request).events = [] := by
  by_cases post : request.verb = "POST"
  · cases selected : server.selectCodec request with
    | error failure => simp [serve, post, selected, refuse]
    | ok codec => exact absurd ⟨post, codec, selected⟩ refused
  · simp [serve, post, refuse]

/-- The runs of a served request are hooks of the first phase in order, at most
one call, and hooks of the second phase in order. -/
theorem exists_filter_events_eq (quiet : server.Quiet) (request : Request) :
    ∃ befores calls afters, calls.length ≤ 1 ∧ (∀ call ∈ calls, isCall call = true) ∧
      (server.serve request).events.filter isRun =
        firstHooks .before befores ++ calls ++ firstHooks .after afters := by
  by_cases answers : request.verb = "POST" ∧ ∃ codec, server.selectCodec request = .ok codec
  · rcases answers with ⟨post, codec, selected⟩
    rcases exists_last_runs quiet post selected with ⟨last, _, runs⟩
    rw [runs]
    exact last.exists_runs_eq
  · rw [events_eq_nil_of_refused answers]
    exact ⟨0, [], 0, by simp, by simp, by simp⟩

/-- A run takes place exactly if a stage that begins with it is reached. -/
theorem mem_events_iff (quiet : server.Quiet) {run : Event} (isRun : isRun run = true) :
    run ∈ (server.serve request).events ↔
      request.verb = "POST" ∧ ∃ codec, server.selectCodec request = .ok codec ∧
        ∃ moment : Moment A codec.State, Reaches codec server request moment ∧
          moment.starting = some run := by
  constructor
  · intro mem
    by_cases answers : request.verb = "POST" ∧ ∃ codec, server.selectCodec request = .ok codec
    · rcases answers with ⟨post, codec, selected⟩
      rcases exists_last_runs quiet post selected with ⟨last, reaches, runs⟩
      have memRuns : run ∈ last.runs ++ last.starting.toList := by
        rw [← runs]
        exact List.mem_filter.2 ⟨mem, isRun⟩
      rcases List.mem_append.1 memRuns with earlier | begun
      · exact ⟨post, codec, selected, reaches.exists_starting earlier⟩
      · exact ⟨post, codec, selected, last, reaches, Option.mem_toList.1 begun⟩
    · rw [events_eq_nil_of_refused answers] at mem
      cases mem
  · rintro ⟨post, codec, selected, moment, reaches, begins⟩
    have mem : run ∈ (resumed request moment).events := mem_events_resumed begins
    rw [serve_eq_of_reaches post selected reaches]
    cases (resumed request moment).outcome with
    | error failure => exact List.mem_append_left _ mem
    | ok reply => exact List.mem_append_left _ mem

theorem starting_eq_before_iff {σ : Type} {moment : Moment A σ} {index : Nat} :
    moment.starting = some (.hook .before index) ↔
      index < (moment.server.hooks .before).length ∧
        ∃ descriptor context, moment.point = .before descriptor index context := by
  rcases moment with ⟨point, now, state, log⟩
  cases point with
  | before descriptor place context =>
      simp only [Moment.starting, Option.ite_none_right_eq_some, Option.some.injEq,
        Event.hook.injEq, true_and, Point.before.injEq]
      constructor
      · rintro ⟨inside, rfl⟩
        exact ⟨inside, descriptor, context, rfl, rfl, rfl⟩
      · rintro ⟨inside, _, _, _, rfl, _⟩
        exact ⟨inside, rfl⟩
  | _ => simp [Moment.starting]

theorem starting_eq_after_iff {σ : Type} {moment : Moment A σ} {index : Nat} :
    moment.starting = some (.hook .after index) ↔
      index < (moment.server.hooks .after).length ∧
        ∃ descriptor context value, moment.point = .after descriptor index context value := by
  rcases moment with ⟨point, now, state, log⟩
  cases point with
  | after descriptor place context value =>
      simp only [Moment.starting, Option.ite_none_right_eq_some, Option.some.injEq,
        Event.hook.injEq, true_and, Point.after.injEq]
      constructor
      · rintro ⟨inside, rfl⟩
        exact ⟨inside, descriptor, context, value, rfl, rfl, rfl, rfl⟩
      · rintro ⟨inside, _, _, _, _, rfl, _⟩
        exact ⟨inside, rfl⟩
  | _ => simp [Moment.starting]

/-- Only the stage of the method begins with a call. -/
theorem starting_call_iff {σ : Type} {moment : Moment A σ} :
    (∃ call, isCall call = true ∧ moment.starting = some call) ↔
      ∃ descriptor context args, moment.point = .handler descriptor context args := by
  rcases moment with ⟨point, now, state, log⟩
  cases point with
  | handler descriptor context args =>
      constructor
      · intro _
        exact ⟨descriptor, context, args, rfl⟩
      · intro _
        exact ⟨_, rfl, rfl⟩
  | _ => simp [Moment.starting, isCall]

theorem isRun_of_isCall {event : Event} (call : isCall event = true) : isRun event = true := by
  cases event with
  | called => rfl
  | _ => cases call

/-! ## Counting -/

theorem count_firstHooks (phase other : Phase) (count index : Nat) :
    (firstHooks phase count).count (.hook other index) =
      if phase = other ∧ index < count then 1 else 0 := by
  induction count with
  | zero => simp
  | succ count ih =>
      rw [firstHooks_succ, List.count_append, ih, List.count_singleton]
      by_cases same : phase = other
      · subst same
        simp
        grind
      · simp [same]

theorem countP_isCall_firstHooks (phase : Phase) (count : Nat) :
    (firstHooks phase count).countP isCall = 0 := by
  simp [firstHooks, List.countP_eq_zero, isCall]

theorem count_hook_of_calls {calls : List Event} (allCalls : ∀ call ∈ calls, isCall call = true)
    (phase : Phase) (index : Nat) : calls.count (.hook phase index) = 0 := by
  rw [List.count_eq_zero]
  intro mem
  cases allCalls _ mem

/-- No hook runs twice. -/
theorem count_hook_le_one (quiet : server.Quiet) (request : Request) (phase : Phase)
    (index : Nat) : (server.serve request).events.count (.hook phase index) ≤ 1 := by
  rcases exists_filter_events_eq quiet request with ⟨befores, calls, afters, _, allCalls, runs⟩
  have sameCount : (server.serve request).events.count (.hook phase index) =
      ((server.serve request).events.filter isRun).count (.hook phase index) :=
    (List.count_filter rfl).symm
  rw [sameCount, runs, List.count_append, List.count_append, count_firstHooks, count_firstHooks,
    count_hook_of_calls allCalls]
  cases phase <;> simp <;> split <;> simp

/-- No request calls two methods. -/
theorem countP_isCall_le_one (quiet : server.Quiet) (request : Request) :
    (server.serve request).events.countP isCall ≤ 1 := by
  rcases exists_filter_events_eq quiet request with ⟨befores, calls, afters, single, _, runs⟩
  have sameCount : (server.serve request).events.countP isCall =
      ((server.serve request).events.filter isRun).countP isCall := by
    rw [List.countP_filter]
    apply List.countP_congr
    intro event _
    cases event <;> simp [isCall, isRun]
  rw [sameCount, runs, List.countP_append, List.countP_append, countP_isCall_firstHooks,
    countP_isCall_firstHooks]
  have atMost := List.countP_le_length (p := isCall) (l := calls)
  omega

/-- A method is called exactly if the request gets to the stage of the method. -/
theorem exists_call_iff (quiet : server.Quiet) :
    (∃ call ∈ (server.serve request).events, isCall call = true) ↔
      ∃ descriptor context args, server.Enters request (.handler descriptor context args) := by
  constructor
  · rintro ⟨call, mem, isCall⟩
    rcases (mem_events_iff quiet (isRun_of_isCall isCall)).1 mem with
      ⟨post, codec, selected, ⟨point, now, state, log⟩, reaches, begins⟩
    rcases starting_call_iff.1 ⟨call, isCall, begins⟩ with ⟨descriptor, context, args, rfl⟩
    exact ⟨descriptor, context, args, post, codec, selected, now, state, log, reaches⟩
  · rintro ⟨descriptor, context, args, post, codec, selected, now, state, log, reaches⟩
    exact ⟨.called descriptor.service descriptor.name,
      (mem_events_iff quiet rfl).2 ⟨post, codec, selected, _, reaches, rfl⟩, rfl⟩

/-- A before-hook runs exactly if the request gets to it. -/
theorem mem_before_iff (quiet : server.Quiet) {index : Nat} :
    .hook .before index ∈ (server.serve request).events ↔
      index < (server.hooks .before).length ∧
        ∃ descriptor context, server.Enters request (.before descriptor index context) := by
  rw [mem_events_iff quiet rfl]
  constructor
  · rintro ⟨post, codec, selected, ⟨point, now, state, log⟩, reaches, begins⟩
    rcases starting_eq_before_iff.1 begins with ⟨inside, descriptor, context, rfl⟩
    rw [reaches.hooks_eq] at inside
    exact ⟨inside, descriptor, context, post, codec, selected, now, state, log, reaches⟩
  · rintro ⟨inside, descriptor, context, post, codec, selected, now, state, log, reaches⟩
    rw [← reaches.hooks_eq] at inside
    exact ⟨post, codec, selected, _, reaches,
      starting_eq_before_iff.2 ⟨inside, descriptor, context, rfl⟩⟩

/-- An after-hook runs exactly if the request gets to it. -/
theorem mem_after_iff (quiet : server.Quiet) {index : Nat} :
    .hook .after index ∈ (server.serve request).events ↔
      index < (server.hooks .after).length ∧
        ∃ descriptor context value,
          server.Enters request (.after descriptor index context value) := by
  rw [mem_events_iff quiet rfl]
  constructor
  · rintro ⟨post, codec, selected, ⟨point, now, state, log⟩, reaches, begins⟩
    rcases starting_eq_after_iff.1 begins with ⟨inside, descriptor, context, value, rfl⟩
    rw [reaches.hooks_eq] at inside
    exact ⟨inside, descriptor, context, value, post, codec, selected, now, state, log, reaches⟩
  · rintro ⟨inside, descriptor, context, value, post, codec, selected, now, state, log, reaches⟩
    rw [← reaches.hooks_eq] at inside
    exact ⟨post, codec, selected, _, reaches,
      starting_eq_after_iff.2 ⟨inside, descriptor, context, value, rfl⟩⟩

/-- A count of at most one is one exactly if there is something to count. -/
theorem countP_eq_one_iff {α : Type*} {p : α → Bool} {entries : List α}
    (atMost : entries.countP p ≤ 1) :
    entries.countP p = 1 ↔ ∃ entry ∈ entries, p entry = true := by
  rw [← List.countP_pos_iff]
  omega

/-! ## Serving in stages -/

/-- A server without registering hooks serves every request by its stages: the
response, the server left behind and everything that happens are those of the
course up to the first stage that fails.  The hooks of a phase run in order and
none runs twice.  A method is called once if every stage before it succeeds, and
otherwise not at all, and the same holds of each hook; the stages before an
after-hook are the method, the conversion of its reply and the after-hooks
before it. -/
theorem serve_follows_course (server : Server A) (quiet : server.Quiet) (request : Request) :
    (∀ served, server.serve request = served ↔ Answered server request served) ∧
    (∃ befores calls afters, calls.length ≤ 1 ∧ (∀ call ∈ calls, isCall call = true) ∧
      (server.serve request).events.filter isRun =
        firstHooks .before befores ++ calls ++ firstHooks .after afters) ∧
    ((server.serve request).events.countP isCall ≤ 1 ∧
      ((server.serve request).events.countP isCall = 1 ↔
        ∃ descriptor context args,
          server.Enters request (.handler descriptor context args))) ∧
    ∀ index,
      ((server.serve request).events.count (.hook .before index) ≤ 1 ∧
        ((server.serve request).events.count (.hook .before index) = 1 ↔
          index < (server.hooks .before).length ∧
            ∃ descriptor context, server.Enters request (.before descriptor index context))) ∧
      ((server.serve request).events.count (.hook .after index) ≤ 1 ∧
        ((server.serve request).events.count (.hook .after index) = 1 ↔
          index < (server.hooks .after).length ∧
            ∃ descriptor context value,
              server.Enters request (.after descriptor index context value))) := by
  constructor
  · intro served
    constructor
    · rintro rfl
      rcases exists_answered quiet request with ⟨served, answered⟩
      rw [answered.serve_eq]
      exact answered
    · exact Answered.serve_eq
  constructor
  · exact exists_filter_events_eq quiet request
  constructor
  · have atMost := countP_isCall_le_one quiet request
    apply And.intro atMost
    rw [countP_eq_one_iff atMost]
    exact exists_call_iff quiet
  intro index
  constructor
  · have atMost := count_hook_le_one quiet request .before index
    apply And.intro atMost
    rw [← mem_before_iff quiet, ← List.count_pos_iff]
    omega
  · have atMost := count_hook_le_one quiet request .after index
    apply And.intro atMost
    rw [← mem_after_iff quiet, ← List.count_pos_iff]
    omega

/-- Of three hooks, the first reports and goes on and the second fails, so that neither the
third nor the method runs, and the codec is never asked for the argument. -/
theorem serve_follows_course_failing_hook :
    let A : Application := ⟨Nat, "Nat", 0, "Request", Unit⟩
    let bare : Codec :=
      { State := Nat
        start := fun request => (request.body.length, [.note "opened"])
        method := fun asked => ⟨asked + 1, [], .ok "Net.Ping"⟩
        read := fun asked => ⟨asked + 1, [.note "read"], .error (.hook "no argument")⟩
        writeReply := fun _ asked => ⟨asked, [], ⟨200, .empty, []⟩⟩
        writeError := fun status _ asked => ⟨asked, [.note "refused"], ⟨status, .empty, []⟩⟩ }
    let ping : Method A :=
      ⟨Value, Value, "Value", "Value", .ok, .null,
        fun receiver context _ reply => ⟨receiver, context, [], .ok reply⟩, .value⟩
    let server : Server A :=
      { (Server.new : Server A).registerCodec "text/plain" bare with
        registry := ⟨Table.empty.insert "Net"
          (Table.empty.insert "Ping" ⟨"Net", "Ping", 0, (), ping⟩)⟩
        before :=
          [fun _ seen => .note "first" (.finish (seen + 1) (.ok ())),
            fun _ seen => .finish seen (.error "enough"),
            fun _ seen => .finish (seen + 1) (.ok ())] }
    let request : Request := ⟨"POST", [], []⟩
    server.Quiet ∧
      Answered server request
        ⟨server, [.note "opened", .hook .before 0, .note "first", .hook .before 1, .note "refused"],
          ⟨400, .empty, []⟩⟩ := by
  intro A bare ping server request
  have quiet : server.Quiet := by
    intro phase hook mem asked context
    cases phase with
    | before =>
        rcases List.mem_cons.1 mem with rfl | mem
        · exact .note "first" (.finish _ _)
        · rcases List.mem_cons.1 mem with rfl | mem
          · exact .finish _ _
          · rcases List.mem_singleton.1 mem with rfl
            exact .finish _ _
    | after => cases mem
  have untyped : contentTypeOf request = "" := by decide +kernel
  have single : server.codecs.entries = [("text/plain", bare)] := rfl
  have selected : server.selectCodec request = .ok bare := by
    simp only [selectCodec, untyped, single, if_true]
  refine ⟨quiet, ((serve_follows_course server quiet request).1 _).1 ?_⟩
  rw [serve_of_selected rfl selected]
  rfl

end RemoteCall.Server
