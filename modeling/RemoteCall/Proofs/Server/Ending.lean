import RemoteCall.Proofs.Server.Resumption
import RemoteCall.Proofs.Server.Selection

/-!
# The end of a course

Every stage of a server without registering hooks either succeeds or fails, and
a stage that succeeds brings the end nearer, so a course has a last moment.
What is left to do there is the response, which is therefore the one that is
served (`Answered.serve_eq`, `exists_answered`).
-/

namespace RemoteCall.Server

variable {A : Application} {codec : Codec} {request : Request}

/-- The hooks of a server stay the same along a course. -/
theorem Advances.hooks_eq {moment next : Moment A codec.State}
    (advances : Advances codec request moment next) (phase : Phase) :
    next.server.hooks phase = moment.server.hooks phase := by
  cases advances with
  | handler => simp
  | _ => rfl

theorem Reaches.hooks_eq {server : Server A} {moment : Moment A codec.State}
    (reaches : Reaches codec server request moment) (phase : Phase) :
    moment.server.hooks phase = server.hooks phase := by
  induction reaches with
  | refl => rfl
  | tail _ advances ih => rw [advances.hooks_eq, ih]

/-- How many stages may still come. -/
def Moment.left {σ : Type} (moment : Moment A σ) : Nat :=
  let befores := (moment.server.hooks .before).length
  let afters := (moment.server.hooks .after).length
  match moment.point with
  | .size => befores + afters + 9
  | .name => befores + afters + 8
  | .lookup _ => befores + afters + 7
  | .before _ index _ => befores - index + afters + 6
  | .argument .. => afters + 5
  | .decoding .. => afters + 4
  | .handler .. => afters + 3
  | .conversion .. => afters + 2
  | .after _ index _ _ => afters - index + 1
  | .encoding .. => 0

/-- A stage that succeeds brings the end nearer. -/
theorem Advances.left_lt {moment next : Moment A codec.State}
    (advances : Advances codec request moment next) : next.left < moment.left := by
  cases advances with
  | before found =>
      have inside := (List.getElem?_eq_some_iff.1 found).1
      simp only [Moment.left]
      omega
  | after found =>
      have inside := (List.getElem?_eq_some_iff.1 found).1
      simp only [Moment.left]
      omega
  | handler => simp [Moment.left]
  | _ => simp [Moment.left]

/-- The place in a list of hooks is at most behind its end. -/
def Moment.InRange {σ : Type} (moment : Moment A σ) : Prop :=
  match moment.point with
  | .before _ index _ => index ≤ (moment.server.hooks .before).length
  | .after _ index _ _ => index ≤ (moment.server.hooks .after).length
  | _ => True

theorem Reaches.inRange {server : Server A} {moment : Moment A codec.State}
    (reaches : Reaches codec server request moment) : moment.InRange := by
  induction reaches with
  | refl => trivial
  | tail _ advances _ =>
      cases advances with
      | before found => exact (List.getElem?_eq_some_iff.1 found).1
      | after found => exact (List.getElem?_eq_some_iff.1 found).1
      | lookup => exact Nat.zero_le _
      | conversion => exact Nat.zero_le _
      | _ => trivial

/-- The last moment of a course: the response is due, or a stage fails. -/
def Last (codec : Codec) (request : Request) (moment : Moment A codec.State) : Prop :=
  (∃ descriptor value, moment.point = .encoding descriptor value) ∨
    ∃ failure now state log, Halts codec request moment failure now state log

/-- Without registering hooks, a stage succeeds or the course is at its end. -/
theorem last_or_advances (request : Request) {moment : Moment A codec.State}
    (quiet : moment.server.Quiet) (inRange : moment.InRange) :
    Last codec request moment ∨ ∃ next, Advances codec request moment next := by
  rcases moment with ⟨point, now, state, log⟩
  cases point with
  | size =>
      rcases Nat.lt_or_ge now.config.maxBodySize request.body.length with exceeds | fits
      · exact .inl (.inr ⟨_, _, _, _, .size exceeds⟩)
      · exact .inr ⟨_, .size fits⟩
  | name =>
      cases named : (codec.method state).answer with
      | error failure => exact .inl (.inr ⟨_, _, _, _, .name named⟩)
      | ok name => exact .inr ⟨_, .name named⟩
  | lookup name =>
      cases found : now.registry.get name with
      | error failure => exact .inl (.inr ⟨_, _, _, _, .lookup found⟩)
      | ok descriptor => exact .inr ⟨_, .lookup found⟩
  | before descriptor index context =>
      have atMost : index ≤ (now.hooks .before).length := inRange
      rcases Nat.lt_or_eq_of_le atMost with inside | rfl
      · have found := List.getElem?_eq_getElem inside
        have hookQuiet := quiet .before _ (List.getElem_mem inside) request context
        rcases hookQuiet.exists_plays with ⟨notes, next, outcome, plays⟩
        cases outcome with
        | error message => exact .inl (.inr ⟨_, _, _, _, .before found plays⟩)
        | ok => exact .inr ⟨_, .before found plays⟩
      · exact .inr ⟨_, .beforeDone⟩
  | argument descriptor context =>
      cases read : (codec.read state).answer with
      | error failure => exact .inl (.inr ⟨_, _, _, _, .argument read⟩)
      | ok params => exact .inr ⟨_, .argument read⟩
  | decoding descriptor context params =>
      cases decoded : descriptor.method.decode params with
      | error mismatch => exact .inl (.inr ⟨_, _, _, _, .decoding decoded⟩)
      | ok args => exact .inr ⟨_, .decoding decoded⟩
  | handler descriptor context args =>
      cases returned : (now.handle descriptor context args).outcome with
      | error message => exact .inl (.inr ⟨_, _, _, _, .handler returned⟩)
      | ok reply => exact .inr ⟨_, .handler returned⟩
  | conversion descriptor context reply =>
      cases converted : (descriptor.method.encode reply).toValue with
      | error reason => exact .inl (.inr ⟨_, _, _, _, .conversion converted⟩)
      | ok value => exact .inr ⟨_, .conversion converted⟩
  | after descriptor index context value =>
      have atMost : index ≤ (now.hooks .after).length := inRange
      rcases Nat.lt_or_eq_of_le atMost with inside | rfl
      · have found := List.getElem?_eq_getElem inside
        have hookQuiet := quiet .after _ (List.getElem_mem inside) request context
        rcases hookQuiet.exists_plays with ⟨notes, next, outcome, plays⟩
        cases outcome with
        | error message => exact .inl (.inr ⟨_, _, _, _, .after found plays⟩)
        | ok => exact .inr ⟨_, .after found plays⟩
      · exact .inr ⟨_, .afterDone⟩
  | encoding descriptor value => exact .inl (.inl ⟨descriptor, value, rfl⟩)

/-- From every moment of a course its end is reached. -/
theorem Reaches.exists_last {server : Server A} (quiet : server.Quiet)
    {moment : Moment A codec.State} (reaches : Reaches codec server request moment) :
    ∃ last, Reaches codec server request last ∧ Last codec request last := by
  induction stages : moment.left using Nat.strongRecOn generalizing moment with
  | _ stages ih =>
      have quietNow : moment.server.Quiet := by
        intro phase hook mem
        rw [reaches.hooks_eq] at mem
        exact quiet phase hook mem
      rcases last_or_advances request quietNow reaches.inRange with last | ⟨next, advances⟩
      · exact ⟨moment, reaches, last⟩
      · exact ih next.left (stages ▸ advances.left_lt) (reaches.tail advances) rfl

/-! ## The response -/

theorem sentFor_noSniff (written : Response) : (noSniff written).SentFor written := by
  by_cases success : written.isSuccess = true
  · have inRange : 200 ≤ written.status ∧ written.status < 300 := by
      simpa [Response.isSuccess] using success
    rw [noSniff, if_pos success]
    refine ⟨rfl, ?_, rfl⟩
    intro name
    simp [Response.withHeader, Table.find?_insert, inRange]
  · have outside : ¬ (200 ≤ written.status ∧ written.status < 300) := by
      simpa [Response.isSuccess] using success
    rw [noSniff, if_neg success]
    refine ⟨rfl, ?_, rfl⟩
    intro name
    rw [if_neg fun both => outside both.2]

variable {server : Server A}

/-- What is served through a codec, seen from any moment of the course. -/
theorem serve_eq_of_reaches {moment : Moment A codec.State} (post : request.verb = "POST")
    (selected : server.selectCodec request = .ok codec)
    (reaches : Reaches codec server request moment) :
    server.serve request =
      match (resumed request moment).outcome with
      | .ok reply =>
        let step := codec.writeReply reply (resumed request moment).state
        ⟨(resumed request moment).server, (resumed request moment).events ++ step.events,
          noSniff step.answer⟩
      | .error failure =>
        let step := codec.writeError 400 failure (resumed request moment).state
        ⟨(resumed request moment).server, (resumed request moment).events ++ step.events,
          step.answer⟩ := by
  rw [reaches.resumed_eq, serve_of_selected post selected]
  unfold serveWith
  cases outcome : (dispatch codec request server (codec.start request).1).outcome with
  | error failure => simp only [resumed, opening, behind, remaining, outcome]
  | ok reply => simp only [resumed, opening, behind, remaining, outcome]

/-- The staged response is the one that is served. -/
theorem Answered.serve_eq {served : Served A} (answered : Answered server request served) :
    server.serve request = served := by
  cases answered with
  | verb other told =>
      rw [told.eq_plain, serve_of_other_verb other]
      rfl
  | codec post failed told =>
      rw [told.eq_plain, serve_of_no_codec post failed]
      rfl
  | failed post selected reaches halts =>
      rw [serve_eq_of_reaches post selected reaches, halts.resumed_eq]
  | replied post selected reaches isSent =>
      rw [serve_eq_of_reaches post selected reaches, isSent.unique (sentFor_noSniff _)]
      simp [resumed, remaining, Stage.ofResult, behind]

/-- Without registering hooks, every request has a staged response. -/
theorem exists_answered (quiet : server.Quiet) (request : Request) :
    ∃ served, Answered server request served := by
  by_cases post : request.verb = "POST"
  · cases selected : server.selectCodec request with
    | error failure =>
        rw [selectCodec_eq_error selected] at selected
        exact ⟨_, .codec post selected (Response.isPlainText_plain 415 _)⟩
    | ok codec =>
        have start : Reaches codec server request (opening codec server request) := .refl
        rcases start.exists_last quiet with ⟨last, reaches, ended | halted⟩
        · rcases last with ⟨point, now, state, log⟩
          rcases ended with ⟨descriptor, value, rfl⟩
          exact ⟨_, .replied post selected reaches (sentFor_noSniff _)⟩
        · rcases halted with ⟨failure, now, state, log, halts⟩
          exact ⟨_, .failed post selected reaches halts⟩
  · exact ⟨_, .verb post (Response.isPlainText_plain 405 _)⟩

end RemoteCall.Server
