import RemoteCall.Proofs.Response
import RemoteCall.Server.Serve

/-!
# The choice of a codec

A request without a content type is served by the only codec there is.  Any other
request, and every request if there are several codecs, is served by the codec that is
registered for its content type, in lower case.  What else is in the request, and what
else is registered, has no say in the choice, and a choice fails for one reason only
(`selectCodec_eq_error_iff`).  A request for which it fails is refused, as is one with
another verb than POST, and nothing else happens.
-/

namespace RemoteCall.Server

variable {A : Application} {server : Server A} {request : Request}

theorem selectCodec_of_single {contentType : String} {codec : Codec}
    (untyped : contentTypeOf request = "")
    (single : server.codecs.entries = [(contentType, codec)]) :
    server.selectCodec request = .ok codec := by
  simp only [selectCodec, if_pos untyped, single]

/-- Without the exception for a single codec, the content type is looked up. -/
theorem selectCodec_of_several
    (several : contentTypeOf request = "" → server.codecs.size ≠ 1) :
    server.selectCodec request =
      match server.codecs.find? (lowerAscii (contentTypeOf request)) with
      | some codec => .ok codec
      | none => .error (.unsupportedContentType (contentTypeOf request)) := by
  unfold selectCodec
  by_cases untyped : contentTypeOf request = ""
  · simp only [if_pos untyped]
    split
    next contentType codec single =>
        have size : server.codecs.size = 1 := congrArg List.length single
        exact absurd size (several untyped)
    next => rfl
  · exact if_neg untyped

/-- A codec that is chosen is the only one, or it is registered for the content type. -/
theorem entries_eq_or_find?_of_selectCodec {codec : Codec}
    (selected : server.selectCodec request = .ok codec) :
    (contentTypeOf request = "" ∧ ∃ contentType, server.codecs.entries = [(contentType, codec)]) ∨
      server.codecs.find? (lowerAscii (contentTypeOf request)) = some codec := by
  by_cases several : contentTypeOf request = "" → server.codecs.size ≠ 1
  · right
    rw [selectCodec_of_several several] at selected
    cases registered : server.codecs.find? (lowerAscii (contentTypeOf request)) with
    | none =>
        rw [registered] at selected
        cases selected
    | some found =>
        rw [registered] at selected
        exact congrArg some (Except.ok.inj selected)
  · left
    rw [Classical.not_imp, Decidable.not_not] at several
    rcases several with ⟨untyped, size⟩
    rcases List.length_eq_one_iff.1 size with ⟨⟨contentType, only⟩, single⟩
    rw [selectCodec_of_single untyped single] at selected
    obtain rfl := Except.ok.inj selected
    exact ⟨untyped, contentType, single⟩

/-- A codec that is chosen has been registered. -/
theorem exists_of_selectCodec_eq_ok {codec : Codec}
    (selected : server.selectCodec request = .ok codec) :
    ∃ contentType, server.codecs.find? contentType = some codec := by
  rcases entries_eq_or_find?_of_selectCodec selected with ⟨-, contentType, single⟩ | registered
  · exact ⟨contentType, Table.find?_eq_some_iff.2 (single ▸ List.mem_singleton_self _)⟩
  · exact ⟨_, registered⟩

/-- No codec is chosen exactly if none is registered for the content type and none is the
only one where there is no content type. -/
theorem selectCodec_eq_error_iff {failure : RpcError} :
    server.selectCodec request = .error failure ↔
      failure = .unsupportedContentType (contentTypeOf request) ∧
        lowerAscii (contentTypeOf request) ∉ server.codecs.keys ∧
        (contentTypeOf request = "" → server.codecs.size ≠ 1) := by
  by_cases several : contentTypeOf request = "" → server.codecs.size ≠ 1
  · rw [selectCodec_of_several several, Table.mem_keys_iff]
    cases registered : server.codecs.find? (lowerAscii (contentTypeOf request)) with
    | none =>
        simp only [Except.error.injEq]
        constructor
        · rintro rfl
          exact ⟨rfl, by simp, several⟩
        · rintro ⟨rfl, -, -⟩
          rfl
    | some codec => simp
  · constructor
    · intro failed
      rw [Classical.not_imp, Decidable.not_not] at several
      rcases several with ⟨untyped, size⟩
      rcases List.length_eq_one_iff.1 size with ⟨⟨contentType, only⟩, single⟩
      rw [selectCodec_of_single untyped single] at failed
      cases failed
    · rintro ⟨-, -, none⟩
      exact absurd none several

/-- A choice of a codec fails for one reason only. -/
theorem selectCodec_eq_error {failure : RpcError}
    (failed : server.selectCodec request = .error failure) :
    failure = .unsupportedContentType (contentTypeOf request) :=
  (selectCodec_eq_error_iff.1 failed).1

/-- The choice depends on the headers only. -/
theorem selectCodec_congr {request' : Request} (headers : request.headers = request'.headers) :
    server.selectCodec request = server.selectCodec request' := by
  have typed : contentTypeOf request = contentTypeOf request' := by
    simp only [contentTypeOf, Request.header?, headers]
  simp only [selectCodec, typed]

/-! ## Requests without a codec -/

theorem serve_of_other_verb (other : request.verb ≠ "POST") :
    server.serve request = server.refuse (.methodNotAllowed request.verb) := by
  rw [serve, if_pos other]

theorem serve_of_no_codec (post : request.verb = "POST") {failure : RpcError}
    (failed : server.selectCodec request = .error failure) :
    server.serve request = server.refuse failure := by
  rw [serve, if_neg (not_not_intro post), failed]

/-- A request with another verb is answered with the verb that it has. -/
theorem isPlainText_of_other_verb (other : request.verb ≠ "POST") :
    (server.serve request).response.IsPlainText 405
      ("rpc: POST method required, received " ++ request.verb) := by
  rw [serve_of_other_verb other]
  exact Response.isPlainText_plain 405 _

/-- A request without a codec is answered with the content type that it has, and nothing else
happens. -/
theorem refused_of_no_codec (post : request.verb = "POST") {failure : RpcError}
    (failed : server.selectCodec request = .error failure) :
    (server.serve request).server = server ∧ (server.serve request).events = [] ∧
      (server.serve request).response.IsPlainText 415
        ("rpc: unrecognized Content-Type: " ++ contentTypeOf request) := by
  obtain rfl := selectCodec_eq_error failed
  rw [serve_of_no_codec post failed]
  exact ⟨rfl, rfl, Response.isPlainText_plain 415 _⟩

end RemoteCall.Server
