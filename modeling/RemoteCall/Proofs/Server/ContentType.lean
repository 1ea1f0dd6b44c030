import RemoteCall.Proofs.Server.Responses
import RemoteCall.Proofs.Text.Pieces

/-!
# Content types that are no text

Of a content type, the part in front of the first semicolon is read, leniently, and nothing
behind it (`contentTypeOf_eq`), so this part alone decides on the codec
(`selectCodec_of_mediaType`).  If it is no text, U+FFFD is left in the content type: it is
not empty, and no codec is registered for it unless somebody has used that very character
(`ill_formed_content_type_unsupported`).  What is no text behind the semicolon is never
noticed, and the request is served (`ill_formed_parameter_served`).
-/

namespace RemoteCall

namespace Text

/-- Trimming leaves the characters that are not blank. -/
theorem mem_trim {c : Char} {text : String} (mem : c ∈ text.toList) (shown : isBlank c = false) :
    c ∈ (trim text).toList := by
  have kept {chars : List Char} (mem : c ∈ chars) : c ∈ chars.dropWhile isBlank := by
    rw [← List.takeWhile_append_dropWhile (p := isBlank) (l := chars), List.mem_append] at mem
    rcases mem with blank | kept
    · rw [List.mem_takeWhile_imp blank] at shown
      cases shown
    · exact kept
  rw [trim, String.toList_ofList, List.mem_reverse]
  exact kept (List.mem_reverse.2 (kept mem))

end Text

theorem mem_lowerAscii {c : Char} {text : String} (mem : c ∈ text.toList)
    (fixed : c.toLower = c) : c ∈ (lowerAscii text).toList := by
  rw [lowerAscii, String.toList_ofList]
  exact List.mem_map.2 ⟨c, mem, fixed⟩

namespace Server

variable {A : Application} {server : Server A} {request : Request}

/-- The part of a content type that is read: what stands in front of the first semicolon. -/
def mediaType (value : Bytes) : Bytes :=
  value.takeWhile (· ≠ 0x3b)

theorem contentTypeOf_eq {value : Bytes} (given : request.header? "content-type" = some value) :
    contentTypeOf request = Text.trim (Utf8.decodeLossy (mediaType value)) := by
  have ascii : (0x3b : UInt8).toNat < 0x80 := by decide
  have cut : (Utf8.decodeLossy value).toList.takeWhile (· ≠ ';') =
      (Utf8.decodeLossy (mediaType value)).toList := Utf8.takeWhile_decodeLossy ascii value
  rw [contentTypeOf, given, Option.getD_some, cut, String.ofList_toList]

/-- Requests with one media type have one codec, whatever else is in them. -/
theorem selectCodec_of_mediaType {request' : Request} {value value' : Bytes}
    (given : request.header? "content-type" = some value)
    (given' : request'.header? "content-type" = some value')
    (same : mediaType value' = mediaType value) :
    server.selectCodec request' = server.selectCodec request := by
  have typed : contentTypeOf request' = contentTypeOf request := by
    rw [contentTypeOf_eq given, contentTypeOf_eq given', same]
  simp only [selectCodec, typed]

/-- A media type that is a text is read as it is. -/
theorem contentTypeOf_of_text {value : Bytes} {text : String}
    (given : request.header? "content-type" = some value)
    (read : Utf8.decode? (mediaType value) = some text) :
    contentTypeOf request = Text.trim text := by
  rw [contentTypeOf_eq given, Utf8.eq_encode_of_decode? read, Utf8.decodeLossy_encode]

/-- A media type that is no text leaves its mark. -/
theorem mem_contentTypeOf {value : Bytes} (given : request.header? "content-type" = some value)
    (unreadable : Utf8.decode? (mediaType value) = none) :
    '\uFFFD' ∈ (contentTypeOf request).toList := by
  rw [contentTypeOf_eq given]
  exact Text.mem_trim (Utf8.mem_decodeLossy_of_unreadable unreadable) (by decide)

/-- A POST request is refused for want of a codec exactly if there is none for the text in
front of the first semicolon of its content type.  If that is no text, there is one only
under a content type with U+FFFD in it, and the exception for a single codec is not made.
What follows the semicolon, text or not, has no say in the choice.  Servers of the formats
answer 415 to no other POST request. -/
theorem ill_formed_content_type_unsupported {value : Bytes} (post : request.verb = "POST")
    (given : request.header? "content-type" = some value) :
    (∀ failure, server.selectCodec request = .error failure →
      (server.serve request).server = server ∧ (server.serve request).events = [] ∧
        (server.serve request).response.IsPlainText 415
          ("rpc: unrecognized Content-Type: " ++ contentTypeOf request)) ∧
    ((∀ contentType codec, server.codecs.find? contentType = some codec →
        ∃ format : Format, codec = format.wire.codec) →
      ((server.serve request).response.status = 415 ↔
        ∃ failure, server.selectCodec request = .error failure)) ∧
    (∀ (other : Request) (value' : Bytes), other.header? "content-type" = some value' →
      mediaType value' = mediaType value →
      server.selectCodec other = server.selectCodec request) ∧
    (Utf8.decode? (mediaType value) = none →
      '\uFFFD' ∈ (contentTypeOf request).toList ∧
      (server.selectCodec request = .error (.unsupportedContentType (contentTypeOf request)) ↔
        lowerAscii (contentTypeOf request) ∉ server.codecs.keys) ∧
      ((∀ contentType ∈ server.codecs.keys, '\uFFFD' ∉ contentType.toList) →
        server.selectCodec request =
          .error (.unsupportedContentType (contentTypeOf request)))) ∧
    (∀ text, Utf8.decode? (mediaType value) = some text →
      (server.selectCodec request = .error (.unsupportedContentType (Text.trim text)) ↔
        lowerAscii (Text.trim text) ∉ server.codecs.keys ∧
          (Text.trim text = "" → server.codecs.size ≠ 1))) := by
  constructor
  · intro failure failed
    exact refused_of_no_codec post failed
  constructor
  · intro ofFormats
    exact status_eq_415_iff ofFormats post
  constructor
  · intro other value' given' same
    exact selectCodec_of_mediaType given given' same
  constructor
  · intro unreadable
    have marked := mem_contentTypeOf given unreadable
    have typed : contentTypeOf request ≠ "" := by
      intro empty
      rw [empty] at marked
      cases marked
    have refused_iff :
        server.selectCodec request = .error (.unsupportedContentType (contentTypeOf request)) ↔
          lowerAscii (contentTypeOf request) ∉ server.codecs.keys := by
      rw [selectCodec_eq_error_iff]
      constructor
      · rintro ⟨-, unknown, -⟩
        exact unknown
      · intro unknown
        exact ⟨rfl, unknown, fun empty => absurd empty typed⟩
    refine ⟨marked, refused_iff, ?_⟩
    intro unmarked
    apply refused_iff.2
    intro known
    exact unmarked _ known (mem_lowerAscii marked (by decide))
  · intro text read
    rw [selectCodec_eq_error_iff, contentTypeOf_of_text given read]
    simp

/-- An octet that begins no character, in front of the semicolon, and a single codec. -/
theorem ill_formed_content_type_unsupported_xml :
    let A : Application := ⟨Nat, "Nat", 0, "Request", Nat⟩
    let server : Server A := new.registerCodec "application/json" WireFormat.json.codec
    let value : Bytes := Ascii.octets "text/" ++ [0xff] ++ Ascii.octets "xml;q=1"
    let request : Request := ⟨"POST", [("Content-Type", value)], []⟩
    let bare : Request := ⟨"POST", [("content-type", mediaType value)], []⟩
    request.verb = "POST" ∧ request.header? "content-type" = some value ∧
      Utf8.decode? (mediaType value) = none ∧
      (∀ contentType ∈ server.codecs.keys, '\uFFFD' ∉ contentType.toList) ∧
      (server.serve request).response.status = 415 ∧
      server.selectCodec bare = server.selectCodec request := by
  intro A server value request bare
  have given : request.header? "content-type" = some value := by decide +kernel
  have unreadable : Utf8.decode? (mediaType value) = none := by decide +kernel
  have unmarked : ∀ contentType ∈ server.codecs.keys, '\uFFFD' ∉ contentType.toList := by
    decide +kernel
  have ⟨_, status_iff, alike, unsupported, _⟩ :=
    @ill_formed_content_type_unsupported A server request value rfl given
  have status := status_iff (exists_format_of_registered .json "application/json")
  have failed := (unsupported unreadable).2.2 unmarked
  have givenBare : bare.header? "content-type" = some (mediaType value) := by decide +kernel
  have same : mediaType (mediaType value) = mediaType value := by decide +kernel
  exact ⟨rfl, given, unreadable, unmarked, status.2 ⟨_, failed⟩,
    alike bare _ givenBare same⟩

/-- Not every content type that is no text is unsupported: the charset is not looked at, and
the call is answered. -/
theorem ill_formed_parameter_served :
    ¬ ∀ (A : Application) (server : Server A) (request : Request) (value : Bytes),
      request.verb = "POST" → request.header? "content-type" = some value →
      Utf8.decode? value = none → (server.serve request).response.status = 415 := by
  intro unsupported
  let A : Application := ⟨Nat, "Nat", 0, "Request", Nat⟩
  let say : Method A :=
    ⟨Value, Value, "Value", "Value", .ok, .null,
      fun calls context argument _ => ⟨calls + 1, context, [], .ok argument⟩, .value⟩
  let server : Server A :=
    { (new : Server A).registerCodec "application/json" WireFormat.json.codec with
      registry := ⟨Table.empty.insert "Echo"
        (Table.empty.insert "Say" ⟨"Echo", "Say", 0, (0 : Nat), say⟩)⟩ }
  let value : Bytes := Ascii.octets "application/json; charset=" ++ [0xff]
  let request : Request :=
    ⟨"POST", [("Content-Type", value)],
      Ascii.octets "\x7b\"method\":\"Echo.Say\",\"params\":[\"hi\"],\"id\":1\x7d"⟩
  have given : request.header? "content-type" = some value := by decide +kernel
  have unreadable : Utf8.decode? value = none := by decide +kernel
  have status := unsupported A server request value rfl given unreadable
  have served : (server.serve request).response.status = 200 := by decide +kernel
  rw [served] at status
  cases status

end Server

end RemoteCall
