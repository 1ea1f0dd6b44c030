import RemoteCall.Client
import RemoteCall.Proofs.Codec.Response
import RemoteCall.Proofs.Envelope.Projection

/-!
# Calls of one client

A client writes calls one after the other, now in one format and now in the
other, and some of them may be impossible to write.  Every call takes the next
identifier, and every call that is written presents itself to a server as what
it was meant to be, under its own identifier.
-/

namespace RemoteCall

/-- A call that a client is asked to write. -/
structure Outgoing where
  format : Format
  method : String
  argument : Datum

/-- Whether a call stays within bounds, as far as its method and the value of its argument
show: the argument is portable, free of floating-point numbers and of texts, lists and maps too
long for a length of four octets, and the value that it denotes is nested at most 120 deep. -/
structure Outgoing.Bounded (call : Outgoing) : Prop where
  methodShort : (Utf8.encode call.method).length < Value.lengthBound
  portable : call.argument.Portable
  floatFree : call.argument.asWritten.FloatFree
  short : call.argument.asWritten.Short
  shallow : ∀ v, call.argument.toValue = .ok v → v.depth ≤ 120

/-- Whether a call is one that every format carries: it stays within bounds, and the value of
its argument shows how deep it is.  Where a key occurs twice, the value is without the part
that the key stands for first, however deep that is, but the part is written. -/
structure Outgoing.Plain (call : Outgoing) : Prop extends call.Bounded where
  shown : call.argument.asWritten.KeysDistinct ∨ call.argument.asWritten.depth ≤ 120

theorem Outgoing.Plain.depth_le {call : Outgoing} (plain : call.Plain) :
    call.argument.asWritten.depth ≤ 120 := by
  rcases plain.shown with distinct | shallow
  · exact Nat.le_trans (Value.depth_le_depth_normal distinct)
      (plain.shallow _ plain.portable.toValue_eq)
  · exact shallow

/-- A call is plain if everything that is written for it is nested at most 120 deep. -/
theorem Outgoing.plain_of_depth_le {call : Outgoing}
    (methodShort : (Utf8.encode call.method).length < Value.lengthBound)
    (portable : call.argument.Portable) (floatFree : call.argument.asWritten.FloatFree)
    (short : call.argument.asWritten.Short) (shallow : call.argument.asWritten.depth ≤ 120) :
    call.Plain := by
  refine ⟨⟨methodShort, portable, floatFree, short, ?_⟩, .inr shallow⟩
  intro v denotes
  obtain rfl := Except.ok.inj (portable.toValue_eq.symm.trans denotes)
  exact Nat.le_trans (Value.depth_normal_le _) shallow

namespace Client

/-! ## Identifiers -/

/-- The identifiers that a client gives to calls written one after the other. -/
def ids : Client → List Outgoing → List UInt64
  | _, [] => []
  | client, call :: rest =>
    client.nextId :: ids (client.encode call.format.wire call.method call.argument).1 rest

/-- Writes calls one after the other. -/
def encodeAll : Client → List Outgoing → Client × List (Except RpcError Bytes)
  | client, [] => (client, [])
  | client, call :: rest =>
    let (client, body) := client.encode call.format.wire call.method call.argument
    let (client, bodies) := encodeAll client rest
    (client, body :: bodies)

/-- An identifier as a value: the integer that its 64 bits without a sign stand for. -/
def idValue (id : UInt64) : Value :=
  .integer ⟨id.toNat, (Integer.ofUInt64 id).least_le, (Integer.ofUInt64 id).lt_bound⟩

/-- Identifiers are consecutive, whatever becomes of the calls. -/
theorem ids_eq (client : Client) (calls : List Outgoing) :
    client.ids calls = (List.range calls.length).map fun k => client.nextId + UInt64.ofNat k := by
  induction calls generalizing client with
  | nil => rfl
  | cons call rest ih =>
      have next : (client.encode call.format.wire call.method call.argument).1.nextId
          = client.nextId + 1 := rfl
      rw [ids, ih, next, List.length_cons, List.range_succ_eq_map, List.map_cons, List.map_map]
      congr 1
      · simp
      · apply List.map_congr_left
        intro k _
        simp [UInt64.add_assoc, UInt64.add_comm, UInt64.ofNat_add]

theorem ids_nodup (client : Client) {calls : List Outgoing} (few : calls.length ≤ UInt64.size) :
    (client.ids calls).Nodup := by
  rw [ids_eq, List.nodup_iff_pairwise_ne, List.pairwise_map]
  apply List.Pairwise.imp_of_mem _ List.pairwise_lt_range
  intro j k _ memK before same
  have inRange : k < UInt64.size := Nat.lt_of_lt_of_le (List.mem_range.1 memK) few
  have offsets : UInt64.ofNat j = UInt64.ofNat k := (UInt64.add_right_inj _).1 same
  have equal := congrArg UInt64.toNat offsets
  rw [UInt64.toNat_ofNat_of_lt' (Nat.lt_trans before inRange), UInt64.toNat_ofNat_of_lt' inRange]
    at equal
  omega

/-- What is written for a call depends on the calls before only through the identifier. -/
theorem getElem?_encodeAll (client : Client) {calls : List Outgoing} {k : Nat} {call : Outgoing}
    {id : UInt64} (asked : calls[k]? = some call) (numbered : (client.ids calls)[k]? = some id) :
    (client.encodeAll calls).2[k]?
      = some (call.format.wire.write (Client.call call.method call.argument id)) := by
  induction calls generalizing client k with
  | nil => simp at asked
  | cons first rest ih =>
      cases k with
      | zero =>
          obtain rfl : first = call := by simpa using asked
          obtain rfl : client.nextId = id := by simpa [ids] using numbered
          rfl
      | succ k =>
          exact ih (client.encode first.format.wire first.method first.argument).1 asked numbered

/-! ## Round trip -/

theorem call_portable (method : String) {argument : Datum} (portable : argument.Portable)
    (id : UInt64) : (Client.call method argument id).Portable := by
  apply Datum.Portable.record
  simp only [List.forall_mem_cons]
  exact ⟨.string method, .sequence (by simpa using portable), .integer _, by simp⟩

theorem call_asWritten (method : String) (argument : Datum) (id : UInt64) :
    (Client.call method argument id).asWritten
      = .object [("method", .string method), ("params", .array [argument.asWritten]),
          ("id", idValue id)] :=
  rfl

theorem fits_params {call : Outgoing} (plain : call.Plain) :
    call.format.Fits (.array [call.argument.asWritten]) := by
  have only {P : Value → Prop} (holds : P call.argument.asWritten) :
      ∀ item ∈ [call.argument.asWritten], P item := by
    intro item mem
    rcases List.mem_singleton.1 mem with rfl
    exact holds
  have floatFree : (Value.array [call.argument.asWritten]).FloatFree :=
    .of_array trivial (only plain.floatFree)
  have short : (Value.array [call.argument.asWritten]).Short :=
    .of_array (by decide : 1 < Value.lengthBound) (only plain.short)
  have shallow : (Value.array [call.argument.asWritten]).depth ≤ 121 :=
    Value.depth_array_le_succ_iff.2 (only plain.depth_le)
  exact call.format.fits_of_plain floatFree short shallow

/-- A plain call is written and read back, whatever its identifier. -/
theorem exists_write_call {call : Outgoing} (plain : call.Plain) (id : UInt64) :
    ∃ body, call.format.wire.write (Client.call call.method call.argument id) = .ok body ∧
      call.format.wire.readCall body
        = .ok ⟨call.method, .array [call.argument.asWritten.normal], idValue id⟩ := by
  obtain ⟨body, written, read⟩ := call.format.exists_write_call
    (call_portable call.method plain.portable id) (call_asWritten call.method call.argument id)
    plain.methodShort (fits_params plain) (call.format.fits_integer _)
  rw [Value.normal_array] at read
  exact ⟨body, written, read⟩

/-- What a client writes for a plain call is read as that call. -/
theorem readCall_of_encode {call : Outgoing} (plain : call.Plain) {client : Client} {body : Bytes}
    (written : (client.encode call.format.wire call.method call.argument).2 = .ok body) :
    call.format.wire.readCall body
      = .ok ⟨call.method, .array [call.argument.asWritten.normal], idValue client.nextId⟩ := by
  rcases exists_write_call plain client.nextId with ⟨body', written', read⟩
  obtain rfl : body' = body := Except.ok.inj (written'.symm.trans written)
  exact read

theorem givesBack_idValue (format : Format) (id : UInt64) : format.GivesBack (idValue id) :=
  ⟨.of_scalar rfl trivial, format.fits_integer _⟩

/-- Over any calls of one client, in any order of formats and whether or not they can
be written, the identifiers are consecutive, and distinct unless there are more
than `2^64`.  Every call is written under its own identifier, and every call within bounds
presents itself to a server as its method with the value of its argument, unless a key that
occurs twice hides from that value something deeper. -/
theorem encodeAll_round_trip (client : Client) (calls : List Outgoing) :
    client.ids calls = (List.range calls.length).map (fun k => client.nextId + UInt64.ofNat k) ∧
    (calls.length ≤ UInt64.size → (client.ids calls).Nodup) ∧
    ∀ (k : Nat) (call : Outgoing) (id : UInt64), calls[k]? = some call →
      (client.ids calls)[k]? = some id →
      (client.encodeAll calls).2[k]?
        = some (call.format.wire.write (Client.call call.method call.argument id)) ∧
      (call.Bounded →
        call.argument.asWritten.KeysDistinct ∨ call.argument.asWritten.depth ≤ 120 →
        ∃ v body, call.argument.toValue = .ok v ∧
          (client.encodeAll calls).2[k]? = some (.ok body) ∧
          call.format.Presents body call.method v (idValue id)) := by
  constructor
  · exact client.ids_eq calls
  apply And.intro client.ids_nodup
  intro k call id asked numbered
  have outcome := client.getElem?_encodeAll asked numbered
  apply And.intro outcome
  intro bounded shown
  rcases exists_write_call ⟨bounded, shown⟩ id with ⟨body, written, read⟩
  refine ⟨call.argument.asWritten.normal, body, bounded.portable.toValue_eq, ?_, ?_⟩
  · rw [outcome, written]
  · exact call.format.presents_of_readCall read nofun (givesBack_idValue _ id)

/-- The identifiers start over after the greatest one, and a call that cannot be written
uses up the one in between. -/
theorem encodeAll_round_trip_past_failure :
    let client : Client := ⟨0xffffffffffffffff⟩
    let sum : Datum := .record [("b", .integer ⟨-2, by decide, by decide⟩), ("a", .none)]
    let add : Outgoing := ⟨.messagePack, "Arith.Add", sum⟩
    let calls : List Outgoing :=
      [⟨.json, "Arith.Add", .unit⟩, ⟨.json, "Arith.Add", .refuse "no"⟩, add]
    client.ids calls = [0xffffffffffffffff, 0, 1] ∧
    ∃ v body, sum.toValue = .ok v ∧ (client.encodeAll calls).2[2]? = some (.ok body) ∧
      Format.messagePack.Presents body "Arith.Add" v (idValue 1) := by
  intro client sum add calls
  have portable : sum.Portable := by
    apply Datum.Portable.record
    simp only [List.forall_mem_cons]
    exact ⟨.integer _, .none, by simp⟩
  have shape : sum.asWritten
      = .object [("b", .integer ⟨-2, by decide, by decide⟩), ("a", .null)] := rfl
  have floatFree : sum.asWritten.FloatFree := by
    rw [shape]
    refine Value.Everywhere.of_object trivial ?_
    simp only [List.forall_mem_cons]
    exact ⟨.of_scalar rfl trivial, .of_scalar rfl trivial, by simp⟩
  have short : sum.asWritten.Short := by
    rw [shape]
    refine Value.Everywhere.of_object ⟨by decide, by decide⟩ ?_
    simp only [List.forall_mem_cons]
    exact ⟨.of_scalar rfl trivial, .of_scalar rfl trivial, by simp⟩
  have plain : add.Plain :=
    Outgoing.plain_of_depth_le (by decide) portable floatFree short (by decide)
  constructor
  · decide
  · exact ((encodeAll_round_trip client calls).2.2 2 add 1 rfl (by decide)).2 plain.toBounded
      plain.shown

/-! ## Hidden depth -/

/-- Lists inside one another. -/
def nest : Nat → Datum
  | 0 => .sequence []
  | n + 1 => .sequence [nest n]

theorem nest_portable (n : Nat) : (nest n).Portable := by
  induction n with
  | zero => exact .sequence (by simp)
  | succ n ih => exact .sequence (by simpa using ih)

/-- What holds everywhere in short arrays holds everywhere in nested lists. -/
theorem everywhere_nest {condition : Value → Prop}
    (short : ∀ items : List Value, items.length ≤ 1 → condition (.array items)) (n : Nat) :
    (nest n).asWritten.Everywhere condition := by
  induction n with
  | zero => exact .of_array (short [] (by decide)) nofun
  | succ n ih =>
      refine .of_array (short [(nest n).asWritten] (by simp)) ?_
      intro item mem
      obtain rfl := List.mem_singleton.1 mem
      exact ih

/-- A call within bounds is not always read: of two parts under one key the first is written,
but it is not in the value, and if it is deep, no server reads the body as a call. -/
theorem encodeAll_round_trip_hidden :
    let argument : Datum := .map [(.string "k", nest 199), (.string "k", .none)]
    let body := Ascii.octets "\x7b\"method\":\"Echo.Say\",\"params\":[\x7b\"k\":"
      ++ List.replicate 200 0x5b ++ List.replicate 200 0x5d
      ++ Ascii.octets ",\"k\":null\x7d],\"id\":1\x7d"
    Outgoing.Bounded ⟨.json, "Echo.Say", argument⟩ ∧
      argument.toValue = .ok (.object [("k", .null)]) ∧
      (({} : Client).encode .json "Echo.Say" argument).2 = .ok body ∧
      ¬ ∃ v, Format.json.Presents body "Echo.Say" v (idValue 1) := by
  intro argument body
  have portable : argument.Portable := by
    refine .map ?_ ?_
    · simp only [List.forall_mem_cons]
      exact ⟨rfl, rfl, nofun⟩
    · simp only [List.forall_mem_cons]
      exact ⟨nest_portable 199, .none, nofun⟩
  have inMembers {condition : Value → Prop} (null : condition .null)
      (short : ∀ items : List Value, items.length ≤ 1 → condition (.array items)) :
      ∀ member ∈ [("k", (nest 199).asWritten), ("k", .null)],
        Value.Everywhere condition member.2 := by
    simp only [List.forall_mem_cons]
    exact ⟨everywhere_nest short 199, .of_scalar rfl null, nofun⟩
  have floatFree : argument.asWritten.FloatFree :=
    .of_object trivial (inMembers trivial fun _ _ => trivial)
  have names : ∀ member ∈ [("k", (nest 199).asWritten), ("k", .null)],
      (Utf8.encode member.1).length < Value.lengthBound := by
    simp only [List.forall_mem_cons]
    exact ⟨by decide, by decide, nofun⟩
  have short : argument.asWritten.Short :=
    .of_object ⟨(by decide : 2 < Value.lengthBound), names⟩
      (inMembers trivial fun _ few => Nat.lt_of_le_of_lt few (by decide))
  have denotes : argument.toValue = .ok (.object [("k", .null)]) := by
    rw [portable.toValue_eq]
    exact congrArg Except.ok (Value.ofMembers_same_key "k" (nest 199).asWritten.normal .null)
  have encoded : (({} : Client).encode .json "Echo.Say" argument).2.toOption = some body := by
    decide +kernel
  have unread : (Format.json.wire.readCall body).toOption = none := by
    decide +kernel
  refine ⟨⟨by decide, portable, floatFree, short, ?_⟩, denotes, ?_, ?_⟩
  · intro v given
    obtain rfl := Except.ok.inj (denotes.symm.trans given)
    decide
  · exact toOption_eq_some_iff.1 encoded
  · rintro ⟨v, presents⟩
    obtain ⟨e, unreadable⟩ := toOption_eq_none_iff.1 unread
    have answered := (presents ⟨"POST", [], body⟩ rfl _ .opened).1
    have refused := (Enveloped.answers_of_error unreadable .opened).1
    cases answered.symm.trans refused

end Client

end RemoteCall
