import Mathlib.Data.List.Nodup
import RemoteCall.Proofs.Server.Arising
import RemoteCall.Proofs.Server.Selection
import RemoteCall.Proofs.Text.Blank

/-!
# Content types and the history of a server

Codecs are registered by the application and by hooks, in the course of time and under
content types in any case of letters.  `CodecHistory` lists these registrations beside
the server that they lead to, and `chosen` says, from the list alone, which of them
answers for a content type: the last one for it, whatever the case of its letters, or, for
a request without a content type, the last one of all, provided that all are for one content
type.  The table of codecs comes to the same (`CodecHistory.selectCodec_eq`), so it
shows neither the order of its entries nor how often they were replaced.
-/

namespace RemoteCall

variable {A : Application}

/-- The content type and the codec that a registration is about, if it is about a codec. -/
def Registration.codec? : Registration A → Option (String × Codec)
  | .codec contentType codec' => some (contentType, codec')
  | .service _ _ => none
  | .hook _ _ _ _ => none

namespace Server

/-! ## The registrations of codecs -/

/-- The last of the registrations for a content type that is given in lower case. -/
def lastUnder (calls : List (String × Codec)) (contentType : String) : Option (String × Codec) :=
  (calls.filter fun call => lowerAscii call.1 = contentType).getLast?

/-- Whether there are registrations, and all for the same content type but for the case of
its letters. -/
def OneContentType (calls : List (String × Codec)) : Prop :=
  ∃ first ∈ calls, ∀ call ∈ calls, lowerAscii call.1 = lowerAscii first.1

instance (calls : List (String × Codec)) : Decidable (OneContentType calls) :=
  inferInstanceAs (Decidable (∃ first ∈ calls, ∀ call ∈ calls,
    lowerAscii call.1 = lowerAscii first.1))

/-- The registration that answers for the content type of a request. -/
def chosen (calls : List (String × Codec)) (contentType : String) : Option (String × Codec) :=
  if contentType = "" ∧ OneContentType calls then calls.getLast?
  else lastUnder calls (lowerAscii contentType)

theorem lastUnder_concat (calls : List (String × Codec)) (call : String × Codec)
    (contentType : String) :
    lastUnder (calls ++ [call]) contentType
      = if lowerAscii call.1 = contentType then some call else lastUnder calls contentType := by
  by_cases same : lowerAscii call.1 = contentType
  · simp [lastUnder, List.filter_append, same]
  · simp [lastUnder, List.filter_append, same]

/-- The last of all registrations is the last one for its content type. -/
theorem lastUnder_of_getLast? {calls : List (String × Codec)} {call : String × Codec}
    (last : calls.getLast? = some call) : lastUnder calls (lowerAscii call.1) = some call := by
  rcases List.getLast?_eq_some_iff.1 last with ⟨earlier, rfl⟩
  rw [lastUnder_concat, if_pos rfl]

theorem lastUnder_eq_some {calls : List (String × Codec)} {call : String × Codec}
    {contentType : String} (last : lastUnder calls contentType = some call) :
    call ∈ calls ∧ lowerAscii call.1 = contentType := by
  simpa using List.mem_of_getLast? last

/-- The codecs by content type, after the registrations. -/
def codecTable (calls : List (String × Codec)) : Table Codec :=
  calls.foldl (fun codecs call => codecs.insert (lowerAscii call.1) call.2) .empty

theorem codecTable_append (calls more : List (String × Codec)) :
    codecTable (calls ++ more)
      = more.foldl (fun codecs call => codecs.insert (lowerAscii call.1) call.2)
          (codecTable calls) :=
  List.foldl_append

theorem find?_codecTable (calls : List (String × Codec)) (contentType : String) :
    (codecTable calls).find? contentType = (lastUnder calls contentType).map Prod.snd := by
  induction calls using List.reverseRecOn with
  | nil => rfl
  | append_singleton calls call ih =>
      rw [codecTable_append, List.foldl_cons, List.foldl_nil, Table.find?_insert, ih,
        lastUnder_concat]
      by_cases same : contentType = lowerAscii call.1
      · rw [if_pos same, if_pos same.symm, Option.map_some]
      · rw [if_neg same, if_neg (Ne.symm same)]

theorem mem_keys_codecTable {calls : List (String × Codec)} {contentType : String} :
    contentType ∈ (codecTable calls).keys ↔ ∃ call ∈ calls, lowerAscii call.1 = contentType := by
  rw [Table.mem_keys_iff, find?_codecTable]
  constructor
  · rintro ⟨codec, found⟩
    rcases Option.map_eq_some_iff.1 found with ⟨call, last, -⟩
    exact ⟨call, lastUnder_eq_some last⟩
  · rintro ⟨call, mem, same⟩
    have some : (calls.filter fun call => lowerAscii call.1 = contentType) ≠ [] :=
      List.ne_nil_of_mem (List.mem_filter.2 ⟨mem, decide_eq_true same⟩)
    exact ⟨_, congrArg (Option.map Prod.snd) (List.getLast?_eq_some_getLast some)⟩

/-- The table has a single entry exactly if all registrations were for one content type. -/
theorem size_codecTable_eq_one_iff {calls : List (String × Codec)} :
    (codecTable calls).size = 1 ↔ OneContentType calls := by
  have count : (codecTable calls).size = (codecTable calls).keys.length :=
    (List.length_map _).symm
  rw [count]
  constructor
  · intro single
    rcases List.length_eq_one_iff.1 single with ⟨only, keys⟩
    have under : ∀ call ∈ calls, lowerAscii call.1 = only := by
      intro call mem
      rw [← List.mem_singleton, ← keys]
      exact mem_keys_codecTable.2 ⟨call, mem, rfl⟩
    have there : only ∈ (codecTable calls).keys := keys ▸ List.mem_singleton_self only
    rcases mem_keys_codecTable.1 there with ⟨first, mem, rfl⟩
    exact ⟨first, mem, under⟩
  · rintro ⟨first, mem, all⟩
    have same : ∀ key ∈ (codecTable calls).keys, key = lowerAscii first.1 := by
      intro key memKey
      rcases mem_keys_codecTable.1 memKey with ⟨call, memCall, rfl⟩
      exact all call memCall
    have there : lowerAscii first.1 ∈ (codecTable calls).keys :=
      mem_keys_codecTable.2 ⟨first, mem, rfl⟩
    have keys := List.eq_replicate_of_mem same
    have distinct := (codecTable calls).keys_nodup
    rw [keys, List.nodup_replicate] at distinct
    exact Nat.le_antisymm distinct (List.length_pos_of_mem there)

/-! ## Histories -/

/-- `CodecHistory calls server`: there can be such a server (see `Arises`), and these
are the registrations of codecs that have been made with it, in order, by the application or by
hooks while requests were served. -/
inductive CodecHistory : List (String × Codec) → Server A → Prop where
  | made (config : Config) : CodecHistory [] (withConfig config)
  | registered {calls : List (String × Codec)} {server after : Server A} {what : Registration A} :
      CodecHistory calls server → server.register what = .ok after →
      CodecHistory (calls ++ what.codec?.toList) after
  | served {calls : List (String × Codec)} {server : Server A} {request : Request} {codec : Codec}
      {made : List (Registration A)} {stage : Stage A codec.State Value} :
      CodecHistory calls server → server.selectCodec request = .ok codec →
      Meanwhile codec server request made stage → server.serve request = conclude codec stage →
      CodecHistory (calls ++ made.filterMap Registration.codec?) (server.serve request).server

theorem codecs_register {server after : Server A} {what : Registration A}
    (registered : server.register what = .ok after) :
    after.codecs = what.codec?.toList.foldl
      (fun codecs call => codecs.insert (lowerAscii call.1) call.2) server.codecs := by
  cases what with
  | codec contentType codec =>
      obtain rfl := Except.ok.inj registered
      rfl
  | service service name =>
      rcases registerService_eq_ok_iff.1 registered with ⟨registry, _, rfl⟩
      rfl
  | hook phase requestType contextType run =>
      rcases registerHook_eq_ok_iff.1 registered with ⟨_, _, rfl⟩
      cases phase <;> rfl

theorem codecs_registerAll {server after : Server A} {made : List (Registration A)}
    (registered : server.registerAll made = .ok after) :
    after.codecs = (made.filterMap Registration.codec?).foldl
      (fun codecs call => codecs.insert (lowerAscii call.1) call.2) server.codecs := by
  induction made generalizing server with
  | nil =>
      obtain rfl := Except.ok.inj registered
      rfl
  | cons what rest ih =>
      rcases registerAll_cons_eq_ok_iff.1 registered with ⟨middle, first, others⟩
      rw [ih others, codecs_register first]
      cases about : what.codec? with
      | none => simp [about]
      | some call => simp [about]

/-- A server has the codecs that its history says. -/
theorem CodecHistory.codecs_eq {calls : List (String × Codec)} {server : Server A}
    (history : CodecHistory calls server) : server.codecs = codecTable calls := by
  induction history with
  | made config => rfl
  | registered _ registered ih => rw [codecs_register registered, ih, codecTable_append]
  | served _ _ meanwhile served ih =>
      rcases meanwhile.registered with ⟨last, registered, left⟩
      have codecs := codecs_registerAll registered
      rw [served, conclude_server, left, codecTable_append, ← ih]
      exact codecs

/-- Every server there can be has a history. -/
theorem Arises.exists_codecHistory {server : Server A} (arises : server.Arises) :
    ∃ calls, CodecHistory calls server := by
  induction arises with
  | made config => exact ⟨[], .made config⟩
  | registered _ registered ih =>
      rcases ih with ⟨calls, history⟩
      exact ⟨_, history.registered registered⟩
  | @served server request _ ih =>
      rcases ih with ⟨calls, history⟩
      rcases serve_cases server request with
        ⟨codec, made, stage, _, selected, meanwhile, served⟩ | ⟨_, untouched⟩
      · exact ⟨_, history.served selected meanwhile served⟩
      · exact ⟨calls, untouched.symm ▸ history⟩

/-! ## The choice -/

/-- The choice of a codec, from the history alone. -/
theorem CodecHistory.selectCodec_eq {calls : List (String × Codec)} {server : Server A}
    (history : CodecHistory calls server) (request : Request) :
    server.selectCodec request =
      match chosen calls (contentTypeOf request) with
      | some call => .ok call.2
      | none => .error (.unsupportedContentType (contentTypeOf request)) := by
  by_cases sole : contentTypeOf request = "" ∧ OneContentType calls
  · have single : server.codecs.entries.length = 1 := by
      rw [history.codecs_eq]
      exact size_codecTable_eq_one_iff.2 sole.2
    rcases List.length_eq_one_iff.1 single with ⟨⟨contentType, codec⟩, entries⟩
    rcases sole.2 with ⟨first, mem, _⟩
    have last := List.getLast?_eq_some_getLast (List.ne_nil_of_mem mem)
    have found := find?_codecTable calls (lowerAscii (calls.getLast (List.ne_nil_of_mem mem)).1)
    rw [lastUnder_of_getLast? last, ← history.codecs_eq, Option.map_some, Table.find?_eq_some_iff,
      entries, List.mem_singleton] at found
    rw [selectCodec_of_single sole.1 entries, chosen, if_pos sole, last]
    exact congrArg Except.ok (Prod.mk.inj found).2.symm
  · have several : contentTypeOf request = "" → server.codecs.size ≠ 1 := by
      intro untyped single
      rw [history.codecs_eq, size_codecTable_eq_one_iff] at single
      exact sole ⟨untyped, single⟩
    rw [selectCodec_of_several several, history.codecs_eq, find?_codecTable, chosen, if_neg sole]
    cases lastUnder calls (lowerAscii (contentTypeOf request)) with
    | none => rfl
    | some call => rfl

end Server

end RemoteCall
