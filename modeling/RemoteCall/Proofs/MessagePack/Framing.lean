import RemoteCall.Proofs.Data.Output
import RemoteCall.Proofs.MessagePack.Extent
import RemoteCall.Proofs.MessagePack.Reader

/-!
# Written data as single items

What is written for a datum is a single item, and an envelope that is read was a
single item, too.  As no item is the front of a longer one, nothing that breaks off
inside of what was written is read as an envelope.
-/

namespace RemoteCall.MessagePack

/-! ## Room -/

theorem passItems_mono {pass more : Bytes → Except Error Bytes}
    (grows : ∀ s rest, pass s = .ok rest → more s = .ok rest) {count : Nat} {s rest : Bytes}
    (passed : passItems pass count s = .ok rest) : passItems more count s = .ok rest := by
  induction count generalizing s with
  | zero => exact passed
  | succ count ih =>
      rw [passItems] at passed ⊢
      cases first : pass s with
      | error =>
          simp only [first, bind, Except.bind] at passed
          cases passed
      | ok after =>
          simp only [first, grows s after first, bind, Except.bind] at passed ⊢
          exact ih passed

theorem passWith_mono {inner : Option (Bytes → Except Error Bytes)}
    {more : Bytes → Except Error Bytes}
    (grows : ∀ pass, inner = some pass → ∀ s rest, pass s = .ok rest → more s = .ok rest)
    {s rest : Bytes} (passed : passWith inner s = .ok rest) :
    passWith (some more) s = .ok rest := by
  unfold passWith at passed ⊢
  cases found : item s with
  | error =>
      simp only [found, bind, Except.bind] at passed
      cases passed
  | ok pair =>
      rcases pair with ⟨it, after⟩
      simp only [found, bind, Except.bind] at passed ⊢
      cases inner with
      | none =>
          cases it with
          | array | map | extension => cases passed
          | _ => exact passed
      | some pass =>
          cases it with
          | array count => exact passItems_mono (grows pass rfl) passed
          | map count => exact passItems_mono (grows pass rfl) passed
          | _ => exact passed

theorem pass_succ {room : Nat} {s rest : Bytes} (passed : pass room s = .ok rest) :
    pass (room + 1) s = .ok rest := by
  induction room generalizing s rest with
  | zero =>
      apply passWith_mono _ passed
      rintro pass ⟨⟩
  | succ room ih =>
      apply passWith_mono _ passed
      rintro pass ⟨⟩ s rest inside
      exact ih inside

/-- What is passed over is passed over with more room, too. -/
theorem pass_mono {room more : Nat} (le : room ≤ more) {s rest : Bytes}
    (passed : pass room s = .ok rest) : pass more s = .ok rest := by
  induction le with
  | refl => exact passed
  | step _ ih => exact pass_succ ih

/-! ## Single items -/

/-- Whether the octets are one item, and nothing else. -/
def IsItem (octets : Bytes) : Prop :=
  ∃ room, pass room octets = .ok []

/-- Whether the octets are so many items, one behind the other. -/
def AreItems (count : Nat) (octets : Bytes) : Prop :=
  ∃ room, passItems (pass room) count octets = .ok []

theorem IsItem.of_leaf {octets : Bytes} {it : Item} (read : item octets = .ok (it, []))
    (leaf : it.IsLeaf) : IsItem octets :=
  ⟨0, passWith_leaf read leaf⟩

theorem IsItem.of_array {count : Nat} {head octets : Bytes}
    (read : ∀ rest, item (head ++ rest) = .ok (.array count, rest))
    (inside : AreItems count octets) :
    IsItem (head ++ octets) := by
  obtain ⟨room, passed⟩ := inside
  refine ⟨room + 1, ?_⟩
  rw [pass, passWith, read]
  exact passed

theorem IsItem.of_map {count : Nat} {head octets : Bytes}
    (read : ∀ rest, item (head ++ rest) = .ok (.map count, rest))
    (inside : AreItems (2 * count) octets) : IsItem (head ++ octets) := by
  obtain ⟨room, passed⟩ := inside
  refine ⟨room + 1, ?_⟩
  rw [pass, passWith, read]
  exact passed

theorem AreItems.nil : AreItems 0 [] :=
  ⟨0, rfl⟩

theorem AreItems.cons {count : Nat} {first others : Bytes} (isItem : IsItem first)
    (areItems : AreItems count others) : AreItems (count + 1) (first ++ others) := by
  obtain ⟨firstRoom, firstPassed⟩ := isItem
  obtain ⟨room, passed⟩ := areItems
  have begun : pass (max firstRoom room) (first ++ others) = .ok others :=
    (pass_passesFront _).extend (pass_mono (Nat.le_max_left firstRoom room) firstPassed) others
  refine ⟨max firstRoom room, ?_⟩
  rw [passItems, begun]
  exact passItems_mono (fun _ _ => pass_mono (Nat.le_max_right firstRoom room)) passed

theorem AreItems.single {octets : Bytes} (isItem : IsItem octets) : AreItems 1 octets := by
  have alone := AreItems.cons isItem .nil
  rwa [List.append_nil] at alone

/-- No item is the front of a longer one. -/
theorem IsItem.eq_nil_of_front {front more rest : Bytes} (isItem : IsItem (front ++ more))
    {room : Nat} (passed : pass room front = .ok rest) : more = [] := by
  obtain ⟨least, whole⟩ := isItem
  have short := (pass_passesFront _).extend (pass_mono (Nat.le_max_left room least) passed) more
  rw [pass_mono (Nat.le_max_right room least) whole] at short
  exact (List.append_eq_nil_iff.1 (Except.ok.inj short).symm).2

/-- What is left of an item and more is just that. -/
theorem IsItem.eq_of_passed {octets more rest : Bytes} (isItem : IsItem octets) {room : Nat}
    (passed : pass room (octets ++ more) = .ok rest) : rest = more := by
  obtain ⟨least, whole⟩ := isItem
  have long := (pass_passesFront _).extend (pass_mono (Nat.le_max_right room least) whole) more
  rw [pass_mono (Nat.le_max_left room least) passed] at long
  exact Except.ok.inj long

/-! ## Written data -/

theorem putBytes_append (octets out : Bytes) :
    putBytes octets out = putBytes octets [] ++ out := by
  simp only [putBytes, List.reverseAux_eq]
  rw [List.append_assoc]
  congr 1
  split
  · exact store_append _ _ _ out
  split
  · exact store_append _ _ _ out
  · exact store_append _ _ _ out

theorem item_putBytes {octets : Bytes} (fits : octets.length < Value.lengthBound) (rest : Bytes) :
    item ((putBytes octets []).reverse ++ rest) = .ok (.bytes octets, rest) := by
  have stored {byte : UInt8} {width : Nat} (marked : Marker.ofByte byte = .bytes width)
      (small : octets.length < Nat.pow 256 width) :
      item ((octets.reverseAux (store byte width octets.length [])).reverse ++ rest)
        = .ok (.bytes octets, rest) := by
    have shape : (octets.reverseAux (store byte width octets.length [])).reverse ++ rest
        = byte :: (Bytes.ofNat width octets.length ++ (octets ++ rest)) := by
      simp [List.reverseAux_eq, reverse_store]
    rw [shape, item_cons, marked]
    simp only [itemOf, natural_ofNat small, bind, Except.bind, content_append]
  simp only [putBytes]
  split
  next small => exact stored rfl small
  split
  next small => exact stored rfl small
  next => exact stored rfl fits

theorem item_single {n : Nat} (fits : n < Nat.pow 256 4) (rest : Bytes) :
    item ((store 0xca 4 n []).reverse ++ rest) = .ok (.single (.ofBits n), rest) := by
  have marked : Marker.ofByte 0xca = .single := rfl
  rw [reverse_store, List.cons_append, item_cons, marked]
  simp only [itemOf, natural_ofNat fits, bind, Except.bind]

theorem putText_isItem {chars : String} (short : (Utf8.encode chars).length < Value.lengthBound) :
    IsItem (putText chars []).reverse := by
  have read := item_putText short []
  rw [List.append_nil] at read
  exact .of_leaf read trivial

theorem putBytes_isItem {octets : Bytes} (short : octets.length < Value.lengthBound) :
    IsItem (putBytes octets []).reverse := by
  have read := item_putBytes short []
  rw [List.append_nil] at read
  exact .of_leaf read trivial

theorem packing_isItem {v : Value} (short : v.Short) : IsItem (packing v) := by
  have read := value_recovers short (Nat.le_refl v.depth) []
  rw [List.append_nil] at read
  exact ⟨v.depth, value_passedOver v.depth _ _ _ read⟩

section Writers

/-- Whether a writer, if it writes at all, appends a single item. -/
abbrev WritesItem (put : Bytes → Except Refusal Bytes) : Prop :=
  Appends IsItem put

theorem putText_writesItem {chars : String}
    (short : (Utf8.encode chars).length < Value.lengthBound) :
    WritesItem fun out => .ok (putText chars out) := by
  apply Appends.ok (putText chars []).reverse _ (putText_isItem short)
  intro out
  rw [List.reverse_reverse]
  exact putText_append chars out

theorem putBytes_writesItem {octets : Bytes} (short : octets.length < Value.lengthBound) :
    WritesItem fun out => .ok (putBytes octets out) := by
  apply Appends.ok (putBytes octets []).reverse _ (putBytes_isItem short)
  intro out
  rw [List.reverse_reverse]
  exact putBytes_append octets out

theorem putValue_writesItem {v : Value} (short : v.Short) :
    WritesItem fun out => .ok (putValue v out) :=
  .ok (packing v) (putValue_eq v) (packing_isItem short)

theorem putData_appends {items : List Datum}
    (each : ∀ item ∈ items, WritesItem (putDatum item)) :
    Appends (AreItems items.length) (putData items) := by
  induction items with
  | nil => exact .nothing .nil
  | cons item rest ih =>
      have others := ih fun other mem => each other (List.mem_cons_of_mem _ mem)
      exact (each item List.mem_cons_self).bind others fun _ _ => .cons

theorem putFields_appends {fields : List (String × Datum)}
    (names : ∀ field ∈ fields, (Utf8.encode field.1).length < Value.lengthBound)
    (each : ∀ field ∈ fields, WritesItem (putDatum field.2)) :
    Appends (AreItems (2 * fields.length)) (putFields fields) := by
  induction fields with
  | nil => exact .nothing .nil
  | cons field rest ih =>
      rcases field with ⟨name, content⟩
      have others := ih (fun other mem => names other (List.mem_cons_of_mem _ mem))
        fun other mem => each other (List.mem_cons_of_mem _ mem)
      have contents := (each (name, content) List.mem_cons_self).bind others fun _ _ =>
        AreItems.cons
      exact (putText_writesItem (names (name, content) List.mem_cons_self)).bind contents
        fun _ _ => .cons

theorem putEntries_appends {entries : List (Datum × Datum)}
    (keys : ∀ entry ∈ entries, WritesItem (putDatum entry.1))
    (each : ∀ entry ∈ entries, WritesItem (putDatum entry.2)) :
    Appends (AreItems (2 * entries.length)) (putEntries entries) := by
  induction entries with
  | nil => exact .nothing .nil
  | cons entry rest ih =>
      rcases entry with ⟨key, content⟩
      have others := ih (fun other mem => keys other (List.mem_cons_of_mem _ mem))
        fun other mem => each other (List.mem_cons_of_mem _ mem)
      have contents := (each (key, content) List.mem_cons_self).bind others fun _ _ =>
        AreItems.cons
      exact (keys (key, content) List.mem_cons_self).bind contents fun _ _ => .cons

theorem WritesItem.of_array (count : Nat) (fits : count < Value.lengthBound)
    {put : Bytes → Except Refusal Bytes} (inside : Appends (AreItems count) put) :
    WritesItem fun out => put (putArrayCount count out) := by
  apply Appends.behind (putArrayCount count []).reverse _ inside
  · exact fun octets => .of_array (item_putArrayCount fits)
  · intro out
    rw [List.reverse_reverse]
    exact putArrayCount_append count out

theorem WritesItem.of_map (count : Nat) (fits : count < Value.lengthBound)
    {put : Bytes → Except Refusal Bytes} (inside : Appends (AreItems (2 * count)) put) :
    WritesItem fun out => put (putMapCount count out) := by
  apply Appends.behind (putMapCount count []).reverse _ inside
  · exact fun octets => .of_map (item_putMapCount fits)
  · intro out
    rw [List.reverse_reverse]
    exact putMapCount_append count out

/-- What is written for a short datum is a single item. -/
theorem putDatum_writesItem {d : Datum} (short : d.Short) : WritesItem (putDatum d) := by
  induction short with
  | unit | none => exact putValue_writesItem (v := .null) (.of_scalar rfl trivial)
  | bool b =>
      cases b with
      | false => exact putValue_writesItem (v := .bool false) (.of_scalar rfl trivial)
      | true => exact putValue_writesItem (v := .bool true) (.of_scalar rfl trivial)
  | integer n => exact putValue_writesItem (v := .integer n) (.of_scalar rfl trivial)
  | wide n =>
      apply putBytes_writesItem
      rw [Bytes.length_ofNat]
      decide
  | double x =>
      have read := item_putDouble x []
      rw [List.append_nil] at read
      apply Appends.ok _ _ (.of_leaf read trivial)
      intro out
      rw [List.reverse_reverse]
      exact store_append _ _ _ out
  | single x =>
      have fits : x.toBits < Nat.pow 256 4 := Floating.toBits_lt x
      have read := item_single fits []
      rw [List.append_nil] at read
      apply Appends.ok _ _ (.of_leaf read trivial)
      intro out
      rw [List.reverse_reverse]
      exact store_append _ _ _ out
  | char c =>
      apply putText_writesItem
      have few : (Utf8.encode (String.singleton c)).length ≤ 4 := by
        have octets : (Utf8.encode (String.singleton c)).length = c.utf8Size := by
          simp [Utf8.encode, List.utf8Encode]
        rw [octets]
        exact c.utf8Size_le_four
      exact Nat.lt_of_le_of_lt few (by decide)
  | string fits => exact putText_writesItem fits
  | bytes fits => exact putBytes_writesItem fits
  | sequence fits _ ih => exact .of_array _ fits (putData_appends ih)
  | map fits _ _ keys contents => exact .of_map _ fits (putEntries_appends keys contents)
  | record fits names _ ih => exact .of_map _ fits (putFields_appends names ih)
  | some _ ih | wrapped _ ih => exact ih
  | unitRecord => exact .of_array 0 (by decide) (.nothing .nil)
  | unitVariant fits => exact putText_writesItem fits
  | variant fits _ ih =>
      have inside := (putText_writesItem fits).bind (ih.mono fun _ => .single) fun _ _ =>
        AreItems.cons
      exact .of_map 1 (by decide) inside
  | value fits => exact putValue_writesItem fits
  | refuse message => exact .error _

/-- A short datum is written as a single item. -/
theorem writeDatum_isItem {d : Datum} (short : d.Short) {octets : Bytes}
    (written : writeDatum d = .ok octets) : IsItem octets := by
  unfold writeDatum at written
  split at written
  next put =>
      obtain rfl := Except.ok.inj written
      obtain ⟨octets, rfl, isItem⟩ := putDatum_writesItem short [] _ put
      simpa using isItem
  next => cases written

end Writers

/-! ## Envelopes -/

open Envelope

/-- An envelope is read from no proper front of an item. -/
theorem eq_nil_of_front_envelope {α : Type} {layout : Layout α} {head : Read α}
    (headPassed : PassedOver head (pass (deepest - 1))) {begun missing : Bytes}
    (isItem : IsItem (begun ++ missing)) {found : Envelope α}
    (read : front (envelope layout head (value (deepest - 1))) begun = .ok found) :
    missing = [] := by
  obtain ⟨rest, ended⟩ := front_eq_ok_iff.1 read
  exact isItem.eq_nil_of_front (envelope_passedOver headPassed begun found rest ended)

theorem text_passedOver (room : Nat) : PassedOver (text room) (pass room) :=
  (text_readsKeys room).readsLeaves.passedOver room

theorem eq_nil_of_readCall {begun missing : Bytes} (isItem : IsItem (begun ++ missing))
    {call : Call} (read : readCall begun = .ok call) : missing = [] :=
  eq_nil_of_front_envelope (text_passedOver _) isItem read

theorem eq_nil_of_readAnswer {begun missing : Bytes} (isItem : IsItem (begun ++ missing))
    {answer : Answer} (read : readAnswer begun = .ok answer) : missing = [] :=
  eq_nil_of_front_envelope (value_passedOver _) isItem read

/-- A call is read from an item and more exactly if it is read from the item. -/
theorem readCall_append_iff {octets : Bytes} (isItem : IsItem octets) (more : Bytes) {call : Call} :
    readCall (octets ++ more) = .ok call ↔ readCall octets = .ok call := by
  constructor
  · intro read
    obtain ⟨rest, ended⟩ := front_eq_ok_iff.1 read
    obtain rfl := isItem.eq_of_passed
      (envelope_passedOver (text_passedOver _) (octets ++ more) call rest ended)
    have alone : ReadsFront (envelope callLayout _ _) :=
      envelope_readsFront (text_readsFront (deepest - 1)) (value_readsFront (deepest - 1))
    exact front_eq_ok_iff.2 ⟨[], alone.retract ended⟩
  · intro read
    exact readCall_append read more

end RemoteCall.MessagePack
