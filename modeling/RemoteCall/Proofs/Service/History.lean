import RemoteCall.Proofs.Service.Registry
import RemoteCall.Proofs.Text.Order

/-!
# The history of a registry

A registry is what successive additions have made of the empty one; an addition
that is refused leaves it as it is.  Along a history the registry stays
well-formed and only grows, and it holds one service for each addition that was
accepted.  `history_laws` gathers what this means for look-ups.
-/

namespace RemoteCall

variable {A : Application}

/-- A service that is to be added, under a name or its default name. -/
structure Addition (A : Application) where
  service : Service A
  explicit : Option String

/-- The name under which the service is to be added. -/
def Addition.name (addition : Addition A) : String :=
  Registry.resolveName addition.service addition.explicit

namespace Registry

/-- The registry after an addition. -/
def added (registry : Registry A) (addition : Addition A) : Registry A :=
  match registry.add addition.service addition.explicit with
  | .ok after => after
  | .error _ => registry

/-- The registry after all of the additions, in order. -/
def addAll (registry : Registry A) (additions : List (Addition A)) : Registry A :=
  additions.foldl added registry

/-- The names of the additions that are accepted, in order. -/
def accepted : Registry A → List (Addition A) → List String
  | _, [] => []
  | registry, addition :: rest =>
    match registry.add addition.service addition.explicit with
    | .ok after => addition.name :: accepted after rest
    | .error _ => accepted registry rest

@[simp]
theorem addAll_nil (registry : Registry A) : registry.addAll [] = registry :=
  rfl

@[simp]
theorem addAll_cons (registry : Registry A) (addition : Addition A) (rest : List (Addition A)) :
    registry.addAll (addition :: rest) = (registry.added addition).addAll rest :=
  rfl

theorem addAll_append (registry : Registry A) (earlier later : List (Addition A)) :
    registry.addAll (earlier ++ later) = (registry.addAll earlier).addAll later :=
  List.foldl_append

variable {registry : Registry A}

/-! ## What a history preserves -/

theorem WellFormed.added (wellFormed : registry.WellFormed) (addition : Addition A) :
    (registry.added addition).WellFormed := by
  unfold Registry.added
  split
  next after added => exact wellFormed.add added
  next => exact wellFormed

theorem WellFormed.addAll (wellFormed : registry.WellFormed) (additions : List (Addition A)) :
    (registry.addAll additions).WellFormed := by
  induction additions generalizing registry with
  | nil => exact wellFormed
  | cons addition rest ih => exact ih (wellFormed.added addition)

theorem extends_added (registry : Registry A) (addition : Addition A) :
    (registry.added addition).Extends registry := by
  unfold Registry.added
  split
  next after added => exact extends_of_add added
  next => exact Extends.refl registry

theorem extends_addAll (registry : Registry A) (additions : List (Addition A)) :
    (registry.addAll additions).Extends registry := by
  induction additions generalizing registry with
  | nil => exact Extends.refl registry
  | cons addition rest ih =>
      exact (ih (registry.added addition)).trans (extends_added registry addition)

/-- A later state of a registry extends an earlier one. -/
theorem extends_take (registry : Registry A) (additions : List (Addition A)) {j k : Nat}
    (order : j ≤ k) :
    (registry.addAll (additions.take k)).Extends (registry.addAll (additions.take j)) := by
  have split : additions.take k = additions.take j ++ (additions.take k).drop j := by
    calc additions.take k = (additions.take k).take j ++ (additions.take k).drop j :=
          (List.take_append_drop j _).symm
      _ = additions.take j ++ (additions.take k).drop j := by
          rw [List.take_take, Nat.min_eq_left order]
  rw [split, addAll_append]
  exact extends_addAll _ _

/-! ## The services that a history leaves -/

/-- A service is there if it was there before or an addition of its name was accepted. -/
theorem find?_addAll_ne_none_iff (registry : Registry A) (additions : List (Addition A))
    (service : String) :
    (registry.addAll additions).services.find? service ≠ none ↔
      registry.services.find? service ≠ none ∨ service ∈ registry.accepted additions := by
  induction additions generalizing registry with
  | nil => simp [accepted]
  | cons addition rest ih =>
      rw [addAll_cons, ih, Registry.added, accepted]
      split
      next after added =>
          rcases add_eq_ok_iff.1 added with ⟨_, _, _, rfl⟩
          rw [Table.find?_insert, List.mem_cons, Addition.name]
          by_cases same : service = resolveName addition.service addition.explicit
          · simp [same]
          · simp [same]
      next => rfl

/-- No addition is accepted under a name that is taken. -/
theorem find?_of_mem_accepted {additions : List (Addition A)} {name : String}
    (mem : name ∈ registry.accepted additions) : registry.services.find? name = none := by
  induction additions generalizing registry with
  | nil => cases mem
  | cons addition rest ih =>
      rw [accepted] at mem
      split at mem
      next after added =>
          rcases List.mem_cons.1 mem with rfl | mem
          · exact (add_eq_ok_iff.1 added).2.2.1
          · cases held : registry.services.find? name with
            | none => rfl
            | some methods =>
                have kept := extends_of_add added name methods held
                rw [ih mem] at kept
                cases kept
      next => exact ih mem

/-- No two additions are accepted under the same name. -/
theorem accepted_nodup (registry : Registry A) (additions : List (Addition A)) :
    (registry.accepted additions).Nodup := by
  induction additions generalizing registry with
  | nil => simp [accepted]
  | cons addition rest ih =>
      rw [accepted]
      split
      next after added =>
          refine List.nodup_cons.2 ⟨fun mem => ?_, ih after⟩
          have free := find?_of_mem_accepted mem
          rcases add_eq_ok_iff.1 added with ⟨_, _, _, rfl⟩
          rw [Addition.name, Table.find?_insert_self] at free
          cases free
      next => exact ih registry

theorem find?_empty (service : String) : (empty : Registry A).services.find? service = none :=
  rfl

/-- The listed services are those of the accepted additions, each once. -/
theorem keys_snapshot_perm (additions : List (Addition A)) :
    (empty.addAll additions).snapshot.keys.Perm (empty.accepted additions) := by
  rw [snapshot, Table.keys_map]
  refine (List.perm_ext_iff_of_nodup (Table.keys_nodup _) (accepted_nodup _ additions)).2 ?_
  intro service
  have holds := find?_addAll_ne_none_iff empty additions service
  rw [Table.mem_keys_iff, ← Option.ne_none_iff_exists']
  simpa [find?_empty] using holds

/-- The methods of a listed service are listed in the order of their octets. -/
theorem WellFormed.snapshot_methods (wellFormed : registry.WellFormed) {service : String}
    {methods : List String} (listed : registry.snapshot.find? service = some methods) :
    methods ≠ [] ∧ methods.Pairwise fun a b => Utf8.encode a < Utf8.encode b := by
  rw [snapshot, Table.find?_map, Option.map_eq_some_iff] at listed
  rcases listed with ⟨table, found, rfl⟩
  constructor
  · have inhabited := wellFormed.inhabited service table found
    rw [← List.length_pos_iff]
    simpa [Table.keys, Table.size, Nat.pos_iff_ne_zero] using inhabited
  · exact table.keys_ascending.imp Utf8.encode_lt_encode

/-! ## Look-ups at any time -/

/-- A method found at one time is found at any later time. -/
theorem get_take_eq_ok (registry : Registry A) {additions : List (Addition A)} {j k : Nat}
    (order : j ≤ k) {name : String} {descriptor : Descriptor A}
    (found : (registry.addAll (additions.take j)).get name = .ok descriptor) :
    (registry.addAll (additions.take k)).get name = .ok descriptor :=
  (extends_take registry additions order).get_eq_ok found

/-- Methods found at any two times under the same name are the same. -/
theorem get_take_unique (registry : Registry A) {additions : List (Addition A)} {j k : Nat}
    {name : String} {descriptor descriptor' : Descriptor A}
    (found : (registry.addAll (additions.take j)).get name = .ok descriptor)
    (found' : (registry.addAll (additions.take k)).get name = .ok descriptor') :
    descriptor = descriptor' := by
  rcases Nat.le_total j k with order | order
  · exact Except.ok.inj ((get_take_eq_ok registry order found).symm.trans found')
  · exact Except.ok.inj (found.symm.trans (get_take_eq_ok registry order found'))

theorem same_iff {descriptor descriptor' : Descriptor A} :
    descriptor.same descriptor' = true ↔
      descriptor.service = descriptor'.service ∧ descriptor.name = descriptor'.name ∧
        descriptor.slot = descriptor'.slot := by
  simp [Descriptor.same, and_assoc]

/-- A name is found exactly if it is a listed service and a listed method around a dot,
which it then determines. -/
theorem WellFormed.exists_get_iff_existsUnique (wellFormed : registry.WellFormed)
    (name : String) :
    (∃ descriptor, registry.get name = .ok descriptor) ↔
      ∃! parts : String × String,
        registry.Lists parts.1 parts.2 ∧ name = parts.1 ++ "." ++ parts.2 := by
  constructor
  · rintro ⟨descriptor, found⟩
    have parts := wellFormed.exists_get_eq_ok_iff.1 ⟨descriptor, found, rfl, rfl⟩
    refine ⟨(descriptor.service, descriptor.name), parts, ?_⟩
    rintro ⟨service, method⟩ ⟨lists, same⟩
    have addresses := wellFormed.addresses lists
    rw [← same, parts.2] at addresses
    obtain ⟨rfl, rfl⟩ := addresses.unique (wellFormed.addresses parts.1)
    rfl
  · rintro ⟨parts, listed, _⟩
    rcases wellFormed.exists_get_eq_ok_iff.2 listed with ⟨descriptor, found, _⟩
    exact ⟨descriptor, found⟩

/-- Methods found at any two times are the same exactly if their names are. -/
theorem same_get_take_iff {additions : List (Addition A)} {j k : Nat} {name name' : String}
    {descriptor descriptor' : Descriptor A}
    (found : (empty.addAll (additions.take j)).get name = .ok descriptor)
    (found' : (empty.addAll (additions.take k)).get name' = .ok descriptor') :
    descriptor.same descriptor' = true ↔ name = name' := by
  have wellFormed (k : Nat) : (empty.addAll (additions.take k) : Registry A).WellFormed :=
    wellFormed_empty.addAll (additions.take k)
  constructor
  · intro same
    rcases same_iff.1 same with ⟨services, names, _⟩
    rw [(wellFormed j).name_eq found, (wellFormed k).name_eq found', services, names]
  · rintro rfl
    rw [get_take_unique empty found found']
    exact same_iff.2 ⟨rfl, rfl, rfl⟩

/-- Whatever services are added to an empty registry, and whichever of them are refused:
a name is found exactly if it is a listed service and a listed method around a dot, which
are then determined by the name and reported by the method, and otherwise it fails for
the first reason that applies.  The listed services are those that were accepted, none of
them twice, each with methods in the order of their octets.  What has been found at one
time is found at any later time, and what is found at any two times is the same method
exactly if the names are the same. -/
theorem history_laws (additions : List (Addition A)) :
    let registry : Registry A := empty.addAll additions
    let accepted := empty.accepted additions
    (∀ name,
      ((∃ descriptor, registry.get name = .ok descriptor) ↔
        ∃! parts : String × String,
          registry.Lists parts.1 parts.2 ∧ name = parts.1 ++ "." ++ parts.2) ∧
      (∀ descriptor, registry.get name = .ok descriptor →
        registry.Lists descriptor.service descriptor.name ∧
          name = descriptor.service ++ "." ++ descriptor.name) ∧
      (∀ failure, registry.get name = .error failure →
        failure = .illFormedMethod name ∨ failure = .serviceNotFound name ∨
          failure = .methodNotFound name) ∧
      (registry.get name = .error (.illFormedMethod name) ↔
        ¬ ∃ service method, Name.Addresses name service method) ∧
      (registry.get name = .error (.serviceNotFound name) ↔
        ∃ service method, Name.Addresses name service method ∧ service ∉ accepted) ∧
      (registry.get name = .error (.methodNotFound name) ↔
        ∃ service method, Name.Addresses name service method ∧ service ∈ accepted ∧
          ¬ registry.Lists service method)) ∧
    registry.snapshot.keys.Perm accepted ∧ accepted.Nodup ∧
    (∀ service methods, registry.snapshot.find? service = some methods →
      methods ≠ [] ∧ methods.Pairwise fun a b => Utf8.encode a < Utf8.encode b) ∧
    (∀ j k name descriptor, j ≤ k →
      (empty.addAll (additions.take j)).get name = .ok descriptor →
        (empty.addAll (additions.take k)).get name = .ok descriptor) ∧
    ∀ j k name name' descriptor descriptor',
      (empty.addAll (additions.take j)).get name = .ok descriptor →
      (empty.addAll (additions.take k)).get name' = .ok descriptor' →
        (descriptor.same descriptor' = true ↔ name = name') ∧
          (name = name' → descriptor = descriptor') := by
  intro registry accepted
  have wellFormed : registry.WellFormed := wellFormed_empty.addAll additions
  have there (service : String) :
      registry.services.find? service ≠ none ↔ service ∈ accepted := by
    have holds := find?_addAll_ne_none_iff empty additions service
    simpa [find?_empty] using holds
  have absent (service : String) :
      registry.services.find? service = none ↔ service ∉ accepted := by
    rw [← there, not_not]
  constructor
  · intro name
    refine ⟨wellFormed.exists_get_iff_existsUnique name, ?_, ?_, ?_, ?_, ?_⟩
    · intro descriptor found
      exact wellFormed.exists_get_eq_ok_iff.1 ⟨descriptor, found, rfl, rfl⟩
    · intro failure failed
      rcases get_eq_error_iff.1 failed with
        ⟨rfl, _⟩ | ⟨_, _, _, ⟨rfl, _⟩ | ⟨rfl, _⟩⟩
      · exact .inl rfl
      · exact .inr (.inl rfl)
      · exact .inr (.inr rfl)
    · simp [get_eq_error_iff]
    · simp [get_eq_error_iff, absent]
    · simp [get_eq_error_iff, there]
  refine ⟨keys_snapshot_perm additions, accepted_nodup empty additions, ?_, ?_, ?_⟩
  · intro service methods listed
    exact wellFormed.snapshot_methods listed
  · intro j k name descriptor order found
    exact get_take_eq_ok empty order found
  · intro j k name name' descriptor descriptor' found found'
    constructor
    · exact same_get_take_iff found found'
    · rintro rfl
      exact get_take_unique empty found found'

end Registry

end RemoteCall
