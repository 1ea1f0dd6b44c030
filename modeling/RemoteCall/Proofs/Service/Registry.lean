import RemoteCall.Proofs.Service.Name
import RemoteCall.Service.Registry

/-!
# Well-formed registries

In a well-formed registry every service and every method is stored under a name
that can be a part of `Service.Method`, which is also the name that the method
itself reports, and all methods of a service are bound to one receiver.  Adding
a service keeps a registry well-formed (`WellFormed.add`), so the methods that
can be found are exactly those that are listed (`WellFormed.exists_get_eq_ok_iff`).
-/

namespace RemoteCall.Registry

variable {A : Application} {registry after : Registry A}

/-! ## The methods of a service -/

/-- Methods of the service of that name: each is stored under its own name and bound to
the receiver. -/
def Bound (service : String) (receiver : A.Receiver) (methods : Table (Descriptor A)) : Prop :=
  ∀ name descriptor, methods.find? name = some descriptor →
    Name.isAddressable name = true ∧ descriptor.service = service ∧ descriptor.name = name ∧
      descriptor.receiver = receiver

/-- A candidate that is kept is bound, and one that is not changes nothing. -/
theorem Bound.bind {service : String} {receiver : A.Receiver} {methods : Table (Descriptor A)}
    (bound : Bound service receiver methods) (slot : Nat) (candidates : List (Candidate A)) :
    Bound service receiver (bind service receiver slot candidates methods) := by
  induction candidates generalizing slot methods with
  | nil => exact bound
  | cons candidate rest ih =>
      rw [Registry.bind]
      apply ih
      split
      next kept =>
          intro name descriptor found
          rw [Table.find?_insert] at found
          split at found
          next same =>
              obtain rfl := Option.some.inj found
              have addressable : Name.isAddressable candidate.name = true := by
                simp only [Bool.and_eq_true] at kept
                exact kept.1.1
              exact ⟨same ▸ addressable, rfl, same.symm, rfl⟩
          next => exact bound name descriptor found
      next => exact bound

theorem methodsOf_bound (name : String) (service : Service A) :
    Bound name service.receiver (methodsOf name service) := by
  apply Bound.bind
  intro method descriptor found
  cases found

/-! ## Adding a service -/

/-- A service is added exactly if its name can be addressed and is free, and a method is left. -/
theorem add_eq_ok_iff {service : Service A} {explicit : Option String} :
    registry.add service explicit = .ok after ↔
      Name.isAddressable (resolveName service explicit) = true ∧
      (methodsOf (resolveName service explicit) service).size ≠ 0 ∧
      registry.services.find? (resolveName service explicit) = none ∧
      after = ⟨registry.services.insert (resolveName service explicit)
        (methodsOf (resolveName service explicit) service)⟩ := by
  rw [Name.isAddressable_iff, add]
  generalize resolveName service explicit = name
  by_cases unnamed : name = ""
  · simp [unnamed]
  by_cases dotted : '.' ∈ name.toList
  · simp [unnamed, dotted]
  by_cases bare : (methodsOf name service).size = 0
  · simp [unnamed, dotted, bare]
  cases taken : registry.services.find? name with
  | some methods => simp [unnamed, dotted, bare, Table.contains, taken]
  | none => simp [unnamed, dotted, bare, Table.contains, taken, eq_comm]

/-- What a registry holds: services and methods under names that can be addressed. -/
structure WellFormed (registry : Registry A) : Prop where
  addressable : ∀ service methods, registry.services.find? service = some methods →
    Name.isAddressable service = true
  inhabited : ∀ service methods, registry.services.find? service = some methods →
    methods.size ≠ 0
  bound : ∀ service methods, registry.services.find? service = some methods →
    ∃ receiver, Bound service receiver methods

theorem wellFormed_empty : (empty : Registry A).WellFormed := by
  constructor
  all_goals
    intro service methods found
    cases found

/-- Adding a service keeps a registry well-formed. -/
theorem WellFormed.add (wellFormed : registry.WellFormed) {service : Service A}
    {explicit : Option String} (added : registry.add service explicit = .ok after) :
    after.WellFormed := by
  rcases add_eq_ok_iff.1 added with ⟨addressable, inhabited, _, rfl⟩
  have everywhere {P : String → Table (Descriptor A) → Prop}
      (new : P (resolveName service explicit) (methodsOf (resolveName service explicit) service))
      (old : ∀ name methods, registry.services.find? name = some methods → P name methods) :
      ∀ name methods, (registry.services.insert (resolveName service explicit)
        (methodsOf (resolveName service explicit) service)).find? name = some methods →
          P name methods := by
    intro name methods found
    rw [Table.find?_insert] at found
    split at found
    next same =>
        obtain rfl := Option.some.inj found
        exact same ▸ new
    next => exact old name methods found
  constructor
  · exact everywhere addressable wellFormed.addressable
  · exact everywhere inhabited wellFormed.inhabited
  · exact everywhere ⟨_, methodsOf_bound _ service⟩ wellFormed.bound

/-! ## Look-ups -/

/-- Whether a registry lists a method under a service. -/
def Lists (registry : Registry A) (service method : String) : Prop :=
  ∃ methods, registry.snapshot.find? service = some methods ∧ method ∈ methods

theorem lists_iff {service method : String} :
    registry.Lists service method ↔
      ∃ methods descriptor, registry.services.find? service = some methods ∧
        methods.find? method = some descriptor := by
  simp only [Lists, snapshot, Table.find?_map, Option.map_eq_some_iff]
  constructor
  · rintro ⟨_, ⟨methods, found, rfl⟩, mem⟩
    rcases Table.mem_keys_iff.1 mem with ⟨descriptor, listed⟩
    exact ⟨methods, descriptor, found, listed⟩
  · rintro ⟨methods, descriptor, found, listed⟩
    exact ⟨methods.keys, ⟨methods, found, rfl⟩, Table.mem_keys_iff.2 ⟨descriptor, listed⟩⟩

theorem get_eq_ok_iff {name : String} {descriptor : Descriptor A} :
    registry.get name = .ok descriptor ↔
      ∃ service method methods, Name.Addresses name service method ∧
        registry.services.find? service = some methods ∧
        methods.find? method = some descriptor := by
  rw [get]
  cases split : Name.split? name with
  | none =>
      have unaddressed := Name.split?_eq_none_iff.1 split
      simp only [reduceCtorEq, false_iff]
      rintro ⟨service, method, _, addresses, _⟩
      exact unaddressed ⟨service, method, addresses⟩
  | some parts =>
      rcases parts with ⟨service, method⟩
      have addresses := Name.addresses_of_split? split
      constructor
      · intro found
        cases services : registry.services.find? service with
        | none => simp [services] at found
        | some methods =>
            cases listed : methods.find? method with
            | none => simp [services, listed] at found
            | some descriptor' =>
                obtain rfl : descriptor' = descriptor := by simpa [services, listed] using found
                exact ⟨service, method, methods, addresses, services, listed⟩
      · rintro ⟨service', method', methods, addresses', services, listed⟩
        obtain ⟨rfl, rfl⟩ := addresses.unique addresses'
        simp [services, listed]

/-- A look-up fails for one of three reasons, which exclude each other. -/
theorem get_eq_error_iff {name : String} {failure : RpcError} :
    registry.get name = .error failure ↔
      (failure = .illFormedMethod name ∧ ¬ ∃ service method, Name.Addresses name service method) ∨
      (∃ service method, Name.Addresses name service method ∧
        ((failure = .serviceNotFound name ∧ registry.services.find? service = none) ∨
          (failure = .methodNotFound name ∧ registry.services.find? service ≠ none ∧
            ¬ registry.Lists service method))) := by
  rw [get]
  cases split : Name.split? name with
  | none =>
      have unaddressed := Name.split?_eq_none_iff.1 split
      constructor
      · intro failed
        exact .inl ⟨(Except.error.inj failed).symm, unaddressed⟩
      · rintro (⟨rfl, _⟩ | ⟨service, method, addresses, _⟩)
        · rfl
        · exact absurd ⟨service, method, addresses⟩ unaddressed
  | some parts =>
      rcases parts with ⟨service, method⟩
      have addresses := Name.addresses_of_split? split
      simp only [lists_iff]
      constructor
      · intro failed
        refine .inr ⟨service, method, addresses, ?_⟩
        cases services : registry.services.find? service with
        | none =>
            simp only [services] at failed
            exact .inl ⟨(Except.error.inj failed).symm, rfl⟩
        | some methods =>
            cases listed : methods.find? method with
            | none =>
                simp only [services, listed] at failed
                exact .inr ⟨(Except.error.inj failed).symm, by simp, by simp [listed]⟩
            | some descriptor => simp [services, listed] at failed
      · rintro (⟨_, unaddressed⟩ | ⟨service', method', addresses', failed⟩)
        · exact absurd ⟨service, method, addresses⟩ unaddressed
        · obtain ⟨rfl, rfl⟩ := addresses.unique addresses'
          rcases failed with ⟨rfl, absent⟩ | ⟨rfl, present, unlisted⟩
          · simp [absent]
          · cases services : registry.services.find? service with
            | none => exact absurd services present
            | some methods =>
                cases listed : methods.find? method with
                | none => simp [listed]
                | some descriptor => exact absurd ⟨methods, descriptor, services, listed⟩ unlisted

section

variable (wellFormed : registry.WellFormed)

include wellFormed

/-- What is listed can be addressed. -/
theorem WellFormed.addresses {service method : String} (lists : registry.Lists service method) :
    Name.Addresses (service ++ "." ++ method) service method := by
  rcases lists_iff.1 lists with ⟨methods, descriptor, services, listed⟩
  rcases wellFormed.bound service methods services with ⟨receiver, bound⟩
  have ofService := Name.isAddressable_iff.1 (wellFormed.addressable service methods services)
  have ofMethod := Name.isAddressable_iff.1 (bound method descriptor listed).1
  exact ⟨rfl, ofService.1, ofService.2, ofMethod.1, ofMethod.2⟩

/-- A method is found under a name exactly if it is listed under the parts of the name,
which are those that it reports. -/
theorem WellFormed.exists_get_eq_ok_iff {name service method : String} :
    (∃ descriptor, registry.get name = .ok descriptor ∧ descriptor.service = service ∧
        descriptor.name = method) ↔
      registry.Lists service method ∧ name = service ++ "." ++ method := by
  constructor
  · rintro ⟨descriptor, found, rfl, rfl⟩
    rcases get_eq_ok_iff.1 found with ⟨service, method, methods, addresses, services, listed⟩
    rcases wellFormed.bound service methods services with ⟨receiver, bound⟩
    rcases bound method descriptor listed with ⟨_, rfl, rfl, _⟩
    exact ⟨lists_iff.2 ⟨methods, descriptor, services, listed⟩, addresses.name_eq⟩
  · rintro ⟨lists, rfl⟩
    rcases lists_iff.1 lists with ⟨methods, descriptor, services, listed⟩
    rcases wellFormed.bound service methods services with ⟨receiver, bound⟩
    rcases bound method descriptor listed with ⟨_, reportsService, reportsName, _⟩
    have found := get_eq_ok_iff.2
      ⟨service, method, methods, wellFormed.addresses lists, services, listed⟩
    exact ⟨descriptor, found, reportsService, reportsName⟩

/-- A method that is found reports the parts of the name. -/
theorem WellFormed.name_eq {name : String} {descriptor : Descriptor A}
    (found : registry.get name = .ok descriptor) :
    name = descriptor.service ++ "." ++ descriptor.name :=
  (wellFormed.exists_get_eq_ok_iff.1 ⟨descriptor, found, rfl, rfl⟩).2

/-- A method that is found is stored under the names that it reports. -/
theorem WellFormed.exists_find?_eq_some {name : String} {descriptor : Descriptor A}
    (found : registry.get name = .ok descriptor) :
    ∃ methods, registry.services.find? descriptor.service = some methods ∧
      methods.find? descriptor.name = some descriptor := by
  rcases get_eq_ok_iff.1 found with ⟨service, method, methods, _, services, listed⟩
  rcases wellFormed.bound service methods services with ⟨receiver, bound⟩
  rcases bound method descriptor listed with ⟨_, rfl, rfl, _⟩
  exact ⟨methods, services, listed⟩

/-- Methods found under the same service have been bound to the same receiver. -/
theorem WellFormed.receiver_eq {name name' : String} {descriptor descriptor' : Descriptor A}
    (found : registry.get name = .ok descriptor) (found' : registry.get name' = .ok descriptor')
    (sameService : descriptor.service = descriptor'.service) :
    descriptor.receiver = descriptor'.receiver := by
  rcases wellFormed.exists_find?_eq_some found with ⟨methods, services, listed⟩
  rcases wellFormed.exists_find?_eq_some found' with ⟨methods', services', listed'⟩
  rw [← sameService, services] at services'
  obtain rfl := Option.some.inj services'
  rcases wellFormed.bound _ _ services with ⟨receiver, bound⟩
  rw [(bound _ _ listed).2.2.2, (bound _ _ listed').2.2.2]

end

/-! ## Extension -/

/-- Whether a registry holds all services of another one, with the same methods. -/
def Extends (after registry : Registry A) : Prop :=
  ∀ service methods, registry.services.find? service = some methods →
    after.services.find? service = some methods

theorem Extends.refl (registry : Registry A) : registry.Extends registry :=
  fun _ _ found => found

theorem Extends.trans {last : Registry A} (later : last.Extends after)
    (earlier : after.Extends registry) : last.Extends registry :=
  fun service methods found => later service methods (earlier service methods found)

/-- Adding a service leaves those that are there. -/
theorem extends_of_add {service : Service A} {explicit : Option String}
    (added : registry.add service explicit = .ok after) : after.Extends registry := by
  rcases add_eq_ok_iff.1 added with ⟨_, _, free, rfl⟩
  intro name methods found
  have different : name ≠ resolveName service explicit := by
    rintro rfl
    rw [free] at found
    cases found
  rw [Table.find?_insert, if_neg different]
  exact found

/-- What has been found is found again. -/
theorem Extends.get_eq_ok (extension : after.Extends registry) {name : String}
    {descriptor : Descriptor A} (found : registry.get name = .ok descriptor) :
    after.get name = .ok descriptor := by
  rcases get_eq_ok_iff.1 found with ⟨service, method, methods, addresses, services, listed⟩
  exact get_eq_ok_iff.2
    ⟨service, method, methods, addresses, extension service methods services, listed⟩

end RemoteCall.Registry
