import RemoteCall.Proofs.Service.Registry

/-!
# What an addition comes to

Whether a service is added is decided by its name, its candidates and the services that
are there, in this order (`Decision`).  The candidates are gone through once, and each is
held against the methods that have been kept so far, not against the candidates in front
of it.  This still leaves the first suitable candidate of every name (`Leads`), since only
a suitable one is ever in the way of another.
-/

namespace RemoteCall.Registry

variable {A : Application}

/-! ## Suitable candidates -/

/-- Whether a candidate can be a method of the application. -/
def Suitable (candidate : Candidate A) : Prop :=
  Name.isAddressable candidate.name = true ∧ candidate.contextType = A.contextType

/-- Whether this candidate, in this place, is the first suitable one of that name. -/
structure Leads (candidates : List (Candidate A)) (name : String) (place : Nat)
    (candidate : Candidate A) : Prop where
  at_place : candidates[place]? = some candidate
  named : candidate.name = name
  suitable : Suitable candidate
  first : ∀ (earlier : Nat) (other : Candidate A), earlier < place →
    candidates[earlier]? = some other → other.name = name → ¬ Suitable other

theorem not_leads_nil {name : String} {place : Nat} {candidate : Candidate A} :
    ¬ Leads [] name place candidate := by
  intro leads
  cases leads.at_place

/-- A suitable candidate hides those of its name that follow. -/
theorem leads_cons_iff_of_suitable {name : String} {first : Candidate A}
    (named : first.name = name) (suitable : Suitable first) {rest : List (Candidate A)}
    {place : Nat} {candidate : Candidate A} :
    Leads (first :: rest) name place candidate ↔ place = 0 ∧ candidate = first := by
  constructor
  · intro leads
    cases place with
    | zero => exact ⟨rfl, (Option.some.inj leads.at_place).symm⟩
    | succ place =>
        exact absurd suitable (leads.first 0 first place.succ_pos rfl named)
  · rintro ⟨rfl, rfl⟩
    constructor
    · rfl
    · exact named
    · exact suitable
    · intro earlier other before
      exact absurd before (Nat.not_lt_zero earlier)

/-- A candidate that is not suitable, or of another name, is not in the way of any other. -/
theorem leads_cons_iff_of_not {name : String} {first : Candidate A}
    (passed : first.name = name → ¬ Suitable first) {rest : List (Candidate A)}
    {place : Nat} {candidate : Candidate A} :
    Leads (first :: rest) name place candidate ↔
      ∃ later, place = later + 1 ∧ Leads rest name later candidate := by
  constructor
  · rintro ⟨found, named, suitable, leading⟩
    cases place with
    | zero =>
        obtain rfl := Option.some.inj found
        exact absurd suitable (passed named)
    | succ later =>
        refine ⟨later, rfl, found, named, suitable, ?_⟩
        intro earlier other before
        exact leading (earlier + 1) other (Nat.succ_lt_succ before)
  · rintro ⟨later, rfl, found, named, suitable, leading⟩
    refine ⟨found, named, suitable, ?_⟩
    intro earlier other before there otherNamed
    cases earlier with
    | zero =>
        obtain rfl := Option.some.inj there
        exact passed otherNamed
    | succ earlier =>
        exact leading earlier other (Nat.lt_of_succ_lt_succ before) there otherNamed

theorem exists_leads_cons_iff_of_not {name : String} {first : Candidate A}
    (passed : first.name = name → ¬ Suitable first) {rest : List (Candidate A)}
    {candidate : Candidate A} :
    (∃ place, Leads (first :: rest) name place candidate) ↔
      ∃ place, Leads rest name place candidate := by
  simp only [leads_cons_iff_of_not passed]
  constructor
  · rintro ⟨_, later, rfl, leads⟩
    exact ⟨later, leads⟩
  · rintro ⟨later, leads⟩
    exact ⟨later + 1, later, rfl, leads⟩

theorem exists_leads_iff {candidates : List (Candidate A)} {name : String} :
    (∃ place candidate, Leads candidates name place candidate) ↔
      ∃ candidate ∈ candidates, candidate.name = name ∧ Suitable candidate := by
  induction candidates with
  | nil => simp [not_leads_nil]
  | cons first rest ih =>
      by_cases leading : first.name = name ∧ Suitable first
      · simp [leads_cons_iff_of_suitable leading.1 leading.2, leading]
      · have passed : first.name = name → ¬ Suitable first := not_and.1 leading
        rw [exists_comm] at ih ⊢
        simp only [exists_leads_cons_iff_of_not passed, ih, List.mem_cons, or_and_right, exists_or,
          exists_eq_left, leading, false_or]

/-- A candidate that is not suitable, or not the first suitable one of its name, might as well
not be there. -/
theorem exists_leads_skip_iff {name : String} {earlier later : List (Candidate A)}
    {skipped : Candidate A}
    (hidden : skipped.name = name → Suitable skipped →
      ∃ other ∈ earlier, other.name = name ∧ Suitable other) {candidate : Candidate A} :
    (∃ place, Leads (earlier ++ skipped :: later) name place candidate) ↔
      ∃ place, Leads (earlier ++ later) name place candidate := by
  induction earlier with
  | nil =>
      have passed : skipped.name = name → ¬ Suitable skipped := by
        intro named suitable
        rcases hidden named suitable with ⟨other, mem, -⟩
        cases mem
      exact exists_leads_cons_iff_of_not passed
  | cons first rest ih =>
      rw [List.cons_append, List.cons_append]
      by_cases leading : first.name = name ∧ Suitable first
      · simp only [leads_cons_iff_of_suitable leading.1 leading.2]
      · have passed : first.name = name → ¬ Suitable first := not_and.1 leading
        rw [exists_leads_cons_iff_of_not passed, exists_leads_cons_iff_of_not passed]
        apply ih
        intro named suitable
        rcases hidden named suitable with ⟨other, mem, otherLeading⟩
        rcases List.mem_cons.1 mem with rfl | mem
        · exact absurd otherLeading leading
        · exact ⟨other, mem, otherLeading⟩

/-! ## The methods of a service -/

/-- A method that has been kept stays, and of every other name the first suitable candidate
is kept. -/
theorem find?_bind_eq_some_iff (service : String) (receiver : A.Receiver) (slot : Nat)
    (candidates : List (Candidate A)) (methods : Table (Descriptor A)) {name : String}
    {descriptor : Descriptor A} :
    (bind service receiver slot candidates methods).find? name = some descriptor ↔
      methods.find? name = some descriptor ∨
      (methods.find? name = none ∧ ∃ place candidate, Leads candidates name place candidate ∧
        descriptor = ⟨service, name, slot + place, receiver, candidate.method⟩) := by
  -- The candidates behind the first are held against what has been kept by then, so the
  -- statement is about any methods to begin with.
  induction candidates generalizing slot methods with
  | nil => simp [bind, not_leads_nil]
  | cons first rest ih =>
      have further (passed : first.name = name → ¬ Suitable first) :
          (∃ place candidate, Leads (first :: rest) name place candidate ∧
            descriptor = ⟨service, name, slot + place, receiver, candidate.method⟩) ↔
          ∃ place candidate, Leads rest name place candidate ∧
            descriptor = ⟨service, name, slot + 1 + place, receiver, candidate.method⟩ := by
        simp only [leads_cons_iff_of_not passed, Nat.add_right_comm slot 1]
        constructor
        · rintro ⟨_, candidate, ⟨later, rfl, leads⟩, rfl⟩
          exact ⟨later, candidate, leads, rfl⟩
        · rintro ⟨later, candidate, leads, rfl⟩
          exact ⟨later + 1, candidate, ⟨later, rfl, leads⟩, rfl⟩
      rw [bind, ih]
      split
      next kept =>
          simp only [Bool.and_eq_true, Bool.not_eq_true', beq_iff_eq, Table.contains,
            Option.isSome_eq_false_iff, Option.isNone_iff_eq_none] at kept
          have suitable : Suitable first := ⟨kept.1.1, kept.2⟩
          rw [Table.find?_insert]
          by_cases named : name = first.name
          · subst named
            simp [leads_cons_iff_of_suitable rfl suitable, kept.1.2, eq_comm]
          · rw [if_neg named, further fun same => absurd same.symm named]
      next passed =>
          -- Passed over, it is of another name, not suitable, or behind one that has been kept.
          by_cases there : methods.find? name = none
          · have unsuitable : first.name = name → ¬ Suitable first := by
              rintro rfl suitable
              simp [suitable.1, suitable.2, Table.contains, there] at passed
            rw [further unsuitable]
          · simp [there]

/-- The methods of a service are the candidates that come first. -/
theorem find?_methodsOf_eq_some_iff {service : Service A} {name method : String}
    {descriptor : Descriptor A} :
    (methodsOf name service).find? method = some descriptor ↔
      ∃ place candidate, Leads service.candidates method place candidate ∧
        descriptor = ⟨name, method, place, service.receiver, candidate.method⟩ := by
  simp [methodsOf, find?_bind_eq_some_iff]

/-- A service has no methods exactly if none of its candidates is suitable. -/
theorem size_methodsOf_eq_zero_iff (name : String) (service : Service A) :
    (methodsOf name service).size = 0 ↔
      ∀ candidate ∈ service.candidates, ¬ Suitable candidate := by
  rw [Table.size_eq_zero_iff]
  constructor
  · intro none candidate mem suitable
    rcases exists_leads_iff.2 ⟨candidate, mem, rfl, suitable⟩ with ⟨place, leading, leads⟩
    have found : (methodsOf name service).find? candidate.name = some _ :=
      find?_methodsOf_eq_some_iff.2 ⟨place, leading, leads, rfl⟩
    rw [none candidate.name] at found
    cases found
  · intro unsuitable method
    rw [Option.eq_none_iff_forall_ne_some]
    intro descriptor found
    rcases find?_methodsOf_eq_some_iff.1 found with ⟨place, candidate, leads, -⟩
    exact unsuitable candidate (List.mem_of_getElem? leads.at_place) leads.suitable

/-! ## Decisions -/

/-- `Resolves service explicit name`: this is the name that the service gets. -/
inductive Resolves (service : Service A) : Option String → String → Prop where
  | given {name : String} : name ≠ "" → Resolves service (some name) name
  | empty : Resolves service (some "") service.defaultName
  | absent : Resolves service none service.defaultName

theorem resolves_resolveName (service : Service A) (explicit : Option String) :
    Resolves service explicit (resolveName service explicit) := by
  cases explicit with
  | none => exact .absent
  | some name =>
      by_cases unnamed : name = ""
      · subst unnamed
        exact .empty
      · rw [resolveName, if_neg unnamed]
        exact .given unnamed

/-- What a registry holds once a service has been added to another one under a name. -/
structure Adds (registry : Registry A) (service : Service A) (name : String)
    (after : Registry A) : Prop where
  /-- The service has the methods that suitable candidates are named for. -/
  lists : ∀ method, after.Lists name method ↔
    ∃ candidate ∈ service.candidates, candidate.name = method ∧ Suitable candidate
  /-- Each of the methods is the first suitable candidate of its name. -/
  binds : ∀ method descriptor, after.get (name ++ "." ++ method) = .ok descriptor ↔
    ∃ place candidate, Leads service.candidates method place candidate ∧
      descriptor = ⟨name, method, place, service.receiver, candidate.method⟩
  others : ∀ other, other ≠ name → after.services.find? other = registry.services.find? other

/-- `Decision registry service name result`: the result of adding the service under the name. -/
inductive Decision (registry : Registry A) (service : Service A) (name : String) :
    Except RpcError (Registry A) → Prop where
  | noServiceName : name = "" →
      Decision registry service name (.error (.noServiceName service.typeName))
  | invalidServiceName : '.' ∈ name.toList →
      Decision registry service name (.error (.invalidServiceName name))
  | noSuitableMethods : Name.isAddressable name = true →
      (∀ candidate ∈ service.candidates, ¬ Suitable candidate) →
      Decision registry service name (.error (.noSuitableMethods name))
  | duplicateService : Name.isAddressable name = true →
      (∃ candidate ∈ service.candidates, Suitable candidate) →
      registry.services.find? name ≠ none →
      Decision registry service name (.error (.duplicateService name))
  | added {after : Registry A} : Name.isAddressable name = true →
      (∃ candidate ∈ service.candidates, Suitable candidate) →
      registry.services.find? name = none → Adds registry service name after →
      Decision registry service name (.ok after)

/-- Whether two registries find the same methods under the names that one service addresses. -/
def AgreeOn (service : String) (left right : Registry A) : Prop :=
  ∀ method body,
    (∃ descriptor, left.get (service ++ "." ++ method) = .ok descriptor ∧
      descriptor.method = body) ↔
    ∃ descriptor, right.get (service ++ "." ++ method) = .ok descriptor ∧
      descriptor.method = body

theorem Adds.exists_get_iff {registry after : Registry A} {service : Service A} {name : String}
    (adds : Adds registry service name after) {method : String} {body : Method A} :
    (∃ descriptor, after.get (name ++ "." ++ method) = .ok descriptor ∧ descriptor.method = body) ↔
      ∃ candidate, (∃ place, Leads service.candidates method place candidate) ∧
        candidate.method = body := by
  simp only [adds.binds]
  constructor
  · rintro ⟨_, ⟨place, candidate, leads, rfl⟩, same⟩
    exact ⟨candidate, ⟨place, leads⟩, same⟩
  · rintro ⟨candidate, ⟨place, leads⟩, same⟩
    exact ⟨_, ⟨place, candidate, leads, rfl⟩, same⟩

/-- A look-up by the parts of a name. -/
theorem get_parts_eq_ok_iff {registry : Registry A} {service method : String}
    (addressable : Name.isAddressable service = true) {descriptor : Descriptor A} :
    registry.get (service ++ "." ++ method) = .ok descriptor ↔
      Name.isAddressable method = true ∧
      ∃ methods, registry.services.find? service = some methods ∧
        methods.find? method = some descriptor := by
  rw [get_eq_ok_iff]
  rcases Name.isAddressable_iff.1 addressable with ⟨named, dotless⟩
  constructor
  · rintro ⟨service', method', methods, addresses, services, listed⟩
    obtain ⟨rfl, rfl⟩ := addresses.parts_eq dotless
    exact ⟨Name.isAddressable_iff.2 ⟨addresses.method_ne, addresses.method_dotless⟩,
      methods, services, listed⟩
  · rintro ⟨ofMethod, methods, services, listed⟩
    rcases Name.isAddressable_iff.1 ofMethod with ⟨methodNamed, methodDotless⟩
    exact ⟨service, method, methods, ⟨rfl, named, dotless, methodNamed, methodDotless⟩,
      services, listed⟩

theorem adds_insert (registry : Registry A) (service : Service A) {name : String}
    (addressable : Name.isAddressable name = true) :
    Adds registry service name ⟨registry.services.insert name (methodsOf name service)⟩ := by
  constructor
  · intro method
    simp only [lists_iff, Table.find?_insert_self, ← exists_leads_iff]
    constructor
    · rintro ⟨_, descriptor, same, found⟩
      obtain rfl := Option.some.inj same
      rcases find?_methodsOf_eq_some_iff.1 found with ⟨place, candidate, leads, -⟩
      exact ⟨place, candidate, leads⟩
    · rintro ⟨place, candidate, leads⟩
      exact ⟨_, _, rfl, find?_methodsOf_eq_some_iff.2 ⟨place, candidate, leads, rfl⟩⟩
  · intro method descriptor
    rw [get_parts_eq_ok_iff addressable, ← find?_methodsOf_eq_some_iff, Table.find?_insert_self]
    constructor
    · rintro ⟨-, _, same, found⟩
      obtain rfl := Option.some.inj same
      exact found
    · intro found
      exact ⟨(methodsOf_bound name service method descriptor found).1, _, rfl, found⟩
  · intro other different
    rw [Table.find?_insert, if_neg different]

/-- Adding a service comes to the decision on its name. -/
theorem decision_add (registry : Registry A) (service : Service A) (explicit : Option String) :
    Decision registry service (resolveName service explicit) (registry.add service explicit) := by
  cases result : registry.add service explicit with
  | ok after =>
      rcases add_eq_ok_iff.1 result with ⟨addressable, inhabited, free, rfl⟩
      rw [ne_eq, size_methodsOf_eq_zero_iff] at inhabited
      push Not at inhabited
      exact .added addressable inhabited free (adds_insert registry service addressable)
  | error failure =>
      rw [add] at result
      split at result
      next unnamed =>
          obtain rfl := Except.error.inj result
          exact .noServiceName unnamed
      next named =>
        split at result
        next dotted =>
            obtain rfl := Except.error.inj result
            exact .invalidServiceName (by simpa using dotted)
        next dotless =>
          have addressable : Name.isAddressable (resolveName service explicit) = true :=
            Name.isAddressable_iff.2 ⟨named, by simpa using dotless⟩
          split at result
          next bare =>
              obtain rfl := Except.error.inj result
              exact .noSuitableMethods addressable ((size_methodsOf_eq_zero_iff _ service).1 bare)
          next inhabited =>
            rw [size_methodsOf_eq_zero_iff] at inhabited
            push Not at inhabited
            split at result
            next taken =>
                obtain rfl := Except.error.inj result
                apply Decision.duplicateService addressable inhabited
                simpa [Table.contains, Option.isSome_iff_ne_none] using taken
            next => cases result

theorem Decision.added_of_suitable {registry : Registry A} {service : Service A} {name : String}
    {result : Except RpcError (Registry A)} (decision : Decision registry service name result)
    (addressable : Name.isAddressable name = true)
    (suitable : ∃ candidate ∈ service.candidates, Suitable candidate)
    (free : registry.services.find? name = none) :
    ∃ after, result = .ok after ∧ Adds registry service name after := by
  rcases Name.isAddressable_iff.1 addressable with ⟨named, dotless⟩
  cases decision with
  | noServiceName unnamed => exact absurd unnamed named
  | invalidServiceName dotted => exact absurd dotted dotless
  | noSuitableMethods _ unsuitable =>
      rcases suitable with ⟨candidate, mem, suitable⟩
      exact absurd suitable (unsuitable candidate mem)
  | duplicateService _ _ taken => exact absurd free taken
  | @added after _ _ _ adds => exact ⟨after, rfl, adds⟩

/-- A candidate that is skipped makes no difference to the methods of a service. -/
theorem skipped_candidate {registry after : Registry A} {service : Service A}
    {explicit : Option String} (added : registry.add service explicit = .ok after)
    {earlier later : List (Candidate A)} {skipped : Candidate A}
    (declared : service.candidates = earlier ++ skipped :: later)
    (hidden : Suitable skipped → ∃ other ∈ earlier, other.name = skipped.name ∧ Suitable other) :
    ∃ without, registry.add { service with candidates := earlier ++ later } explicit = .ok without ∧
      AgreeOn (resolveName service explicit) after without := by
  have decided := decision_add registry service explicit
  rw [added] at decided
  rcases decided with _ | _ | _ | _ | ⟨addressable, ⟨candidate, mem, suitable⟩, free, adds⟩
  have remains : ∃ candidate ∈ earlier ++ later, Suitable candidate := by
    rw [declared, List.mem_append, List.mem_cons] at mem
    rcases mem with mem | rfl | mem
    · exact ⟨candidate, List.mem_append_left later mem, suitable⟩
    · rcases hidden suitable with ⟨other, before, -, otherSuitable⟩
      exact ⟨other, List.mem_append_left later before, otherSuitable⟩
    · exact ⟨candidate, List.mem_append_right earlier mem, suitable⟩
  let fewer : Service A := { service with candidates := earlier ++ later }
  rcases (decision_add registry fewer explicit).added_of_suitable addressable remains free with
    ⟨without, addedToo, addsToo⟩
  use without, addedToo
  intro method body
  have leading (candidate : Candidate A) :
      (∃ place, Leads service.candidates method place candidate) ↔
        ∃ place, Leads fewer.candidates method place candidate := by
    rw [declared]
    apply exists_leads_skip_iff
    rintro rfl
    exact hidden
  rw [adds.exists_get_iff]
  simp only [leading]
  exact addsToo.exists_get_iff.symm

/-- A service gets the name that is given or its default name, and what adding it comes to is
decided by this name.  A candidate that is not suitable, or comes behind a suitable one of its
name, might as well not be declared. -/
theorem add_decides (registry : Registry A) (service : Service A) (explicit : Option String) :
    ∃ name, Resolves service explicit name ∧
      Decision registry service name (registry.add service explicit) ∧
      ∀ after, registry.add service explicit = .ok after →
        ∀ earlier skipped later, service.candidates = earlier ++ skipped :: later →
          (Suitable skipped → ∃ other ∈ earlier, other.name = skipped.name ∧ Suitable other) →
          ∃ without,
            registry.add { service with candidates := earlier ++ later } explicit = .ok without ∧
            AgreeOn name after without :=
  ⟨resolveName service explicit, resolves_resolveName service explicit,
    decision_add registry service explicit,
    fun _ added _ _ _ declared hidden => skipped_candidate added declared hidden⟩

end RemoteCall.Registry
