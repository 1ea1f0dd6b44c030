import RemoteCall.Proofs.Text.Cut
import RemoteCall.Service.Name

/-!
# Names that address a method

`Addresses` says without any splitting what a name of the form `Service.Method`
is: two parts that are neither empty nor contain a dot, around a dot.  The parts
are determined by the name, and they are what `Name.split?` finds.
-/

namespace RemoteCall.Name

/-- A name consists of two non-empty parts without dots around a dot. -/
structure Addresses (name service method : String) : Prop where
  name_eq : name = service ++ "." ++ method
  service_ne : service ≠ ""
  service_dotless : '.' ∉ service.toList
  method_ne : method ≠ ""
  method_dotless : '.' ∉ method.toList

theorem toList_ne_nil {text : String} : text.toList ≠ [] ↔ text ≠ "" := by
  rw [ne_eq, ne_eq, String.toList_eq_nil_iff]

theorem isAddressable_iff {name : String} :
    isAddressable name = true ↔ name ≠ "" ∧ '.' ∉ name.toList := by
  simp [isAddressable]

/-- Splitting finds the two parts. -/
theorem Addresses.split?_eq {name service method : String}
    (addresses : Addresses name service method) : split? name = some (service, method) := by
  have chars : name.toList = service.toList ++ '.' :: method.toList := by
    simp [addresses.name_eq]
  have parts : service.toList ≠ [] ∧ method.toList ≠ [] ∧ !method.toList.contains '.' := by
    refine ⟨toList_ne_nil.2 addresses.service_ne, toList_ne_nil.2 addresses.method_ne, ?_⟩
    simpa using addresses.method_dotless
  rw [split?, chars, Text.span_ne_append_cons addresses.service_dotless]
  simp only [if_pos parts, String.ofList_toList]

/-- What splitting finds are the two parts. -/
theorem addresses_of_split? {name service method : String}
    (found : split? name = some (service, method)) : Addresses name service method := by
  rw [split?, List.span_eq_takeWhile_dropWhile] at found
  split at found
  next front back spanned =>
    split at found
    next parts =>
      rcases parts with ⟨frontNe, backNe, backDotless⟩
      obtain ⟨rfl, rfl⟩ : String.ofList front = service ∧ String.ofList back = method := by
        simpa using found
      have frontEq := (Prod.mk.inj spanned).1
      have restEq := (Prod.mk.inj spanned).2
      constructor
      · rw [← String.toList_inj]
        calc name.toList
            = name.toList.takeWhile (· ≠ '.') ++ name.toList.dropWhile (· ≠ '.') :=
              List.takeWhile_append_dropWhile.symm
          _ = front ++ '.' :: back := by rw [frontEq, restEq]
          _ = (String.ofList front ++ "." ++ String.ofList back).toList := by simp
      · rw [← toList_ne_nil, String.toList_ofList]
        exact frontNe
      · rw [String.toList_ofList, ← frontEq]
        intro mem
        simpa using List.mem_takeWhile_imp mem
      · rw [← toList_ne_nil, String.toList_ofList]
        exact backNe
      · simpa using backDotless
    next => cases found
  next => cases found

theorem split?_eq_none_iff {name : String} :
    split? name = none ↔ ¬ ∃ service method, Addresses name service method := by
  constructor
  · rintro absent ⟨service, method, addresses⟩
    rw [addresses.split?_eq] at absent
    cases absent
  · intro unaddressed
    cases found : split? name with
    | none => rfl
    | some parts => exact absurd ⟨parts.1, parts.2, addresses_of_split? found⟩ unaddressed

/-- The part in front of a dot addresses the service, if no dot comes before. -/
theorem Addresses.parts_eq {service method service' method' : String}
    (addresses : Addresses (service ++ "." ++ method) service' method')
    (dotless : '.' ∉ service.toList) : service' = service ∧ method' = method := by
  have chars : service.toList ++ '.' :: method.toList
      = service'.toList ++ '.' :: method'.toList := by
    simpa using congrArg String.toList addresses.name_eq
  have parts := (Text.span_ne_append_cons dotless method.toList).symm.trans
    ((congrArg (List.span (· ≠ '.')) chars).trans
      (Text.span_ne_append_cons addresses.service_dotless method'.toList))
  rw [Prod.mk.injEq, List.cons.injEq, String.toList_inj, String.toList_inj] at parts
  exact ⟨parts.1.symm, parts.2.2.symm⟩

/-- A name has no other two parts. -/
theorem Addresses.unique {name service method service' method' : String}
    (addresses : Addresses name service method) (addresses' : Addresses name service' method') :
    service = service' ∧ method = method' := by
  have same := addresses.split?_eq.symm.trans addresses'.split?_eq
  exact Prod.mk.inj (Option.some.inj same)

end RemoteCall.Name
