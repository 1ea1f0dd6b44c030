import RemoteCall.Proofs.Service.Adding

/-!
# Services named after types

The name of a type is a path of identifiers with double colons between them and, in
brackets behind it, parameters of any text (`NominalType`).  A service that is named after
the type of its receiver gets what two cuts leave of that name: the first in front of the
first bracket, the second behind the last double colon of what is left then.

Parameters may hold brackets and colons of their own, but none of these stands in front of
the bracket that opens them, so the first cut leaves the path (`takeWhile_text`).
Identifiers hold neither, so the second cut leaves the last of them (`lastPart_path`), and
such a service is never refused for its name.  If the name of the type begins with a
bracket, nothing is left, and the service is refused for that.
-/

namespace RemoteCall

namespace Name

/-! ## Names of types -/

/-- A part of the path to a type.  It holds no mark at which the name of the type is cut and
none at which `Service.Method` is. -/
structure Identifier where
  text : String
  ne_empty : text ≠ "" := by decide
  bracketless : '<' ∉ text.toList := by decide
  colonless : ':' ∉ text.toList := by decide
  dotless : '.' ∉ text.toList := by decide

/-- The identifiers that lead to a type, the outermost first. -/
inductive Path where
  | single (identifier : Identifier)
  | within (outer : Identifier) (inner : Path)

namespace Path

/-- The identifiers with double colons between them. -/
def text : Path → String
  | single identifier => identifier.text
  | within outer inner => outer.text ++ "::" ++ inner.text

/-- The identifier of the type itself. -/
def last : Path → Identifier
  | single identifier => identifier
  | within _ inner => inner.last

end Path

/-- A type that has a path.  Its parameters may be any texts. -/
structure NominalType where
  path : Path
  parameters : List String

namespace NominalType

/-- Parameters in brackets, if there are any. -/
def bracketed : (parameters : List String) → String
  | [] => ""
  | first :: rest => "<" ++ ", ".intercalate (first :: rest) ++ ">"

/-- The name of the type in full. -/
def text (nominal : NominalType) : String :=
  nominal.path.text ++ bracketed nominal.parameters

end NominalType

/-! ## The part behind the last double colon -/

theorem lastPart_cons_of_ne {c : Char} (other : c ≠ ':') (part path : List Char) :
    lastPart part (c :: path) = lastPart (c :: part) path := by
  rw [lastPart]
  rintro _ rfl
  exact absurd rfl other

/-- Up to the first colon from the end, everything goes to the part. -/
theorem lastPart_append {back : List Char} (colonless : ':' ∉ back) (part path : List Char) :
    lastPart part (back ++ path) = lastPart (back.reverse ++ part) path := by
  induction back generalizing part with
  | nil => rfl
  | cons c back ih =>
      rw [List.mem_cons, not_or] at colonless
      rw [List.cons_append, lastPart_cons_of_ne (Ne.symm colonless.1), ih colonless.2]
      simp

/-- A path without colons is a single part. -/
theorem lastPart_of_colonless {part : List Char} (colonless : ':' ∉ part) :
    lastPart [] part.reverse = part := by
  have collected := lastPart_append (mt List.mem_reverse.1 colonless) [] []
  simpa [lastPart] using collected

/-- A part without colons is the last one, whatever stands in front of its double colon. -/
theorem lastPart_of_behind {part : List Char} (colonless : ':' ∉ part) (front : List Char) :
    lastPart [] (front ++ ':' :: ':' :: part).reverse = part := by
  have collected :=
    lastPart_append (mt List.mem_reverse.1 colonless) [] (':' :: ':' :: front.reverse)
  simpa [lastPart] using collected

/-! ## Both cuts -/

theorem Path.bracketless (path : Path) : '<' ∉ path.text.toList := by
  induction path with
  | single identifier => exact identifier.bracketless
  | within outer inner ih => simp [text, outer.bracketless, ih]

/-- Nothing stands in front of the last identifier, or something that ends in a double colon. -/
theorem Path.text_eq_or_exists (path : Path) :
    path.text = path.last.text ∨ ∃ front, path.text = front ++ "::" ++ path.last.text := by
  induction path with
  | single identifier => exact .inl rfl
  | within outer inner ih =>
      right
      rcases ih with alone | ⟨front, behind⟩
      · exact ⟨outer.text, by rw [text, last, alone]⟩
      · refine ⟨outer.text ++ "::" ++ front, ?_⟩
        rw [text, last, behind]
        simp only [String.append_assoc]

/-- The first cut leaves the path. -/
theorem takeWhile_text (nominal : NominalType) :
    nominal.text.toList.takeWhile (· ≠ '<') = nominal.path.text.toList := by
  rcases nominal with ⟨path, _ | ⟨first, rest⟩⟩
  · rw [NominalType.text, NominalType.bracketed, String.append_empty,
      Text.takeWhile_ne_of_not_mem path.bracketless]
  · have chars : (NominalType.text ⟨path, first :: rest⟩).toList
        = path.text.toList ++ '<' :: (", ".intercalate (first :: rest) ++ ">").toList := by
      simp [NominalType.text, NominalType.bracketed]
    rw [chars, Text.takeWhile_ne_append_cons path.bracketless]

/-- The second cut leaves the last identifier. -/
theorem lastPart_path (path : Path) :
    lastPart [] path.text.toList.reverse = path.last.text.toList := by
  rcases path.text_eq_or_exists with alone | ⟨front, behind⟩
  · rw [alone, lastPart_of_colonless path.last.colonless]
  · have chars : path.text.toList = front.toList ++ ':' :: ':' :: path.last.text.toList := by
      simp [behind]
    rw [chars, lastPart_of_behind path.last.colonless]

theorem ofType_text (nominal : NominalType) : ofType nominal.text = nominal.path.last.text := by
  rw [ofType, takeWhile_text, lastPart_path, String.ofList_toList]

theorem ofType_bracket_append (rest : String) : ofType ("<" ++ rest) = "" := by
  simp [ofType, lastPart]

theorem Identifier.isAddressable (identifier : Identifier) :
    Name.isAddressable identifier.text = true :=
  isAddressable_iff.2 ⟨identifier.ne_empty, identifier.dotless⟩

end Name

/-! ## Services without a name -/

namespace Registry

variable {A : Application} {registry : Registry A} {service : Service A}
  {explicit : Option String}

/-- Whether a service that is added under this explicit name, or none, takes the name of its
type. -/
structure NamedAfterType (service : Service A) (explicit : Option String) : Prop where
  /-- The receiver has no name of its own. -/
  inherits : service.ownName = none
  /-- An empty name is as good as none. -/
  unnamed : explicit = none ∨ explicit = some ""

theorem NamedAfterType.resolveName_eq (named : NamedAfterType service explicit) :
    resolveName service explicit = Name.ofType service.typeName := by
  rcases named with ⟨inherits, rfl | rfl⟩
  · simp [resolveName, Service.defaultName, inherits]
  · simp [resolveName, Service.defaultName, inherits]

/-- A service is not refused for a name that it can be addressed by. -/
theorem Decision.ne_of_isAddressable {name : String} {result : Except RpcError (Registry A)}
    (decision : Decision registry service name result)
    (addressable : Name.isAddressable name = true) (text : String) :
    result ≠ .error (.noServiceName text) ∧ result ≠ .error (.invalidServiceName text) := by
  rcases Name.isAddressable_iff.1 addressable with ⟨named, dotless⟩
  cases decision with
  | noServiceName unnamed => exact absurd unnamed named
  | invalidServiceName dotted => exact absurd dotted dotless
  | noSuitableMethods => simp
  | duplicateService => simp
  | added => simp

/-- A service without a name is refused, whatever else there is against it. -/
theorem Decision.eq_of_unnamed {result : Except RpcError (Registry A)}
    (decision : Decision registry service "" result) :
    result = .error (.noServiceName service.typeName) := by
  have unaddressable : Name.isAddressable "" ≠ true := by simp [Name.isAddressable]
  cases decision with
  | noServiceName => rfl
  | invalidServiceName dotted => simp at dotted
  | noSuitableMethods addressable => exact absurd addressable unaddressable
  | duplicateService addressable => exact absurd addressable unaddressable
  | added addressable => exact absurd addressable unaddressable

/-- A type with a path is called by the last identifier of the path, whatever its parameters
are.  A service that is named after such a type goes by that name.  It can be addressed, so
that only the candidates of the service and the services that are there decide whether it
is added.  A type whose name begins with a bracket is called nothing, and a service cannot be
named after it. -/
theorem named_after_type (A : Application) :
    (∀ nominal : Name.NominalType,
      Name.ofType nominal.text = nominal.path.last.text ∧
      ∀ (registry : Registry A) (service : Service A) (explicit : Option String),
        service.typeName = nominal.text → NamedAfterType service explicit →
          resolveName service explicit = nominal.path.last.text ∧
          resolveName service explicit ≠ "" ∧ '.' ∉ (resolveName service explicit).toList ∧
          (∀ text, registry.add service explicit ≠ .error (.noServiceName text) ∧
            registry.add service explicit ≠ .error (.invalidServiceName text)) ∧
          Decision registry service nominal.path.last.text (registry.add service explicit)) ∧
    ∀ rest : String,
      Name.ofType ("<" ++ rest) = "" ∧
      ∀ (registry : Registry A) (service : Service A) (explicit : Option String),
        service.typeName = "<" ++ rest → NamedAfterType service explicit →
          registry.add service explicit = .error (.noServiceName ("<" ++ rest)) := by
  constructor
  · intro nominal
    refine ⟨Name.ofType_text nominal, ?_⟩
    intro registry service explicit typed named
    have resolves : resolveName service explicit = nominal.path.last.text := by
      rw [named.resolveName_eq, typed, Name.ofType_text]
    have decided := decision_add registry service explicit
    rw [resolves] at decided ⊢
    exact ⟨rfl, nominal.path.last.ne_empty, nominal.path.last.dotless,
      decided.ne_of_isAddressable nominal.path.last.isAddressable, decided⟩
  · intro rest
    refine ⟨Name.ofType_bracket_append rest, ?_⟩
    intro registry service explicit typed named
    have decided := decision_add registry service explicit
    rw [named.resolveName_eq, typed, Name.ofType_bracket_append] at decided
    rw [decided.eq_of_unnamed, typed]

/-- A type whose parameters hold brackets, colons and commas of their own, and one whose name
begins with a bracket but ends like a path. -/
theorem named_after_type_nested :
    let A : Application := ⟨Nat, "Nat", 0, "Request", Nat⟩
    let say : Method A :=
      ⟨Value, Value, "Value", "Value", .ok, .null,
        fun calls context argument _ => ⟨calls + 1, context, [], .ok argument⟩, .value⟩
    let nested : Service A :=
      ⟨"app::api::Wrap<app::Wrap<(u8, app::Echo)>, u8>", none, (0 : Nat), [⟨"Say", "Nat", say⟩]⟩
    let hidden : Service A :=
      ⟨"<app::Echo as app::Hidden>::go::Local", none, (0 : Nat), [⟨"Say", "Nat", say⟩]⟩
    NamedAfterType nested none ∧ NamedAfterType hidden (some "") ∧
      resolveName nested none = "Wrap" ∧
      (∃ after, empty.add nested none = .ok after ∧ after.Lists "Wrap" "Say") ∧
      empty.add hidden (some "") = .error (.noServiceName hidden.typeName) := by
  intro A say nested hidden
  let nominal : Name.NominalType :=
    { path := .within { text := "app" } (.within { text := "api" } (.single { text := "Wrap" }))
      parameters := ["app::Wrap<(u8, app::Echo)>", "u8"] }
  have afterNested : NamedAfterType nested none := ⟨rfl, .inl rfl⟩
  have afterHidden : NamedAfterType hidden (some "") := ⟨rfl, .inr rfl⟩
  have ⟨ofPath, ofBracket⟩ := named_after_type A
  have ⟨resolves, _, _, _, decided⟩ :=
    (ofPath nominal).2 empty nested none (by decide) afterNested
  have refused := (ofBracket "app::Echo as app::Hidden>::go::Local").2 empty hidden (some "")
    (by decide) afterHidden
  have suitable : ∃ candidate ∈ nested.candidates, candidate.name = "Say" ∧ Suitable candidate :=
    ⟨_, List.mem_singleton_self _, rfl, by decide, rfl⟩
  have ⟨after, added, adds⟩ := decided.added_of_suitable nominal.path.last.isAddressable
    (suitable.imp fun _ found => ⟨found.1, found.2.2⟩) rfl
  exact ⟨afterNested, afterHidden, resolves, ⟨after, added, (adds.lists "Say").2 suitable⟩, refused⟩

end Registry

end RemoteCall
