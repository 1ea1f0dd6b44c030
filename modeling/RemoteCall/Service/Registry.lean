import RemoteCall.Service.Method
import RemoteCall.Service.Name
import RemoteCall.Table

/-!
# The registry of services

A service offers candidates for methods.  When it is added, those that can be
addressed and are written for the context type of the application are kept, the
first of each name, and bound to the receiver of the service.  Services are
never removed or replaced, so a method that has been found stays the same.
-/

namespace RemoteCall

/-- A method as a service offers it. -/
structure Candidate (A : Application) where
  name : String
  /-- The name of the context type that the method is written for; it is that type's identity,
  and is compared with the name of the application's. -/
  contextType : String
  method : Method A

/-- A receiver with its methods, not yet registered. -/
structure Service (A : Application) where
  /-- The name of the receiver's type. -/
  typeName : String
  /-- The name of the service, if it is not that of the type. -/
  ownName : Option String
  receiver : A.Receiver
  candidates : List (Candidate A)

/-- The name under which a service is registered if no other is given. -/
def Service.defaultName {A : Application} (service : Service A) : String :=
  service.ownName.getD (Name.ofType service.typeName)

/-- A registered method. -/
structure Descriptor (A : Application) where
  service : String
  name : String
  /-- The place of the method among the candidates of its service. -/
  slot : Nat
  /-- The receiver as it was registered. -/
  receiver : A.Receiver
  method : Method A

namespace Descriptor

variable {A : Application}

/-- Whether two descriptors are of the same registered method. -/
def same (a b : Descriptor A) : Bool :=
  a.service == b.service && a.name == b.name && a.slot == b.slot

/-- The descriptor in words. -/
def describe (d : Descriptor A) : String :=
  "MethodDescriptor \x7b service: " ++ Text.quoted d.service ++ ", name: " ++ Text.quoted d.name
    ++ ", args_type: " ++ Text.quoted d.method.argsType
    ++ ", reply_type: " ++ Text.quoted d.method.replyType ++ ", .. \x7d"

end Descriptor

/-- The registered services, each with its methods. -/
structure Registry (A : Application) where
  services : Table (Table (Descriptor A))

namespace Registry

variable {A : Application}

/-- A registry without services. -/
def empty : Registry A :=
  ⟨.empty⟩

/-- The name under which a service is registered. -/
def resolveName (service : Service A) : Option String → String
  | some name => if name = "" then service.defaultName else name
  | none => service.defaultName

/-- The methods so far and those that the candidates from the given place on add to them. -/
def bind (name : String) (receiver : A.Receiver) :
    (slot : Nat) → List (Candidate A) → Table (Descriptor A) → Table (Descriptor A)
  | _, [], methods => methods
  | slot, candidate :: rest, methods =>
    let methods :=
      if Name.isAddressable candidate.name && !methods.contains candidate.name
          && candidate.contextType == A.contextType then
        methods.insert candidate.name ⟨name, candidate.name, slot, receiver, candidate.method⟩
      else methods
    bind name receiver (slot + 1) rest methods

/-- The methods of a service that is registered under a name. -/
def methodsOf (name : String) (service : Service A) : Table (Descriptor A) :=
  bind name service.receiver 0 service.candidates .empty

/-- Adds a service under the given name, or its default name if there is none or it is empty. -/
def add (registry : Registry A) (service : Service A) (explicit : Option String) :
    Except RpcError (Registry A) :=
  let name := resolveName service explicit
  let methods := methodsOf name service
  if name = "" then .error (.noServiceName service.typeName)
  else if name.toList.contains '.' then .error (.invalidServiceName name)
  else if methods.size = 0 then .error (.noSuitableMethods name)
  else if registry.services.contains name then .error (.duplicateService name)
  else .ok ⟨registry.services.insert name methods⟩

/-- The method that `Service.Method` addresses. -/
def get (registry : Registry A) (method : String) : Except RpcError (Descriptor A) :=
  match Name.split? method with
  | none => .error (.illFormedMethod method)
  | some (service, name) =>
    match registry.services.find? service with
    | none => .error (.serviceNotFound method)
    | some methods =>
      match methods.find? name with
      | none => .error (.methodNotFound method)
      | some descriptor => .ok descriptor

/-- The names of the services, each with the names of its methods, both ascending. -/
def snapshot (registry : Registry A) : Table (List String) :=
  registry.services.map Table.keys

end Registry

end RemoteCall
