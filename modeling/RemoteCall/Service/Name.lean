import RemoteCall.Text.Quoted

/-!
# Names of services and methods

A method is addressed as `Service.Method`: two parts, neither empty, around the
only dot.  A service that is registered without a name takes it from the type
of its receiver: the last part of the path, without parameters.
-/

namespace RemoteCall.Name

/-- Whether a name can be a part of `Service.Method`. -/
def isAddressable (name : String) : Bool :=
  name ≠ "" && !name.toList.contains '.'

/-- The service and the method that a name addresses. -/
def split? (name : String) : Option (String × String) :=
  match name.toList.span (· ≠ '.') with
  | (service, '.' :: method) =>
    if service ≠ [] ∧ method ≠ [] ∧ !method.contains '.' then
      some (String.ofList service, String.ofList method)
    else none
  | _ => none

/-- The part of a path after the last double colon, collected from its end:
`path` is reversed and what comes after it is `part`. -/
def lastPart (part : List Char) : (path : List Char) → List Char
  | [] => part
  | ':' :: ':' :: _ => part
  | c :: path => lastPart (c :: part) path

/-- The name of a type without its path and its parameters. -/
def ofType (typeName : String) : String :=
  String.ofList (lastPart [] (typeName.toList.takeWhile (· ≠ '<')).reverse)

end RemoteCall.Name
