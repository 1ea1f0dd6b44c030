import RemoteCall.Server.Basic

/-!
# Building a server

A builder gathers settings and registrations.  The last limit that it is given
holds from the start; the registrations are made in order, and the first that
fails is the outcome.
-/

namespace RemoteCall

/-- A server in the making. -/
structure Builder (A : Application) where
  config : Config := {}
  /-- The registrations, in order. -/
  steps : List (Registration A) := []

namespace Builder

variable {A : Application}

/-- Adds a registration. -/
def register (builder : Builder A) (what : Registration A) : Builder A :=
  { builder with steps := builder.steps ++ [what] }

/-- Sets the length of the longest body that is accepted. -/
def maxBodySize (builder : Builder A) (limit : Nat) : Builder A :=
  { builder with config := { builder.config with maxBodySize := limit } }

/-- The server with everything registered. -/
def build (builder : Builder A) : Except RpcError (Server A) :=
  builder.steps.foldlM Server.register (.withConfig builder.config)

end Builder

end RemoteCall
