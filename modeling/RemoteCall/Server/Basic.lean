import RemoteCall.Server.Hook

/-!
# Servers

A server holds what has been registered with it and the present states of the
receivers.  A registration that fails leaves no trace: it yields an error and no
server.
-/

namespace RemoteCall

/-- The settings of a server. -/
structure Config where
  /-- The length of the longest body that is accepted: 4 MiB unless said otherwise. -/
  maxBodySize : Nat := 4 * 1024 * 1024
  deriving DecidableEq, Repr

/-- A server for an application. -/
structure Server (A : Application) where
  config : Config
  /-- The codecs, by content type in lower case. -/
  codecs : Table Codec
  registry : Registry A
  /-- The hooks of each phase, in order of registration. -/
  before : List (Hook A)
  after : List (Hook A)
  /-- The receivers, by service, as far as they have changed. -/
  receivers : Table A.Receiver

namespace Server

variable {A : Application}

/-- A server with nothing registered. -/
def withConfig (config : Config) : Server A :=
  ⟨config, .empty, .empty, [], [], .empty⟩

/-- A server with the default settings and nothing registered. -/
def new : Server A :=
  withConfig {}

/-! ## Registering -/

/-- Registers a codec, in place of one for the same content type. -/
def registerCodec (server : Server A) (contentType : String) (codec : Codec) : Server A :=
  { server with codecs := server.codecs.insert (lowerAscii contentType) codec }

/-- Registers a service. -/
def registerService (server : Server A) (service : Service A) (name : Option String) :
    Except RpcError (Server A) :=
  (server.registry.add service name).map fun registry => { server with registry }

/-- The hooks of a phase. -/
def hooks (server : Server A) : Phase → List (Hook A)
  | .before => server.before
  | .after => server.after

/-- Registers a hook behind those of its phase.  The types are declared by name, and it is the
names that are compared: a name is the identity of a type and the text that it is printed as. -/
def registerHook (server : Server A) (phase : Phase) (requestType contextType : String)
    (hook : Hook A) : Except RpcError (Server A) :=
  if requestType ≠ A.requestType then
    .error (.malformedHook "request" A.requestType requestType)
  else if contextType ≠ A.contextType then
    .error (.malformedHook "context" A.contextType contextType)
  else
    match phase with
    | .before => .ok { server with before := server.before ++ [hook] }
    | .after => .ok { server with after := server.after ++ [hook] }

/-- Registers anything. -/
def register (server : Server A) : Registration A → Except RpcError (Server A)
  | .codec contentType codec => .ok (server.registerCodec contentType codec)
  | .service service name => server.registerService service name
  | .hook phase requestType contextType run =>
    server.registerHook phase requestType contextType run

/-! ## Looking up -/

/-- Whether a method is registered. -/
def hasMethod (server : Server A) (method : String) : Bool :=
  match server.registry.get method with
  | .ok _ => true
  | .error _ => false

/-- The names of the services, each with the names of its methods. -/
def serviceMap (server : Server A) : Table (List String) :=
  server.registry.snapshot

/-- The present state of the receiver of a method. -/
def receiverOf (server : Server A) (descriptor : Descriptor A) : A.Receiver :=
  (server.receivers.find? descriptor.service).getD descriptor.receiver

/-- Texts in brackets. -/
def bracketed (texts : List String) : String :=
  "[" ++ ", ".intercalate (texts.map Text.quoted) ++ "]"

/-- The server in words. -/
def describe (server : Server A) : String :=
  let services := server.serviceMap.entries.map fun entry =>
    Text.quoted entry.1 ++ ": " ++ bracketed entry.2
  "Server \x7b config: ServerConfig \x7b max_body_size: " ++ Nat.repr server.config.maxBodySize
    ++ " \x7d, codecs: " ++ bracketed server.codecs.keys
    ++ ", services: \x7b" ++ ", ".intercalate services ++ "\x7d"
    ++ ", before_hooks: " ++ Nat.repr server.before.length
    ++ ", after_hooks: " ++ Nat.repr server.after.length ++ " \x7d"

end Server

end RemoteCall
