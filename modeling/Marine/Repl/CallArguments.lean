import Marine.Repl.JsonText

/-!
# The arguments of `call`

The REPL cuts a line at its white space, takes the words of a command one by one,
and joins the last words of a `call` with blanks before they are read as JSON.
What `serde_json` reads enters as `Deserializer`.
-/

namespace Marine.Repl

open Marine.Json (JValue)

/-! ## Call parameters -/

structure ParticleParameters where
  id : String
  initPeerId : String
  timestamp : UInt64
  ttl : UInt32
  script : String
  signature : List UInt8
  token : String
  deriving DecidableEq, Repr

structure CallParameters (SecurityTetraplet : Type) where
  particle : ParticleParameters
  serviceId : String
  serviceCreatorPeerId : String
  hostId : String
  workerId : String
  tetraplets : List (List SecurityTetraplet)
  deriving DecidableEq, Repr

structure PartialParticleParameters where
  id : String
  initPeerId : String
  timestamp : UInt64
  ttl : UInt32
  script : String
  signature : List UInt8
  token : String
  deriving DecidableEq, Repr

structure PartialCallParameters (SecurityTetraplet : Type) where
  particle : PartialParticleParameters
  serviceId : String
  serviceCreatorPeerId : String
  hostId : String
  workerId : String
  tetraplets : List (List SecurityTetraplet)
  deriving DecidableEq, Repr

variable {SecurityTetraplet : Type}

/-- `From<PartialCallParameters>`. -/
def CallParameters.ofPartial (p : PartialCallParameters SecurityTetraplet) :
    CallParameters SecurityTetraplet where
  particle := {
    id := p.particle.id
    initPeerId := p.particle.initPeerId
    timestamp := p.particle.timestamp
    ttl := p.particle.ttl
    script := p.particle.script
    signature := p.particle.signature
    token := p.particle.token }
  serviceId := p.serviceId
  serviceCreatorPeerId := p.serviceCreatorPeerId
  hostId := p.hostId
  workerId := p.workerId
  tetraplets := p.tetraplets

/-- `CallParameters::default`. -/
def CallParameters.default : CallParameters SecurityTetraplet where
  particle := ⟨"", "", 0, 0, "", [], ""⟩
  serviceId := ""
  serviceCreatorPeerId := ""
  hostId := ""
  workerId := ""
  tetraplets := []

/-! ## Reading -/

/-- `serde_json::Deserializer`: a document, and the text after it. -/
structure Deserializer (SecurityTetraplet : Type) where
  value : List Char → Except String (JValue × List Char)
  partialCallParameters :
    List Char → Except String (PartialCallParameters SecurityTetraplet × List Char)

/-- `Deserializer::end` passes the white space, whether the text ends there or not. -/
def passWhite (text : List Char) : List Char := text.dropWhile jsonWhite

def atEnd (text : List Char) : Bool := (passWhite text).isEmpty

/-- `serde_json::from_str`. -/
def Deserializer.fromStr (de : Deserializer SecurityTetraplet) (text : String) :
    Except String JValue := do
  let (value, rest) ← de.value text.toList
  if atEnd rest then .ok value else .error "trailing characters"

structure CallModuleArguments (SecurityTetraplet : Type) where
  moduleName : String
  funcName : String
  showResultArg : Bool
  args : JValue
  callParameters : CallParameters SecurityTetraplet

/-- The option `-nr` comes first or not at all. -/
def takeOption (args : List String) : Bool × List String :=
  if args.head? = some "-nr" then (false, args.tail) else (true, args)

/-- The call parameters, when there are any, and nothing after them. -/
def readCallParameters (de : Deserializer SecurityTetraplet) (rest : List Char) :
    Except String (CallParameters SecurityTetraplet) := do
  let (callParameters, rest) ←
    if atEnd rest then pure (.default, passWhite rest)
    else do
      let (callParameters, rest) ← (de.partialCallParameters (passWhite rest)).mapError
        fun e => "invalid call parameters: " ++ e
      pure (.ofPartial callParameters, rest)
  if atEnd rest then pure callParameters
  else .error "trailing characters after call parameters are not supported"

/-- The two documents of a `call`. -/
def readDocuments (de : Deserializer SecurityTetraplet) (moduleArg : String) :
    Except String (JValue × CallParameters SecurityTetraplet) := do
  let (args, rest) ← (de.value moduleArg.toList).mapError fun e => "invalid args: " ++ e
  let callParameters ← readCallParameters de rest
  pure (args, callParameters)

def parseCallModuleArguments (de : Deserializer SecurityTetraplet) :
    List String → Except String (CallModuleArguments SecurityTetraplet)
  | [] => .error "Module name should be specified"
  | [_] => .error "Function name should be specified"
  | moduleName :: funcName :: args => do
    let (showResultArg, args) := takeOption args
    let (args, callParameters) ← readDocuments de (" ".intercalate args)
    pure { moduleName, funcName, showResultArg, args, callParameters }

/-- A command of the REPL, with the words that are left for it. -/
inductive Command (SecurityTetraplet : Type)
  | newService (args : List String)
  | loadModule (args : List String)
  | unloadModule (args : List String)
  | callModule (args : Except String (CallModuleArguments SecurityTetraplet))
  | showEnvs (args : List String)
  | showFs (args : List String)
  | showInterface
  | showMemoryStats
  | quit
  | printHelp

def execute (de : Deserializer SecurityTetraplet) : List String → Command SecurityTetraplet
  | [] => .printHelp
  | command :: args =>
    if command = "n" ∨ command = "new" then .newService args
    else if command = "l" ∨ command = "load" then .loadModule args
    else if command = "u" ∨ command = "unload" then .unloadModule args
    else if command = "c" ∨ command = "call" then .callModule (parseCallModuleArguments de args)
    else if command = "e" ∨ command = "envs" then .showEnvs args
    else if command = "f" ∨ command = "fs" then .showFs args
    else if command = "i" ∨ command = "interface" then .showInterface
    else if command = "s" ∨ command = "stats" then .showMemoryStats
    else if command = "q" ∨ command = "quit" then .quit
    else .printHelp

end Marine.Repl
