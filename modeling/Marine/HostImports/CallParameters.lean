import Marine.Repl.CallArguments

/-!
# The parameters of a call

The host keeps the parameters of a call in the form of each version of its API
(`marine/src/host_imports/call_parameters.rs`): `views` is all of them, made from the
form of the third version.
-/

namespace Marine.HostImports

open Marine.Repl (ParticleParameters)

structure SecurityTetraplet where
  peerPk : String
  serviceId : String
  functionName : String
  lens : String
  deriving DecidableEq, Repr

/-- The third version. -/
abbrev CallParameters := Repl.CallParameters SecurityTetraplet

namespace V0

structure SecurityTetraplet where
  peerPk : String
  serviceId : String
  functionName : String
  jsonPath : String
  deriving DecidableEq, Repr

structure CallParameters where
  initPeerId : String
  serviceId : String
  serviceCreatorPeerId : String
  hostId : String
  particleId : String
  tetraplets : List (List SecurityTetraplet)
  deriving DecidableEq, Repr

end V0

namespace V1

structure SecurityTetraplet where
  peerPk : String
  serviceId : String
  functionName : String
  jsonPath : String
  deriving DecidableEq, Repr

structure CallParameters where
  initPeerId : String
  serviceId : String
  serviceCreatorPeerId : String
  hostId : String
  workerId : String
  particleId : String
  tetraplets : List (List SecurityTetraplet)
  deriving DecidableEq, Repr

end V1

namespace V2

structure SecurityTetraplet where
  peerPk : String
  serviceId : String
  functionName : String
  lambda : String
  deriving DecidableEq, Repr

structure ParticleParameters where
  id : String
  initPeerId : String
  signature : List UInt8
  timestamp : UInt64
  ttl : UInt32
  script : String
  token : String
  deriving DecidableEq, Repr

structure CallParameters where
  particle : ParticleParameters
  serviceId : String
  serviceCreatorPeerId : String
  hostId : String
  workerId : String
  tetraplets : List (List SecurityTetraplet)
  deriving DecidableEq, Repr

end V2

def toV0SdkTetraplet (t : SecurityTetraplet) : V0.SecurityTetraplet :=
  ⟨t.peerPk, t.serviceId, t.functionName, t.lens⟩

def toV1SdkTetraplet (t : SecurityTetraplet) : V1.SecurityTetraplet :=
  ⟨t.peerPk, t.serviceId, t.functionName, t.lens⟩

def toV2SdkTetraplet (t : SecurityTetraplet) : V2.SecurityTetraplet :=
  ⟨t.peerPk, t.serviceId, t.functionName, t.lens⟩

def callParametersV3ToV0 (p : CallParameters) : V0.CallParameters where
  initPeerId := p.particle.initPeerId
  serviceId := p.serviceId
  serviceCreatorPeerId := p.serviceCreatorPeerId
  hostId := p.hostId
  particleId := p.particle.id
  tetraplets := p.tetraplets.map (List.map toV0SdkTetraplet)

def callParametersV3ToV1 (p : CallParameters) : V1.CallParameters where
  initPeerId := p.particle.initPeerId
  serviceId := p.serviceId
  serviceCreatorPeerId := p.serviceCreatorPeerId
  hostId := p.hostId
  workerId := p.workerId
  particleId := p.particle.id
  tetraplets := p.tetraplets.map (List.map toV1SdkTetraplet)

def callParametersV3ToV2 (p : CallParameters) : V2.CallParameters where
  particle := {
    id := p.particle.id
    initPeerId := p.particle.initPeerId
    signature := p.particle.signature
    timestamp := p.particle.timestamp
    ttl := p.particle.ttl
    script := p.particle.script
    token := p.particle.token }
  serviceId := p.serviceId
  serviceCreatorPeerId := p.serviceCreatorPeerId
  hostId := p.hostId
  workerId := p.workerId
  tetraplets := p.tetraplets.map (List.map toV2SdkTetraplet)

/-- What the imports of the versions read. -/
structure CallParameterSlots where
  v0 : V0.CallParameters
  v1 : V1.CallParameters
  v2 : V2.CallParameters
  v3 : CallParameters

def CallParameterSlots.default : CallParameterSlots where
  v0 := ⟨"", "", "", "", "", []⟩
  v1 := ⟨"", "", "", "", "", "", []⟩
  v2 := ⟨⟨"", "", [], 0, 0, "", ""⟩, "", "", "", "", []⟩
  v3 := .default

/-- All forms of the parameters. -/
def views (p : CallParameters) : CallParameterSlots :=
  ⟨callParametersV3ToV0 p, callParametersV3ToV1 p, callParametersV3ToV2 p, p⟩

theorem views_default : views .default = .default := rfl

end Marine.HostImports
