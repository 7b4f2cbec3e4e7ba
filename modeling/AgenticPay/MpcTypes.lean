import AgenticPay.ShamirShares

/-!
# Threshold signing: data, signatures and fault tolerance

Keys, signing sessions and the shares of the key-management backend. Hex texts are the bytes that
they stand for. A share that is kept remembers which split it comes from, which no function reads.
-/
namespace Mpc

open Shamir

abbrev Bytes := List Byte
abbrev NodeId := String
abbrev KeyId := String
abbrev SessionId := String

inductive NodeStatus where
  | active | degraded | offline | revoked
  deriving DecidableEq, Repr

def NodeStatus.text : NodeStatus → String
  | .active => "active"
  | .degraded => "degraded"
  | .offline => "offline"
  | .revoked => "revoked"

structure MpcNode where
  status : NodeStatus
  identityPublicKey : Bytes
  deriving DecidableEq

inductive KeyStatus where
  | active | rotating | revoked
  deriving DecidableEq, Repr

def KeyStatus.text : KeyStatus → String
  | .active => "active"
  | .rotating => "rotating"
  | .revoked => "revoked"

structure ManagedKey where
  publicKey : Bytes
  threshold : Nat
  nodes : List NodeId
  status : KeyStatus
  version : Nat
  deriving DecidableEq

inductive SessionStatus where
  | pending | ready | signed | rejected | expired
  deriving DecidableEq, Repr

def SessionStatus.text : SessionStatus → String
  | .pending => "pending"
  | .ready => "ready"
  | .signed => "signed"
  | .rejected => "rejected"
  | .expired => "expired"

/-- An approval, with the identity key that it has been checked with. -/
structure Contribution where
  nodeId : NodeId
  approvalSignature : Bytes
  identityPublicKey : Bytes
  deriving DecidableEq

structure SigningSession where
  keyId : KeyId
  payload : Bytes
  expiresAt : Int
  status : SessionStatus
  quorum : List NodeId
  contributions : List Contribution
  signature : Option Bytes
  failureReason : Option String
  deriving DecidableEq

/-- The split that a share comes from. -/
structure Origin where
  secret : Bytes
  threshold : Nat
  random : Nat → Fin (threshold - 1) → Byte

structure Held where
  share : Share
  origin : Origin
  isShare : IsShare origin.secret origin.random share

/-! ## Ed25519 -/

/-- What comes with the platform. -/
structure Primitives where
  ed25519PublicKey : Bytes → Bytes
  ed25519Sign : Bytes → Bytes → Bytes
  ed25519Verify : Bytes → Bytes → Bytes → Bool
  sha256 : Bytes → Bytes

variable (p : Primitives)

def assertSeed (seed : Bytes) : Except String Unit :=
  if seed.length ≠ 32 then .error "seed must be exactly 32 bytes" else .ok ()

def publicKeyFromSeed (seed : Bytes) : Except String Bytes := do
  assertSeed seed
  return p.ed25519PublicKey seed

def sign (seed message : Bytes) : Except String Bytes := do
  assertSeed seed
  return p.ed25519Sign seed message

def verify (publicKey message signature : Bytes) : Except String Bool :=
  if signature.length ≠ 64 then .ok false
  else if publicKey.length ≠ 32 then .error "public key must be 32 bytes"
  else .ok (p.ed25519Verify publicKey message signature)

/-! ## Byzantine fault tolerance -/

structure ByzantineEnvelope where
  threshold : Nat
  nodeCount : Nat
  faultTolerance : Nat
  deriving DecidableEq

def assertByzantineCompatible (threshold nodeCount : Nat) : Except String ByzantineEnvelope :=
  if threshold < 2 then .error "threshold must be at least 2 (M-of-N where M >= 2)"
  else if nodeCount < threshold then .error "node count must be >= threshold"
  else
    let maxFromNodes := (nodeCount - 1) / 3
    let maxFromThreshold := (threshold - 1) / 2
    let faultTolerance := max 0 (min maxFromNodes maxFromThreshold)
    if nodeCount < 3 ∧ threshold ≠ nodeCount then .ok ⟨threshold, nodeCount, 0⟩
    else .ok ⟨threshold, nodeCount, faultTolerance⟩

def utf8 (text : String) : Bytes := text.toUTF8.data.toList.map (·.toBitVec)

def messageDigest (sessionId : SessionId) (payload : Bytes) : Bytes :=
  p.sha256 (utf8 sessionId ++ [0] ++ payload)

/-- The first signature of each node for each session. -/
abbrev EquivocationTracker := SessionId → NodeId → Option Bytes

inductive EquivocationResult where
  | ok (tracker : EquivocationTracker)
  | badSignature
  | equivocation

def recordApproval (tracker : EquivocationTracker) (sessionId : SessionId) (nodeId : NodeId)
    (nodeIdentityPublicKey payloadDigest signature : Bytes) :
    Except String EquivocationResult := do
  let valid ← verify p nodeIdentityPublicKey payloadDigest signature
  if valid = false then return .badSignature
  else if ∃ prior ∈ tracker sessionId nodeId, prior ≠ signature then return .equivocation
  else return .ok (Function.update tracker sessionId
    (Function.update (tracker sessionId) nodeId (some signature)))

def isExpired (expiresAt now : Int) : Bool := decide (expiresAt ≤ now)

end Mpc
