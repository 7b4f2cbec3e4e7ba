import AgenticPay.Evm
import AgenticPay.ExternalCalls

/-!
# The forwarder of meta-transactions on the EVM

A relayer has a signed meta-transaction executed; its target is any other code, and may call the
forwarder back. The meta-transactions that have been executed are kept beside the storage.
-/
namespace EvmGsnForwarder

open Evm Body ExternalCalls

universe u

structure MetaTransaction where
  fromAddress : Address
  toAddress : Address
  value : Nat
  gas : Nat
  nonce : Nat
  deadline : Nat
  data : List UInt8
  deriving DecidableEq

inductive Event where
  | metaTxExecuted (fromAddress toAddress : Address) (nonce : Nat) (success : Bool) (gasUsed : Nat)
  | relayerUpdated (relayer : Address) (authorized : Bool)
  deriving DecidableEq

inductive Error where
  | unauthorized
  | deadlinePassed
  | invalidSignature
  | nonceAlreadyUsed
  deriving DecidableEq, Repr

structure State where
  nonces : Address → Nat
  authorizedRelayers : Address → Bool
  owner : Address
  executions : List MetaTransaction
  events : List Event

/-- What `execute` does when the target has returned or reverted. -/
inductive Rest where
  | executed (req : MetaTransaction)
  deriving DecidableEq

/-- How the call of the target has ended. -/
structure Outcome where
  success : Bool
  gasUsed : Nat
  deriving DecidableEq

/-- `_hashTypedData` and `ecrecover`. -/
structure Primitives (δ : Type u) where
  hashTypedData : MetaTransaction → δ
  ecrecover : δ → Signature → Address

variable {δ : Type u}

abbrev Fn (α : Type) := Body State Error α

/-- The constructor. -/
def deploy (sender : Address) : State :=
  { nonces := fun _ => 0, authorizedRelayers := fun _ => false, owner := sender, executions := [],
    events := [] }

def emit (e : Event) : Fn Unit := write fun s => { s with events := s.events ++ [e] }

def onlyOwner : Fn Unit := do
  let msg ← message
  let owner ← read (·.owner)
  revertIf (msg.sender ≠ owner) .unauthorized

def onlyRelayer : Fn Unit := do
  let msg ← message
  let relayer ← read (·.authorizedRelayers msg.sender)
  revertIf (relayer = false) .unauthorized

def setRelayer (relayer : Address) (authorized : Bool) : Fn (Option Rest) := do
  nonPayable
  onlyOwner
  write fun s =>
    { s with authorizedRelayers := Function.update s.authorizedRelayers relayer authorized }
  emit (.relayerUpdated relayer authorized)
  return none

/-- `_recover`. -/
def recover (p : Primitives δ) (digest : δ) (sig : List UInt8) : Fn Address :=
  match splitSignature sig with
  | none => revert (.error .invalidSignature)
  | some parts => do
    revertIf (p.ecrecover digest parts = .zero) .invalidSignature
    return p.ecrecover digest parts

/-- `execute`, up to the call of the target. -/
def execute (p : Primitives δ) (req : MetaTransaction) (signature : List UInt8) :
    Fn (Option Rest) := do
  nonPayable
  onlyRelayer
  let msg ← message
  revertIf (msg.timestamp > req.deadline) .deadlinePassed
  let nonce ← read (·.nonces req.fromAddress)
  revertIf (nonce ≠ req.nonce) .nonceAlreadyUsed
  let signer ← recover p (p.hashTypedData req) signature
  revertIf (signer ≠ req.fromAddress) .invalidSignature
  write fun s =>
    { s with
      nonces := Function.update s.nonces req.fromAddress (uncheckedAdd nonce 1)
      executions := s.executions ++ [req] }
  return some (.executed req)

/-- What `execute` does when the target has returned or reverted. -/
def finish (rest : Rest) (a : Outcome) : Fn (Option Rest) :=
  match rest with
  | .executed req => do
    emit (.metaTxExecuted req.fromAddress req.toAddress req.nonce a.success a.gasUsed)
    return none

inductive Function where
  | setRelayer (relayer : Address) (authorized : Bool)
  | execute (req : MetaTransaction) (signature : List UInt8)
  deriving DecidableEq

def body (p : Primitives δ) : Function → Fn (Option Rest)
  | .setRelayer relayer authorized => setRelayer relayer authorized
  | .execute req signature => execute p req signature

structure Call where
  msg : Message
  function : Function
  deriving DecidableEq

def contract (p : Primitives δ) :
    ExternalCalls.Contract Call State Rest (Revert Error) Outcome where
  enter := fun c s => body p c.function c.msg s
  resume := fun rest a s => finish rest a ⟨.zero, 0, 0⟩ s
  undone := fun a => !a.success

end EvmGsnForwarder

/-!
## The order of the meta-transactions

Each execution takes the next nonce of its sender before the target is called. The nonce is a word
and starts again at 0 after all of them, so that a meta-transaction whose deadline is far enough can
be executed a second time, but not before.
-/
namespace EvmGsnForwarder

open Evm Body ExternalCalls Transaction

universe u

variable {δ : Type u} {p : Primitives δ} {s s' : State} {msg : Message} {o : Option Rest}
  {req : MetaTransaction} {signature : List UInt8} {f : Function}
  {signed : Address → MetaTransaction → Prop}

/-- What is accepted for an address is the digest of a meta-transaction that it has signed. -/
def Unforgeable (p : Primitives δ) (signed : Address → MetaTransaction → Prop) : Prop :=
  ∀ digest sig, p.ecrecover digest sig ≠ .zero →
    ∃ req, signed (p.ecrecover digest sig) req ∧ p.hashTypedData req = digest

/-- What `execute` checks. -/
structure Executes (p : Primitives δ) (s : State) (msg : Message) (req : MetaTransaction)
    (signature : List UInt8) : Prop where
  unpaid : msg.value = 0
  relayer : s.authorizedRelayers msg.sender = true
  deadline : msg.timestamp ≤ req.deadline
  nonce : s.nonces req.fromAddress = req.nonce
  signer : ∃ parts, splitSignature signature = some parts ∧
    p.ecrecover (p.hashTypedData req) parts = req.fromAddress
  nonzero : req.fromAddress ≠ .zero

/-- The state in which the target is called. -/
def executing (s : State) (req : MetaTransaction) : State :=
  { s with
    nonces := Function.update s.nonces req.fromAddress
      (uncheckedAdd (s.nonces req.fromAddress) 1)
    executions := s.executions ++ [req] }

theorem onlyOwner_ok {u : Unit} :
    onlyOwner msg s = .ok (u, s') ↔ msg.sender = s.owner ∧ s = s' := by
  simp only [onlyOwner, message_bind, read_bind, revertIf_ok, ne_eq, not_not]

theorem onlyRelayer_ok {u : Unit} :
    onlyRelayer msg s = .ok (u, s') ↔ s.authorizedRelayers msg.sender = true ∧ s = s' := by
  simp only [onlyRelayer, message_bind, read_bind, revertIf_ok, Bool.not_eq_false]

theorem recover_ok {digest : δ} {a : Address} : recover p digest signature msg s = .ok (a, s') ↔
    (∃ parts, splitSignature signature = some parts ∧ p.ecrecover digest parts = a) ∧
      a ≠ .zero ∧ s = s' := by
  rw [recover]
  cases hsplit : splitSignature signature with
  | none => simp
  | some parts =>
    simp only [revertIf_bind_ok, pure_ok, Option.some.injEq, exists_eq_left']
    constructor
    · rintro ⟨hnonzero, rfl, hs⟩
      exact ⟨rfl, hnonzero, hs⟩
    · rintro ⟨rfl, hnonzero, hs⟩
      exact ⟨hnonzero, rfl, hs⟩

theorem execute_ok : execute p req signature msg s = .ok (o, s') ↔
    Executes p s msg req signature ∧ some (.executed req) = o ∧ executing s req = s' := by
  simp only [execute, nonPayable_bind_ok, guard_bind_ok onlyRelayer_ok, message_bind,
    revertIf_bind_ok, read_bind, not_not, ne_eq, Nat.not_lt]
  constructor
  · rintro ⟨hunpaid, hrelayer, hdeadline, hnonce, h⟩
    obtain ⟨signer, t, hrecover, h⟩ := bind_ok.mp h
    obtain ⟨hsigner, hnonzero, rfl⟩ := recover_ok.mp hrecover
    simp only [revertIf_bind_ok, not_not, write_bind, pure_ok] at h
    obtain ⟨rfl, ho, hs⟩ := h
    exact ⟨⟨hunpaid, hrelayer, hdeadline, hnonce, hsigner, hnonzero⟩, ho, hs⟩
  · rintro ⟨⟨hunpaid, hrelayer, hdeadline, hnonce, hsigner, hnonzero⟩, ho, hs⟩
    have hrecover : recover p (p.hashTypedData req) signature msg s = .ok (req.fromAddress, s) :=
      recover_ok.mpr ⟨hsigner, hnonzero, rfl⟩
    refine ⟨hunpaid, hrelayer, hdeadline, hnonce, ?_⟩
    rw [bind_of_ok hrecover]
    simp only [revertIf_bind_ok, not_not, write_bind, pure_ok, true_and]
    exact ⟨ho, hs⟩

/-- An accepted call executes a meta-transaction, or it leaves the nonces and the executions. -/
inductive Step (p : Primitives δ) (msg : Message) (s : State) : State → Prop
  | executed {req : MetaTransaction} {signature : List UInt8}
      (executes : Executes p s msg req signature) : Step p msg s (executing s req)
  | managed {s' : State} (nonces : s'.nonces = s.nonces)
      (executions : s'.executions = s.executions) : Step p msg s s'

theorem step_of_ok (h : body p f msg s = .ok (o, s')) : Step p msg s s' := by
  cases f with
  | setRelayer relayer authorized =>
    simp only [body, setRelayer, nonPayable_bind_ok, guard_bind_ok onlyOwner_ok, write_bind, emit,
      pure_ok] at h
    obtain ⟨_, _, _, rfl⟩ := h
    exact .managed rfl rfl
  | execute req signature =>
    obtain ⟨hexecutes, _, rfl⟩ := execute_ok.mp h
    exact .executed hexecutes

theorem finish_eq {rest : Rest} {a : Outcome} (h : finish rest a msg s = .ok (o, s')) :
    s'.nonces = s.nonces ∧ s'.executions = s.executions := by
  cases rest with
  | executed req =>
    simp only [finish, emit, write_bind, pure_ok] at h
    obtain ⟨_, rfl⟩ := h
    exact ⟨rfl, rfl⟩

/-! ## What holds in every state -/

/-- The executed meta-transactions of a sender, in their order. -/
def ofSender (a : Address) (executions : List MetaTransaction) : List MetaTransaction :=
  executions.filter fun req => req.fromAddress = a

theorem ofSender_snoc_self (executions : List MetaTransaction) (req : MetaTransaction) :
    ofSender req.fromAddress (executions ++ [req]) =
      ofSender req.fromAddress executions ++ [req] := by
  simp only [ofSender, List.filter_append, List.filter_singleton, decide_true, cond_true]

theorem ofSender_snoc_other {a : Address} (executions : List MetaTransaction)
    (h : req.fromAddress ≠ a) : ofSender a (executions ++ [req]) = ofSender a executions := by
  simp only [ofSender, List.filter_append, List.filter_singleton, h, decide_false, cond_false,
    List.append_nil]

/-- The nonces of a sender are counted from 0, and start again after the last word. -/
structure Valid (signed : Address → MetaTransaction → Prop) (s : State) : Prop where
  count : ∀ a, s.nonces a = (ofSender a s.executions).length % wordBound
  nonces : ∀ a, (ofSender a s.executions).map (·.nonce) =
    (List.range (ofSender a s.executions).length).map (· % wordBound)
  signed : ∀ req ∈ s.executions, signed req.fromAddress req

theorem Step.valid (h : Step p msg s s') (hinjective : p.hashTypedData.Injective)
    (hunforgeable : Unforgeable p signed) (hv : Valid signed s) : Valid signed s' := by
  cases h with
  | @executed req signature hexecutes =>
    obtain ⟨parts, _, hsigner⟩ := hexecutes.signer
    have hnonce := hexecutes.nonce
    rw [hv.count] at hnonce
    refine ⟨fun a => ?_, fun a => ?_, fun r hr => ?_⟩
    · by_cases ha : req.fromAddress = a
      · subst ha
        simp only [executing, Function.update_self, ofSender_snoc_self, List.length_append,
          List.length_singleton, hv.count, uncheckedAdd]
        exact Nat.mod_add_mod _ _ _
      · simp only [executing, Function.update_of_ne (Ne.symm ha), ofSender_snoc_other _ ha]
        exact hv.count a
    · by_cases ha : req.fromAddress = a
      · subst ha
        simp only [executing, ofSender_snoc_self, List.map_append, List.map_singleton,
          List.length_append, List.length_singleton, List.range_succ, hv.nonces, hnonce]
      · simp only [executing, ofSender_snoc_other _ ha]
        exact hv.nonces a
    · obtain hr | hr := List.mem_append.mp hr
      · exact hv.signed r hr
      · rw [List.mem_singleton.mp hr]
        have hnonzero : p.ecrecover (p.hashTypedData req) parts ≠ .zero := by
          rw [hsigner]
          exact hexecutes.nonzero
        obtain ⟨r', hsigned, hdigest⟩ := hunforgeable _ _ hnonzero
        rw [hsigner, hinjective hdigest] at hsigned
        exact hsigned
  | managed hnonces hexecutions =>
    refine ⟨?_, ?_, ?_⟩
    · rw [hnonces, hexecutions]
      exact hv.count
    · rw [hexecutions]
      exact hv.nonces
    · rw [hexecutions]
      exact hv.signed

theorem keeps_valid (hinjective : p.hashTypedData.Injective) (hunforgeable : Unforgeable p signed) :
    Keeps (contract p) (fun _ _ => True) (fun s _ => Valid signed s) where
  enter := by
    intro c s frames r _ hv henter
    rw [After, state_proceed]
    exact (step_of_ok henter).valid hinjective hunforgeable hv
  resume := by
    rintro f s frames a ⟨o, s'⟩ hv _ hresume
    obtain ⟨hnonces, hexecutions⟩ := finish_eq hresume
    rw [After, state_proceed]
    have hstep : Step p ⟨.zero, 0, 0⟩ s s' := .managed hnonces hexecutions
    exact hstep.valid hinjective hunforgeable hv

theorem deploy_valid (sender : Address) : Valid signed (deploy sender) :=
  ⟨fun _ => rfl, fun _ => rfl, nofun⟩

/-! ## Runs -/

/-- Every execution is one that its sender has signed; those of one sender have consecutive nonces,
modulo the number of words; and as many of them as there are words lie between two executions of one
meta-transaction, so that it is executed once among the first so many of its sender. -/
structure InOrder (signed : Address → MetaTransaction → Prop) (s : State) : Prop where
  signed : ∀ req ∈ s.executions, signed req.fromAddress req
  nonces : ∀ a, (ofSender a s.executions).map (·.nonce) =
    (List.range (ofSender a s.executions).length).map (· % wordBound)
  apart : ∀ a i j req, (ofSender a s.executions)[i]? = some req →
    (ofSender a s.executions)[j]? = some req → i < j → i + wordBound ≤ j
  once : ∀ a, (ofSender a s.executions).length ≤ wordBound → (ofSender a s.executions).Nodup

/-- The nonce of the meta-transaction that is executed at a place. -/
theorem Valid.nonce_at (h : Valid signed s) {a : Address} {i : Nat}
    (hi : (ofSender a s.executions)[i]? = some req) : req.nonce = i % wordBound := by
  have hlt : i < (ofSender a s.executions).length := (List.getElem?_eq_some_iff.mp hi).1
  have hmap := congrArg (·[i]?) (h.nonces a)
  simp only [List.getElem?_map, hi, Option.map_some, List.getElem?_range hlt] at hmap
  exact Option.some.inj hmap

theorem Valid.inOrder (h : Valid signed s) : InOrder signed s where
  signed := h.signed
  nonces := h.nonces
  apart := by
    intro a i j req hi hj hlt
    have hsame : i % wordBound = j % wordBound := (h.nonce_at hi).symm.trans (h.nonce_at hj)
    have hdvd : wordBound ∣ j - i := (Nat.modEq_iff_dvd' hlt.le).mp hsame
    have hle := Nat.le_of_dvd (by omega) hdvd
    omega
  once := by
    intro a hlen
    have hrange : (List.range (ofSender a s.executions).length).map (· % wordBound) =
        List.range (ofSender a s.executions).length := by
      have hmod : ∀ i ∈ List.range (ofSender a s.executions).length, i % wordBound = id i :=
        fun i hi => Nat.mod_eq_of_lt (lt_of_lt_of_le (List.mem_range.mp hi) hlen)
      rw [List.map_congr_left hmod, List.map_id]
    have hmap := h.nonces a
    rw [hrange] at hmap
    apply List.Nodup.of_map (·.nonce)
    rw [hmap]
    exact List.nodup_range

/-- The digest is the meta-transaction, and the user 5 has signed all of its own. -/
def signedByUser : Primitives MetaTransaction where
  hashTypedData := id
  ecrecover := fun digest _ => if digest.fromAddress = ⟨5⟩ then ⟨5⟩ else .zero

def SignedByUser (a : Address) (req : MetaTransaction) : Prop := a = ⟨5⟩ ∧ req.fromAddress = ⟨5⟩

theorem unforgeable_signedByUser : Unforgeable signedByUser SignedByUser := by
  intro digest sig hnonzero
  refine ⟨digest, ?_, rfl⟩
  simp only [signedByUser] at hnonzero ⊢
  split at hnonzero
  · rename_i hfrom
    rw [if_pos hfrom]
    exact ⟨rfl, hfrom⟩
  · exact (hnonzero rfl).elim

/-- The meta-transaction of the user 5 with a nonce, which calls the target 6. -/
def metaTx (nonce : Nat) : MetaTransaction := ⟨⟨5⟩, ⟨6⟩, 0, 0, nonce, 0, []⟩

def relay (nonce : Nat) : Act Call Outcome :=
  .call ⟨⟨⟨2⟩, 0, 0⟩, .execute (metaTx nonce) (List.replicate 65 0)⟩

/-- The target of the first meta-transaction has the second executed, and reverts in its own. -/
def reentered : List (Act Call Outcome) :=
  [.call ⟨⟨⟨1⟩, 0, 0⟩, .setRelayer ⟨2⟩ true⟩, relay 0, relay 1, .answer ⟨true, 0⟩,
    .answer ⟨true, 0⟩, relay 2, .answer ⟨false, 0⟩]

/-- The owner makes the address 2 a relayer, which has a number of meta-transactions executed. -/
def relayed : Nat → List (Act Call Outcome)
  | 0 => [.call ⟨⟨⟨1⟩, 0, 0⟩, .setRelayer ⟨2⟩ true⟩]
  | n + 1 => relayed n ++ [relay (n % wordBound), .answer ⟨true, 0⟩]

/-- What the meta-transactions leave. -/
structure Relayed (n : Nat) (g : Config State Rest) : Prop where
  nonce : g.state.nonces ⟨5⟩ = n % wordBound
  relayer : g.state.authorizedRelayers ⟨2⟩ = true
  executions : g.state.executions = (List.range n).map fun k => metaTx (k % wordBound)
  frames : g.frames = []

theorem executes_metaTx {n : Nat} {g : Config State Rest} (h : Relayed n g) :
    Executes signedByUser g.state ⟨⟨2⟩, 0, 0⟩ (metaTx (n % wordBound)) (List.replicate 65 0) where
  unpaid := rfl
  relayer := h.relayer
  deadline := Nat.le_refl _
  nonce := h.nonce
  signer := ⟨_, rfl, rfl⟩
  nonzero := by
    have huser : (⟨5⟩ : Address) ≠ .zero := by decide
    exact huser

theorem relayed_state (n : Nat) :
    Relayed n (run (machine (contract signedByUser)) ⟨deploy ⟨1⟩, []⟩ (relayed n)) := by
  induction n with
  | zero => exact ⟨rfl, rfl, rfl, rfl⟩
  | succ n ih =>
    generalize hg : run (machine (contract signedByUser)) ⟨deploy ⟨1⟩, []⟩ (relayed n) = g at ih
    have henter : (contract signedByUser).enter
        ⟨⟨⟨2⟩, 0, 0⟩, .execute (metaTx (n % wordBound)) (List.replicate 65 0)⟩ g.state =
          .ok (some (.executed (metaTx (n % wordBound))),
            executing g.state (metaTx (n % wordBound))) :=
      execute_ok.mpr ⟨executes_metaTx ih, rfl, rfl⟩
    rw [relayed, run_append, hg, run_cons, run_cons, run_nil, relay, commit_enter henter]
    refine ⟨?_, ih.relayer, ?_, ih.frames⟩
    · have hnext : uncheckedAdd (n % wordBound) 1 = (n + 1) % wordBound := Nat.mod_add_mod _ _ _
      rw [← hnext, ← ih.nonce]
      exact Function.update_self (⟨5⟩ : Address) _ g.state.nonces
    · rw [List.range_succ, List.map_append, List.map_singleton, ← ih.executions]
      rfl

end EvmGsnForwarder
