import Mathlib.Algebra.Group.Nat.Defs
import Mathlib.Data.BitVec
import Mathlib.Data.List.Basic

/-!
# The EVM, as a Solidity function sees it

A function body runs against the message of its call and the state of its
contract, and either returns or reverts; a revert discards what it has done. A
`uint256` is a `Nat` below the word bound: the checked operations revert where
it is left, the unchecked ones wrap around. Nothing here names a contract.
-/
namespace Evm

def wordBound : Nat := 2 ^ 256

structure Address where
  key : Nat
  deriving DecidableEq, Repr

/-- `address(0)`. -/
def Address.zero : Address := ⟨0⟩

/-- `msg.sender`, `msg.value` and `block.timestamp`. -/
structure Message where
  sender : Address
  value : Nat
  timestamp : Nat
  deriving DecidableEq, Repr

/-- Why a call reverts: a custom error, a failed `require`, a panic of the arithmetic, a value
that is sent where none is accepted or that nobody can send, or arguments that are no encoding. -/
inductive Revert (ε : Type) where
  | error (e : ε)
  | required (text : String)
  | panic
  | notPayable
  | funds
  | decoding
  deriving DecidableEq, Repr

/-- A function after its arguments. -/
def Body (σ ε α : Type) := Message → σ → Except (Revert ε) (α × σ)

variable {σ ε α β : Type}

instance : Monad (Body σ ε) where
  pure a := fun _ s => .ok (a, s)
  bind m f := fun msg s => match m msg s with
    | .ok (a, s') => f a msg s'
    | .error r => .error r

def uncheckedAdd (a b : Nat) : Nat := (a + b) % wordBound
def uncheckedSub (a b : Nat) : Nat := if b ≤ a then a - b else wordBound - (b - a)
def uncheckedMul (a b : Nat) : Nat := a * b % wordBound

theorem uncheckedAdd_eq {a b : Nat} (h : a + b < wordBound) : uncheckedAdd a b = a + b :=
  Nat.mod_eq_of_lt h

theorem uncheckedMul_le (a b : Nat) : uncheckedMul a b ≤ a * b := Nat.mod_le _ _

theorem uncheckedSub_eq {a b : Nat} (h : b ≤ a) : uncheckedSub a b = a - b := if_pos h

namespace Body

def revert (r : Revert ε) : Body σ ε α := fun _ _ => .error r

/-- `if (p) revert E();`. -/
def revertIf (p : Prop) [Decidable p] (e : ε) : Body σ ε Unit :=
  if p then revert (.error e) else pure ()

/-- `require(p, text);`. -/
def require (p : Prop) [Decidable p] (text : String) : Body σ ε Unit :=
  if p then pure () else revert (.required text)

def message : Body σ ε Message := fun msg s => .ok (msg, s)

def read (f : σ → α) : Body σ ε α := fun _ s => .ok (f s, s)

def write (f : σ → σ) : Body σ ε Unit := fun _ s => .ok ((), f s)

/-- The check of a function that is not `payable`. -/
def nonPayable : Body σ ε Unit := fun msg s =>
  if msg.value = 0 then .ok ((), s) else .error .notPayable

/-- The decoder's check of the length of an array among the arguments. -/
def decodeLength (n : Nat) : Body σ ε Unit :=
  if n < 2 ^ 64 then pure () else revert .decoding

/-- Ether that comes in on top of `b`. No account of a chain holds a whole word of it. -/
def creditWord (b value : Nat) : Body σ ε Nat :=
  if b + value < wordBound then pure (b + value) else revert .funds

def addWord (a b : Nat) : Body σ ε Nat :=
  if a + b < wordBound then pure (a + b) else revert .panic

def subWord (a b : Nat) : Body σ ε Nat :=
  if b ≤ a then pure (a - b) else revert .panic

def mulWord (a b : Nat) : Body σ ε Nat :=
  if a * b < wordBound then pure (a * b) else revert .panic

/-! Each primitive returns exactly under its guard, with exactly this effect. -/

section Returns

variable {msg : Message} {s s' : σ}

@[simp] theorem pure_ok {a b : α} :
    (pure a : Body σ ε α) msg s = .ok (b, s') ↔ a = b ∧ s = s' := by
  simp [pure]

@[simp] theorem bind_ok {m : Body σ ε α} {f : α → Body σ ε β} {b : β} :
    (m >>= f) msg s = .ok (b, s') ↔ ∃ a t, m msg s = .ok (a, t) ∧ f a msg t = .ok (b, s') := by
  simp only [bind]
  cases h : m msg s with
  | error r => simp
  | ok r => obtain ⟨a, t⟩ := r; simp

@[simp] theorem revert_ok {r : Revert ε} {a : α} :
    (revert r : Body σ ε α) msg s = .ok (a, s') ↔ False := by
  simp [revert]

@[simp] theorem ite_ok {p : Prop} [Decidable p] {m n : Body σ ε α} {a : α} :
    (if p then m else n) msg s = .ok (a, s') ↔
      p ∧ m msg s = .ok (a, s') ∨ ¬ p ∧ n msg s = .ok (a, s') := by
  split <;> simp_all

@[simp] theorem revertIf_ok {p : Prop} [Decidable p] {e : ε} {u : Unit} :
    (revertIf p e : Body σ ε Unit) msg s = .ok (u, s') ↔ ¬ p ∧ s = s' := by
  simp [revertIf]

@[simp] theorem require_ok {p : Prop} [Decidable p] {text : String} {u : Unit} :
    (require p text : Body σ ε Unit) msg s = .ok (u, s') ↔ p ∧ s = s' := by
  simp [require]

@[simp] theorem message_ok {m : Message} :
    (message : Body σ ε Message) msg s = .ok (m, s') ↔ msg = m ∧ s = s' := by
  simp [message]

@[simp] theorem read_ok {f : σ → α} {a : α} :
    (read f : Body σ ε α) msg s = .ok (a, s') ↔ f s = a ∧ s = s' := by
  simp [read]

@[simp] theorem write_ok {f : σ → σ} {u : Unit} :
    (write f : Body σ ε Unit) msg s = .ok (u, s') ↔ f s = s' := by
  simp [write]

@[simp] theorem nonPayable_ok {u : Unit} :
    (nonPayable : Body σ ε Unit) msg s = .ok (u, s') ↔ msg.value = 0 ∧ s = s' := by
  simp only [nonPayable]; split <;> simp_all

@[simp] theorem decodeLength_ok {n : Nat} {u : Unit} :
    (decodeLength n : Body σ ε Unit) msg s = .ok (u, s') ↔ n < 2 ^ 64 ∧ s = s' := by
  simp [decodeLength]

@[simp] theorem creditWord_ok {b value c : Nat} :
    (creditWord b value : Body σ ε Nat) msg s = .ok (c, s') ↔
      b + value < wordBound ∧ b + value = c ∧ s = s' := by
  simp [creditWord]

@[simp] theorem addWord_ok {a b c : Nat} :
    (addWord a b : Body σ ε Nat) msg s = .ok (c, s') ↔
      a + b < wordBound ∧ a + b = c ∧ s = s' := by
  simp [addWord]

@[simp] theorem subWord_ok {a b c : Nat} :
    (subWord a b : Body σ ε Nat) msg s = .ok (c, s') ↔ b ≤ a ∧ a - b = c ∧ s = s' := by
  simp [subWord]

@[simp] theorem mulWord_ok {a b c : Nat} :
    (mulWord a b : Body σ ε Nat) msg s = .ok (c, s') ↔
      a * b < wordBound ∧ a * b = c ∧ s = s' := by
  simp [mulWord]

end Returns

/-! A body that starts with one of them is run by one rewriting step. -/

section Runs

variable {msg : Message} {s s' t : σ} {a : α} {b : β}

theorem bind_of_ok {m : Body σ ε α} {f : α → Body σ ε β} (h : m msg s = .ok (a, t)) :
    (m >>= f) msg s = f a msg t := by
  simp only [bind, h]

theorem message_bind {f : Message → Body σ ε β} : (message >>= f) msg s = f msg msg s :=
  bind_of_ok rfl

theorem read_bind {g : σ → α} {f : α → Body σ ε β} : (read g >>= f) msg s = f (g s) msg s :=
  bind_of_ok rfl

theorem write_bind {g : σ → σ} {f : Unit → Body σ ε β} :
    (write g >>= f) msg s = f () msg (g s) :=
  bind_of_ok rfl

theorem pure_bind {f : α → Body σ ε β} : (pure a >>= f : Body σ ε β) msg s = f a msg s :=
  bind_of_ok rfl

/-- A part that returns nothing, and when it returns. -/
theorem guard_bind_ok {m : Body σ ε Unit} {p : Prop} {f : Unit → Body σ ε β}
    (h : ∀ {u s'}, m msg s = .ok (u, s') ↔ p ∧ t = s') :
    (m >>= f) msg s = .ok (b, s') ↔ p ∧ f () msg t = .ok (b, s') := by
  simp only [bind_ok, h]
  constructor
  · rintro ⟨_, _, ⟨hp, rfl⟩, hf⟩
    exact ⟨hp, hf⟩
  · rintro ⟨hp, hf⟩
    exact ⟨(), t, ⟨hp, rfl⟩, hf⟩

theorem revertIf_bind_ok {p : Prop} [Decidable p] {e : ε} {f : Unit → Body σ ε β} :
    (revertIf p e >>= f) msg s = .ok (b, s') ↔ ¬ p ∧ f () msg s = .ok (b, s') :=
  guard_bind_ok revertIf_ok

theorem require_bind_ok {p : Prop} [Decidable p] {text : String} {f : Unit → Body σ ε β} :
    (require p text >>= f) msg s = .ok (b, s') ↔ p ∧ f () msg s = .ok (b, s') :=
  guard_bind_ok require_ok

theorem nonPayable_bind_ok {f : Unit → Body σ ε β} :
    (nonPayable >>= f) msg s = .ok (b, s') ↔ msg.value = 0 ∧ f () msg s = .ok (b, s') :=
  guard_bind_ok nonPayable_ok

theorem decodeLength_bind_ok {n : Nat} {f : Unit → Body σ ε β} :
    (decodeLength n >>= f) msg s = .ok (b, s') ↔ n < 2 ^ 64 ∧ f () msg s = .ok (b, s') :=
  guard_bind_ok decodeLength_ok

theorem creditWord_bind_ok {c value : Nat} {f : Nat → Body σ ε β} :
    (creditWord c value >>= f) msg s = .ok (b, s') ↔
      c + value < wordBound ∧ f (c + value) msg s = .ok (b, s') := by
  simp

theorem addWord_bind_ok {c d : Nat} {f : Nat → Body σ ε β} :
    (addWord c d >>= f) msg s = .ok (b, s') ↔
      c + d < wordBound ∧ f (c + d) msg s = .ok (b, s') := by
  simp

theorem mulWord_bind_ok {c d : Nat} {f : Nat → Body σ ε β} :
    (mulWord c d >>= f) msg s = .ok (b, s') ↔
      c * d < wordBound ∧ f (c * d) msg s = .ok (b, s') := by
  simp

theorem subWord_bind_ok {c d : Nat} {f : Nat → Body σ ε β} :
    (subWord c d >>= f) msg s = .ok (b, s') ↔ d ≤ c ∧ f (c - d) msg s = .ok (b, s') := by
  simp

end Runs

end Body

end Evm

/-!
## Low-level calls and signatures on the EVM

What a low-level call gives back, and the parts of a signature that assembly reads
from its bytes. Nothing here names a contract.
-/
namespace Evm

abbrev Bytes32 := BitVec 256

/-- The outcome of a low-level call: the callee has reverted, or it has returned no data, data
that are a `bool`, or data that are no encoding of one. -/
inductive Answer where
  | reverted
  | empty
  | returned (value : Bool)
  | garbled
  deriving DecidableEq, Repr

def Answer.undone : Answer → Bool
  | .reverted => true
  | .empty => false
  | .returned _ => false
  | .garbled => false

/-- `ok && (data.length == 0 || abi.decode(data, (bool)))`. -/
def Body.decodeTransfer {σ ε : Type} : Answer → Body σ ε Bool
  | .reverted => pure false
  | .empty => pure true
  | .returned value => pure value
  | .garbled => Body.revert .decoding

/-- The word that starts the bytes, as `mload` and `calldataload` read it. -/
def wordOf (bytes : List UInt8) : Bytes32 :=
  BitVec.ofNat 256 ((bytes.take 32).foldl (fun n b => 256 * n + b.toNat) 0)

structure Signature where
  v : UInt8
  r : Bytes32
  s : Bytes32
  deriving DecidableEq

/-- The parts of a signature, if it has the right length. -/
def splitSignature (sig : List UInt8) : Option Signature :=
  if sig.length = 65 then
    some ⟨sig.getD 64 0, wordOf sig, wordOf (sig.drop 32)⟩
  else none

namespace Body

variable {σ ε β : Type} {msg : Message} {s s' : σ} {a : Answer} {b : β}

/-- A transfer that is decoded and found to have failed does not go on. -/
theorem decodeTransfer_require_ok {text : String} {f : Unit → Body σ ε β} :
    (decodeTransfer a >>= fun transferred => require (transferred = true) text >>= f) msg s =
        .ok (b, s') ↔
      (a = .empty ∨ a = .returned true) ∧ f () msg s = .ok (b, s') := by
  cases a with
  | reverted => simp [decodeTransfer]
  | empty =>
    rw [decodeTransfer, pure_bind, require_bind_ok]
    simp
  | returned value =>
    rw [decodeTransfer, pure_bind, require_bind_ok]
    simp
  | garbled => simp [decodeTransfer]

end Body

end Evm
