import AgenticPay.Transaction
import Mathlib.Algebra.Group.Int.Defs
import Mathlib.Algebra.Group.Nat.Defs
import Mathlib.Data.List.Basic

/-!
# The Soroban host, as a contract sees it

A contract function runs against the ledger environment of its invocation and a
world: the contract's storage and the events it has published. It either returns
or traps; the host discards the storage writes and the events of a trapped
invocation. A `u32` or `u64` is a `Nat` and an `i128` an `Int`; the arithmetic a
contract performs on them with `overflow-checks` on is the checked one below,
which traps where the width is left. Nothing here names a contract.
-/
namespace Soroban

def u32Bound : Nat := 2 ^ 32
def u64Bound : Nat := 2 ^ 64
def i128Bound : Int := 2 ^ 127

structure Address where
  key : Nat
  deriving DecidableEq, Repr

/-- A `BytesN<32>`, by its value. -/
structure BytesN32 where
  value : Nat
  deriving DecidableEq, Repr

inductive Trap where
  | panic (message : String)
  | unauthorized (address : Address)
  | overflow
  | missingCode (hash : BytesN32)
  | contractError (code : Nat)
  deriving DecidableEq, Repr

/-- What the ledger tells an invocation: its close time, the addresses whose
authorization of this invocation was verified, and the uploaded code. -/
structure Env where
  timestamp : Nat
  auths : List Address
  uploaded : List BytesN32 := []

structure World (σ ε : Type) where
  storage : σ
  events : List ε

/-- A contract function after its arguments. -/
def Contract (σ ε α : Type) := Env → World σ ε → Except Trap (α × World σ ε)

variable {σ ε α β : Type}

instance : Monad (Contract σ ε) where
  pure a := fun _ w => .ok (a, w)
  bind m f := fun env w => match m env w with
    | .ok (a, w') => f a env w'
    | .error t => .error t

namespace Contract

def trap (t : Trap) : Contract σ ε α := fun _ _ => .error t

/-- `panic!(message)`. -/
def abort (message : String) : Contract σ ε α := trap (.panic message)

/-- `assert!(p, message)`. -/
def assert (p : Prop) [Decidable p] (message : String) : Contract σ ε Unit :=
  if p then pure () else abort message

/-- `value.expect(message)`. -/
def expect (value : Option α) (message : String) : Contract σ ε α :=
  match value with
  | some a => pure a
  | none => abort message

/-- `return Err(e)` for the variant of a contract error with this code. -/
def fail (code : Nat) : Contract σ ε α := trap (.contractError code)

/-- `if !p { return Err(e) }`. -/
def ensure (p : Prop) [Decidable p] (code : Nat) : Contract σ ε Unit :=
  if p then pure () else fail code

/-- `value.ok_or(e)?`. -/
def okOr (value : Option α) (code : Nat) : Contract σ ε α :=
  match value with
  | some a => pure a
  | none => fail code

/-- `env.ledger().timestamp()`. -/
def timestamp : Contract σ ε Nat := fun env w => .ok (env.timestamp, w)

/-- `address.require_auth()`. -/
def requireAuth (address : Address) : Contract σ ε Unit := fun env w =>
  if address ∈ env.auths then .ok ((), w) else .error (.unauthorized address)

/-- A read of `env.storage()`. -/
def read (f : σ → α) : Contract σ ε α := fun _ w => .ok (f w.storage, w)

/-- A write of `env.storage()`. -/
def write (f : σ → σ) : Contract σ ε Unit := fun _ w => .ok ((), { w with storage := f w.storage })

/-- `env.events().publish(..)`. -/
def publish (e : ε) : Contract σ ε Unit := fun _ w => .ok ((), { w with events := w.events ++ [e] })

/-- The host's own check in `update_current_contract_wasm(hash)`: it refuses a hash
under which no code was uploaded. -/
def requireUploaded (hash : BytesN32) : Contract σ ε Unit := fun env w =>
  if hash ∈ env.uploaded then .ok ((), w) else .error (.missingCode hash)

def addU32 (a b : Nat) : Contract σ ε Nat :=
  if a + b < u32Bound then pure (a + b) else trap .overflow

def subU32 (a b : Nat) : Contract σ ε Nat :=
  if b ≤ a then pure (a - b) else trap .overflow

def addU64 (a b : Nat) : Contract σ ε Nat :=
  if a + b < u64Bound then pure (a + b) else trap .overflow

def addI128 (a b : Int) : Contract σ ε Int :=
  if -i128Bound ≤ a + b ∧ a + b < i128Bound then pure (a + b) else trap .overflow

def subI128 (a b : Int) : Contract σ ε Int :=
  if -i128Bound ≤ a - b ∧ a - b < i128Bound then pure (a - b) else trap .overflow

def mulI128 (a b : Int) : Contract σ ε Int :=
  if -i128Bound ≤ a * b ∧ a * b < i128Bound then pure (a * b) else trap .overflow

/-! Each primitive returns exactly under its guard, with exactly this effect. -/

section Returns

variable {env : Env} {w w' : World σ ε}

@[simp] theorem pure_ok {a b : α} :
    (pure a : Contract σ ε α) env w = .ok (b, w') ↔ a = b ∧ w = w' := by
  simp [pure]

@[simp] theorem bind_ok {m : Contract σ ε α} {f : α → Contract σ ε β} {b : β} :
    (m >>= f) env w = .ok (b, w') ↔ ∃ a v, m env w = .ok (a, v) ∧ f a env v = .ok (b, w') := by
  simp only [bind]
  cases h : m env w with
  | error t => simp
  | ok r => obtain ⟨a, v⟩ := r; simp

@[simp] theorem trap_ok {t : Trap} {a : α} :
    (trap t : Contract σ ε α) env w = .ok (a, w') ↔ False := by
  simp [trap]

@[simp] theorem abort_ok {message : String} {a : α} :
    (abort message : Contract σ ε α) env w = .ok (a, w') ↔ False := by
  simp [abort]

@[simp] theorem ite_ok {p : Prop} [Decidable p] {m n : Contract σ ε α} {a : α} :
    (if p then m else n) env w = .ok (a, w') ↔
      p ∧ m env w = .ok (a, w') ∨ ¬ p ∧ n env w = .ok (a, w') := by
  split <;> simp_all

@[simp] theorem assert_ok {p : Prop} [Decidable p] {message : String} {u : Unit} :
    (assert p message : Contract σ ε Unit) env w = .ok (u, w') ↔ p ∧ w = w' := by
  simp [assert]

@[simp] theorem expect_ok {value : Option α} {message : String} {a : α} :
    (expect value message : Contract σ ε α) env w = .ok (a, w') ↔ value = some a ∧ w = w' := by
  cases value <;> simp [expect]

@[simp] theorem fail_ok {code : Nat} {a : α} :
    (fail code : Contract σ ε α) env w = .ok (a, w') ↔ False := by
  simp [fail]

@[simp] theorem ensure_ok {p : Prop} [Decidable p] {code : Nat} {u : Unit} :
    (ensure p code : Contract σ ε Unit) env w = .ok (u, w') ↔ p ∧ w = w' := by
  simp [ensure]

@[simp] theorem okOr_ok {value : Option α} {code : Nat} {a : α} :
    (okOr value code : Contract σ ε α) env w = .ok (a, w') ↔ value = some a ∧ w = w' := by
  cases value <;> simp [okOr]

@[simp] theorem timestamp_ok {t : Nat} :
    (timestamp : Contract σ ε Nat) env w = .ok (t, w') ↔ env.timestamp = t ∧ w = w' := by
  simp [timestamp]

@[simp] theorem requireAuth_ok {address : Address} {u : Unit} :
    (requireAuth address : Contract σ ε Unit) env w = .ok (u, w') ↔
      address ∈ env.auths ∧ w = w' := by
  simp only [requireAuth]; split <;> simp_all

@[simp] theorem read_ok {f : σ → α} {a : α} :
    (read f : Contract σ ε α) env w = .ok (a, w') ↔ f w.storage = a ∧ w = w' := by
  simp [read]

@[simp] theorem write_ok {f : σ → σ} {u : Unit} :
    (write f : Contract σ ε Unit) env w = .ok (u, w') ↔
      ({ w with storage := f w.storage } : World σ ε) = w' := by
  simp [write]

@[simp] theorem publish_ok {e : ε} {u : Unit} :
    (publish e : Contract σ ε Unit) env w = .ok (u, w') ↔
      ({ w with events := w.events ++ [e] } : World σ ε) = w' := by
  simp [publish]

@[simp] theorem requireUploaded_ok {hash : BytesN32} {u : Unit} :
    (requireUploaded hash : Contract σ ε Unit) env w = .ok (u, w') ↔
      hash ∈ env.uploaded ∧ w = w' := by
  simp only [requireUploaded]; split <;> simp_all

@[simp] theorem addU32_ok {a b c : Nat} :
    (addU32 a b : Contract σ ε Nat) env w = .ok (c, w') ↔
      a + b < u32Bound ∧ a + b = c ∧ w = w' := by
  simp [addU32]

@[simp] theorem subU32_ok {a b c : Nat} :
    (subU32 a b : Contract σ ε Nat) env w = .ok (c, w') ↔ b ≤ a ∧ a - b = c ∧ w = w' := by
  simp [subU32]

@[simp] theorem addU64_ok {a b c : Nat} :
    (addU64 a b : Contract σ ε Nat) env w = .ok (c, w') ↔
      a + b < u64Bound ∧ a + b = c ∧ w = w' := by
  simp [addU64]

@[simp] theorem addI128_ok {a b c : Int} :
    (addI128 a b : Contract σ ε Int) env w = .ok (c, w') ↔
      (-i128Bound ≤ a + b ∧ a + b < i128Bound) ∧ a + b = c ∧ w = w' := by
  simp [addI128]

@[simp] theorem subI128_ok {a b c : Int} :
    (subI128 a b : Contract σ ε Int) env w = .ok (c, w') ↔
      (-i128Bound ≤ a - b ∧ a - b < i128Bound) ∧ a - b = c ∧ w = w' := by
  simp [subI128]

@[simp] theorem mulI128_ok {a b c : Int} :
    (mulI128 a b : Contract σ ε Int) env w = .ok (c, w') ↔
      (-i128Bound ≤ a * b ∧ a * b < i128Bound) ∧ a * b = c ∧ w = w' := by
  simp [mulI128]

end Returns

end Contract

end Soroban

/-!
## A contract as a system of submitted calls

A submission is a call together with what the ledger tells the contract about
it: the time and the addresses that authorized it. The entry points of a
contract, each wrapped into one type of return values, make a transactional
system of submissions.
-/
namespace Soroban

open Contract Transaction

structure Submission (κ : Type) where
  env : Env
  call : κ

variable {σ ε κ ρ α : Type}

/-- The submission at time `timestamp` that `signers` have authorized. -/
def signedBy (signers : List Address) (timestamp : Nat) (call : κ) : Submission κ where
  env := { timestamp, auths := signers }
  call := call

/-- An entry point, with what it returns wrapped up. -/
def Contract.returning (wrap : α → ρ) (body : Contract σ ε α) : Contract σ ε ρ := do
  let value ← body
  return wrap value

@[simp] theorem Contract.returning_ok {wrap : α → ρ} {body : Contract σ ε α} {env : Env}
    {w w' : World σ ε} {r : ρ} :
    returning wrap body env w = .ok (r, w') ↔ ∃ a, body env w = .ok (a, w') ∧ wrap a = r := by
  simp [returning]

/-- The system of all submissions to a contract with these entry points. -/
def system (invoke : κ → Contract σ ε ρ) : System (Submission κ) (World σ ε) Trap ρ :=
  fun i w => invoke i.call i.env w

variable {invoke : κ → Contract σ ε ρ} {w w' : World σ ε} {i : Submission κ}

/-- A committed submission has returned, or it has changed nothing. -/
theorem system_cases (invoke : κ → Contract σ ε ρ) (w : World σ ε) (i : Submission κ) :
    (∃ r, invoke i.call i.env w = .ok (r, commit (system invoke) w i)) ∨
      commit (system invoke) w i = w := by
  rcases commit_cases (system invoke) w i with hr | ⟨_, he⟩
  · exact .inl hr
  · exact .inr he

/-- What a submission leaves behind is what the entry point behind its call leaves behind. -/
theorem commit_returning {wrap : α → ρ} {body : Contract σ ε α} {a : α}
    (hi : invoke i.call = returning wrap body) (h : body i.env w = .ok (a, w')) :
    commit (system invoke) w i = w' := by
  apply commit_of_ok
  rw [system, hi]
  exact returning_ok.mpr ⟨a, h, rfl⟩

end Soroban
