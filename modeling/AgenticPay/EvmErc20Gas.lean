import AgenticPay.Evm
import AgenticPay.Holdings
import AgenticPay.Transaction
import Mathlib.Logic.Function.Basic

/-!
# The gas-tuned token on the EVM

Balances, allowances and the supply. A batch of transfers reads the balance of its sender once and
writes it once, and most of the arithmetic is done without checks. The name and the symbol are read
by no other function.
-/
namespace EvmErc20Gas

open Evm Body Holdings Transaction

inductive Event where
  | transfer (source dest : Address) (value : Nat)
  | approval (owner spender : Address) (value : Nat)
  deriving DecidableEq, Repr

inductive Error where
  | insufficientBalance (source : Address) (held want : Nat)
  | insufficientAllowance (spender : Address) (held want : Nat)
  | zeroAddress
  | lengthMismatch (tos amounts : Nat)
  | mintOverflow
  deriving DecidableEq, Repr

@[ext] structure State where
  totalSupply : Nat
  decimalsTs : Nat
  balanceOf : Address → Nat
  allowance : Address → Address → Nat
  events : List Event

/-- `type(uint128).max` -/
def maxSupply : Nat := 2 ^ 128 - 1

/-- `type(uint256).max`, an allowance that is not used up. -/
def unlimited : Nat := wordBound - 1

/-- `uint128(n)` -/
def narrow (n : Nat) : Nat := n % 2 ^ 128

/-- The constructor. The decimals are the lowest bits of a word with the time. -/
def deployed (timestamp decimals : Nat) : State :=
  { totalSupply := 0, decimalsTs := narrow (narrow timestamp <<< 8) ||| narrow decimals
    balanceOf := fun _ => 0, allowance := fun _ _ => 0, events := [] }

def decimals (s : State) : Nat := s.decimalsTs % 2 ^ 8

theorem decimals_deployed {timestamp n : Nat} (h : n < 2 ^ 8) :
    decimals (deployed timestamp n) = n := by
  have hshift : narrow (narrow timestamp <<< 8) % 2 ^ 8 = 0 := by
    rw [narrow, Nat.shiftLeft_eq]
    omega
  have hnarrow : narrow n % 2 ^ 8 = n := by
    rw [narrow]
    omega
  rw [decimals, deployed, Nat.or_mod_two_pow, hshift, hnarrow, Nat.zero_or]

/-! ## The functions -/

abbrev Fn (α : Type) := Body State Error α

def emit (e : Event) : Fn Unit := write fun s => { s with events := s.events ++ [e] }

def setBalance (a : Address) (n : Nat) : Fn Unit :=
  write fun s => { s with balanceOf := Function.update s.balanceOf a n }

def setAllowance (owner spender : Address) (n : Nat) : Fn Unit :=
  write fun s => { s with
    allowance := Function.update s.allowance owner (Function.update (s.allowance owner) spender n) }

/-- `_transfer` -/
def transferTokens (source dest : Address) (amount : Nat) : Fn Unit := do
  revertIf (dest = .zero) .zeroAddress
  let fromBal ← read (·.balanceOf source)
  revertIf (fromBal < amount) (.insufficientBalance source fromBal amount)
  setBalance source (uncheckedSub fromBal amount)
  let toBal ← read (·.balanceOf dest)
  setBalance dest (uncheckedAdd toBal amount)
  emit (.transfer source dest amount)

def transfer (dest : Address) (amount : Nat) : Fn Bool := do
  nonPayable
  let msg ← message
  transferTokens msg.sender dest amount
  return true

/-- What `transferFrom` does with the allowance. -/
def useAllowance (source spender : Address) (amount : Nat) : Fn Unit := do
  let current ← read (·.allowance source spender)
  if current = unlimited then pure () else do
  revertIf (current < amount) (.insufficientAllowance spender current amount)
  setAllowance source spender (uncheckedSub current amount)

def transferFrom (source dest : Address) (amount : Nat) : Fn Bool := do
  nonPayable
  let msg ← message
  useAllowance source msg.sender amount
  transferTokens source dest amount
  return true

/-- The loop of `batchTransfer`, which returns what has been spent. -/
def batchRounds (sender : Address) : List (Address × Nat) → Nat → Fn Nat
  | [], spent => pure spent
  | (dest, amount) :: rest, spent => do
    revertIf (dest = .zero) .zeroAddress
    let spent ← addWord spent amount
    emit (.transfer sender dest amount)
    let toBal ← read (·.balanceOf dest)
    let sum ← addWord toBal amount
    setBalance dest sum
    batchRounds sender rest spent

def batchTransfer (tos : List Address) (amounts : List Nat) : Fn Bool := do
  nonPayable
  decodeLength tos.length
  decodeLength amounts.length
  let msg ← message
  revertIf (tos.length ≠ amounts.length) (.lengthMismatch tos.length amounts.length)
  let senderBal ← read (·.balanceOf msg.sender)
  let spent ← batchRounds msg.sender (tos.zip amounts) 0
  revertIf (senderBal < spent) (.insufficientBalance msg.sender senderBal spent)
  setBalance msg.sender (uncheckedSub senderBal spent)
  return true

def approve (spender : Address) (amount : Nat) : Fn Bool := do
  nonPayable
  let msg ← message
  setAllowance msg.sender spender amount
  emit (.approval msg.sender spender amount)
  return true

def mint (dest : Address) (amount : Nat) : Fn Unit := do
  nonPayable
  revertIf (dest = .zero) .zeroAddress
  let totalSupply ← read (·.totalSupply)
  let nextTotal ← addWord totalSupply amount
  revertIf (maxSupply < nextTotal) .mintOverflow
  write ({ · with totalSupply := narrow nextTotal })
  let bal ← read (·.balanceOf dest)
  setBalance dest (uncheckedAdd bal amount)
  emit (.transfer .zero dest amount)

def burn (amount : Nat) : Fn Unit := do
  nonPayable
  let msg ← message
  let bal ← read (·.balanceOf msg.sender)
  revertIf (bal < amount) (.insufficientBalance msg.sender bal amount)
  setBalance msg.sender (uncheckedSub bal amount)
  write fun s => { s with totalSupply := narrow (uncheckedSub s.totalSupply amount) }
  emit (.transfer msg.sender .zero amount)

inductive Function where
  | transfer (dest : Address) (amount : Nat)
  | transferFrom (source dest : Address) (amount : Nat)
  | batchTransfer (tos : List Address) (amounts : List Nat)
  | approve (spender : Address) (amount : Nat)
  | mint (dest : Address) (amount : Nat)
  | burn (amount : Nat)
  deriving DecidableEq, Repr

/-- The functions that return a `bool` all return `true`. -/
def Function.body : Function → Fn Unit
  | .transfer dest amount => do let _ ← EvmErc20Gas.transfer dest amount
  | .transferFrom source dest amount => do let _ ← EvmErc20Gas.transferFrom source dest amount
  | .batchTransfer tos amounts => do let _ ← EvmErc20Gas.batchTransfer tos amounts
  | .approve spender amount => do let _ ← EvmErc20Gas.approve spender amount
  | .mint dest amount => EvmErc20Gas.mint dest amount
  | .burn amount => EvmErc20Gas.burn amount

/-- The token calls no other contract. -/
def system : System (Message × Function) State (Revert Error) Unit := fun c s => c.2.body c.1 s

/-! ## What the calls are to do -/

namespace State

def withBalance (s : State) (a : Address) (n : Nat) : State :=
  { s with balanceOf := Function.update s.balanceOf a n }

def withAllowance (s : State) (owner spender : Address) (n : Nat) : State :=
  { s with
    allowance := Function.update s.allowance owner (Function.update (s.allowance owner) spender n) }

def logged (s : State) (e : Event) : State := { s with events := s.events ++ [e] }

def moved (s : State) (source dest : Address) (amount : Nat) : State :=
  let t := s.withBalance source (s.balanceOf source - amount)
  (t.withBalance dest (t.balanceOf dest + amount)).logged (.transfer source dest amount)

def used (s : State) (source spender : Address) (amount : Nat) : State :=
  if s.allowance source spender = unlimited then s
  else s.withAllowance source spender (s.allowance source spender - amount)

/-- All entries of a batch are credited, and nobody is debited yet. -/
def credited (sender : Address) : List (Address × Nat) → State → State
  | [], s => s
  | (dest, amount) :: rest, s => credited sender rest
      ((s.logged (.transfer sender dest amount)).withBalance dest (s.balanceOf dest + amount))

end State

def spent (entries : List (Address × Nat)) : Nat := (entries.map Prod.snd).sum

/-- What a batch sends to an account. -/
def sentTo (a : Address) (entries : List (Address × Nat)) : Nat :=
  spent (entries.filter (·.1 = a))

namespace State

def batched (s : State) (sender : Address) (entries : List (Address × Nat)) : State :=
  (credited sender entries s).withBalance sender (s.balanceOf sender - spent entries)

def minted (s : State) (dest : Address) (amount : Nat) : State :=
  { (s.withBalance dest (s.balanceOf dest + amount)).logged (.transfer .zero dest amount) with
    totalSupply := s.totalSupply + amount }

def burnt (s : State) (a : Address) (amount : Nat) : State :=
  { (s.withBalance a (s.balanceOf a - amount)).logged (.transfer a .zero amount) with
    totalSupply := s.totalSupply - amount }

end State

/-- The token as it is meant, whose amounts have no bounds. -/
inductive Does (m : Message) (s : State) : Function → State → Prop
  | transfer {dest amount} (hdest : dest ≠ .zero) (held : amount ≤ s.balanceOf m.sender) :
      Does m s (.transfer dest amount) (s.moved m.sender dest amount)
  | transferFrom {source dest amount}
      (allowed : s.allowance source m.sender = unlimited ∨ amount ≤ s.allowance source m.sender)
      (hdest : dest ≠ .zero) (held : amount ≤ s.balanceOf source) :
      Does m s (.transferFrom source dest amount)
        ((s.used source m.sender amount).moved source dest amount)
  | batchTransfer {tos amounts} (length : tos.length = amounts.length)
      (encoded : tos.length < 2 ^ 64) (hdest : ∀ e ∈ tos.zip amounts, e.1 ≠ .zero)
      (held : spent (tos.zip amounts) ≤ s.balanceOf m.sender) :
      Does m s (.batchTransfer tos amounts) (s.batched m.sender (tos.zip amounts))
  | approve {spender amount} :
      Does m s (.approve spender amount)
        ((s.withAllowance m.sender spender amount).logged (.approval m.sender spender amount))
  | mint {dest amount} (hdest : dest ≠ .zero) (fits : s.totalSupply + amount ≤ maxSupply) :
      Does m s (.mint dest amount) (s.minted dest amount)
  | burn {amount} (held : amount ≤ s.balanceOf m.sender) :
      Does m s (.burn amount) (s.burnt m.sender amount)

/-- The balances add up to no more than the supply, which has its bound. -/
structure Sane (s : State) : Prop where
  sums : ∃ n, Sums s.balanceOf n ∧ n ≤ s.totalSupply
  supply : s.totalSupply ≤ maxSupply

theorem sane_deployed (timestamp n : Nat) : Sane (deployed timestamp n) where
  sums := ⟨0, sums_zero, Nat.le_refl 0⟩
  supply := Nat.zero_le _

variable {m : Message} {s s' : State} {f : Function} {source dest sender spender a : Address}
  {amount k r n : Nat} {entries : List (Address × Nat)} {u : Unit}

theorem Sane.balance_le (h : Sane s) (a : Address) : s.balanceOf a ≤ s.totalSupply := by
  obtain ⟨n, hsums, hn⟩ := h.sums
  exact (hsums.le a).trans hn

/-- Two balances, or a balance and an amount that is held, never fill a word. -/
theorem Sane.lt_wordBound (h : Sane s) (a b : Address) :
    s.balanceOf a + s.balanceOf b < wordBound := by
  have ha := h.balance_le a
  have hb := h.balance_le b
  have hsupply := h.supply
  rw [maxSupply] at hsupply
  rw [wordBound]
  omega

/-! ## Balances after the updates -/

@[simp] theorem withBalance_self (s : State) (a : Address) (n : Nat) :
    (s.withBalance a n).balanceOf a = n := by
  simp [State.withBalance]

theorem withBalance_other (s : State) (n : Nat) {a b : Address} (h : b ≠ a) :
    (s.withBalance a n).balanceOf b = s.balanceOf b := by
  simp [State.withBalance, h]

@[simp] theorem used_balanceOf (s : State) (source spender : Address) (amount : Nat) :
    (s.used source spender amount).balanceOf = s.balanceOf := by
  rw [State.used]
  split <;> rfl

@[simp] theorem used_totalSupply (s : State) (source spender : Address) (amount : Nat) :
    (s.used source spender amount).totalSupply = s.totalSupply := by
  rw [State.used]
  split <;> rfl

@[simp] theorem spent_cons (e : Address × Nat) (rest : List (Address × Nat)) :
    spent (e :: rest) = e.2 + spent rest := by simp [spent]

theorem sentTo_cons_self (a : Address) (amount : Nat) (rest : List (Address × Nat)) :
    sentTo a ((a, amount) :: rest) = amount + sentTo a rest := by
  simp [sentTo]

theorem sentTo_cons_other (amount : Nat) (rest : List (Address × Nat)) (h : dest ≠ a) :
    sentTo a ((dest, amount) :: rest) = sentTo a rest := by
  simp [sentTo, h]

theorem sentTo_le_spent (a : Address) (entries : List (Address × Nat)) :
    sentTo a entries ≤ spent entries := by
  induction entries with
  | nil => exact Nat.le_refl 0
  | cons e rest ih =>
    obtain ⟨dest, amount⟩ := e
    rw [spent_cons]
    by_cases h : dest = a
    · subst h
      rw [sentTo_cons_self]
      exact Nat.add_le_add_left ih amount
    · rw [sentTo_cons_other amount rest h]
      exact ih.trans (Nat.le_add_left _ _)

theorem sentTo_cons (a : Address) (e : Address × Nat) (rest : List (Address × Nat)) :
    sentTo a (e :: rest) = (if e.1 = a then e.2 else 0) + sentTo a rest := by
  obtain ⟨dest, amount⟩ := e
  by_cases h : dest = a
  · subst h
    rw [sentTo_cons_self, if_pos rfl]
  · rw [sentTo_cons_other amount rest h, if_neg h, Nat.zero_add]

theorem credited_eq (sender : Address) (entries : List (Address × Nat)) (s : State) :
    s.credited sender entries =
      { s with
        balanceOf := fun a => s.balanceOf a + sentTo a entries
        events := s.events ++ entries.map fun e => .transfer sender e.1 e.2 } := by
  induction entries generalizing s with
  | nil => exact State.ext rfl rfl rfl rfl (List.append_nil s.events).symm
  | cons e rest ih =>
    rw [State.credited, ih]
    refine State.ext rfl rfl ?_ rfl (List.append_assoc _ _ _)
    funext a
    show (State.withBalance _ _ _).balanceOf a + _ = s.balanceOf a + sentTo a (e :: rest)
    rw [sentTo_cons]
    by_cases h : e.1 = a
    · subst h
      rw [withBalance_self, if_pos rfl, Nat.add_assoc]
    · rw [withBalance_other _ _ (Ne.symm h), if_neg h, Nat.zero_add]
      rfl

theorem credited_balanceOf (sender a : Address) (entries : List (Address × Nat)) (s : State) :
    (s.credited sender entries).balanceOf a = s.balanceOf a + sentTo a entries := by
  rw [credited_eq]

@[simp] theorem credited_totalSupply (sender : Address) (entries : List (Address × Nat))
    (s : State) : (s.credited sender entries).totalSupply = s.totalSupply := by
  rw [credited_eq]

/-! ## The functions do what they are to do -/

theorem transferTokens_ok (h : Sane s) : transferTokens source dest amount m s = .ok (u, s') ↔
    dest ≠ .zero ∧ amount ≤ s.balanceOf source ∧ s.moved source dest amount = s' := by
  simp only [transferTokens, setBalance, emit, bind_ok, revertIf_ok, read_ok, write_ok, and_assoc,
    exists_and_left, exists_eq_left', exists_const, not_lt]
  refine and_congr_right fun _ => and_congr_right fun hheld => ?_
  have hsub : uncheckedSub (s.balanceOf source) amount = s.balanceOf source - amount :=
    uncheckedSub_eq hheld
  have hbound : (s.withBalance source (s.balanceOf source - amount)).balanceOf dest + amount <
      wordBound := by
    have hlt := h.lt_wordBound source dest
    by_cases he : dest = source
    · rw [he, withBalance_self]
      omega
    · rw [withBalance_other _ _ he]
      omega
  have hadd := uncheckedAdd_eq hbound
  rw [hsub]
  show _ = _ ↔ _
  rw [State.moved, ← hadd]
  rfl

theorem useAllowance_ok : useAllowance source spender amount m s = .ok (u, s') ↔
    (s.allowance source spender = unlimited ∨ amount ≤ s.allowance source spender) ∧
      s.used source spender amount = s' := by
  simp only [useAllowance, setAllowance, bind_ok, ite_ok, pure_ok, revertIf_ok, read_ok, write_ok,
    and_assoc, exists_and_left, exists_eq_left', exists_const, not_lt, true_and, State.used]
  by_cases hun : s.allowance source spender = unlimited
  · simp [hun]
  · simp only [hun, false_and, not_false_eq_true, true_and, false_or, if_false]
    refine and_congr_right fun hle => ?_
    rw [uncheckedSub_eq hle]
    rfl

/-- What the loop has done when it ends. -/
theorem batchRounds_sound (h : batchRounds sender entries k m s = .ok (r, s')) :
    (∀ e ∈ entries, e.1 ≠ .zero) ∧ r = k + spent entries ∧ s' = s.credited sender entries := by
  induction entries generalizing k s with
  | nil =>
    obtain ⟨rfl, rfl⟩ := pure_ok.mp h
    exact ⟨List.forall_mem_nil _, rfl, rfl⟩
  | cons e rest ih =>
    obtain ⟨dest, amount⟩ := e
    simp only [batchRounds, setBalance, emit, bind_ok, revertIf_ok, read_ok, write_ok, addWord_ok,
      and_assoc, exists_and_left, exists_eq_left', exists_const] at h
    obtain ⟨hdest, -, -, hrest⟩ := h
    obtain ⟨hall, hr, hs⟩ := ih hrest
    refine ⟨List.forall_mem_cons.mpr ⟨hdest, hall⟩, ?_, hs⟩
    rw [hr, spent_cons, Nat.add_assoc]

/-- The loop goes through while the amounts fit in a word together with all that is held. -/
theorem batchRounds_complete (hdest : ∀ e ∈ entries, e.1 ≠ .zero) (hsums : Sums s.balanceOf n)
    (hn : n + spent entries < wordBound) (hk : k + spent entries < wordBound) :
    batchRounds sender entries k m s = .ok (k + spent entries, s.credited sender entries) := by
  induction entries generalizing k s n with
  | nil => rfl
  | cons e rest ih =>
    obtain ⟨dest, amount⟩ := e
    rw [spent_cons] at hn hk
    obtain ⟨hfirst, hothers⟩ := List.forall_mem_cons.mp hdest
    have hheld := hsums.le dest
    have hnext : Sums ((s.logged (.transfer sender dest amount)).withBalance dest
        (s.balanceOf dest + amount)).balanceOf (n + amount) := by
      refine hsums.change (a := dest) (fun b hb => withBalance_other _ _ hb) ?_
      rw [withBalance_self]
      omega
    have hrest := ih (k := k + amount) hothers hnext (by omega) (by omega)
    simp only [batchRounds, setBalance, emit, bind_ok, revertIf_ok, read_ok, write_ok, addWord_ok,
      and_assoc, exists_and_left, exists_eq_left', exists_const]
    refine ⟨hfirst, by omega, by omega, ?_⟩
    rw [spent_cons, ← Nat.add_assoc]
    exact hrest

theorem batchTransfer_ok (h : Sane s) {tos : List Address} {amounts : List Nat} {b : Bool} :
    batchTransfer tos amounts m s = .ok (b, s') ↔
      m.value = 0 ∧ tos.length = amounts.length ∧ tos.length < 2 ^ 64 ∧
        (∀ e ∈ tos.zip amounts, e.1 ≠ .zero) ∧
          spent (tos.zip amounts) ≤ s.balanceOf m.sender ∧ b = true ∧
            s' = s.batched m.sender (tos.zip amounts) := by
  simp only [batchTransfer, setBalance, bind_ok, revertIf_ok, read_ok, write_ok, nonPayable_ok,
    decodeLength_ok, message_ok, pure_ok, and_assoc, exists_and_left, exists_eq_left',
    exists_const, not_lt, not_not]
  refine and_congr_right fun _ => ?_
  constructor
  · rintro ⟨hlong, -, hlength, spentAll, t, hrounds, hheld, hb, hs⟩
    obtain ⟨hdest, hspent, rfl⟩ := batchRounds_sound hrounds
    rw [Nat.zero_add] at hspent
    subst hspent
    rw [uncheckedSub_eq hheld] at hs
    exact ⟨hlength, hlong, hdest, hheld, hb.symm, hs.symm⟩
  · rintro ⟨hlength, hlong, hdest, hheld, rfl, rfl⟩
    obtain ⟨n, hsums, hn⟩ := h.sums
    have hbalance := h.balance_le m.sender
    have hsupply := h.supply
    rw [maxSupply] at hsupply
    have hrounds : batchRounds m.sender (tos.zip amounts) 0 m s =
        .ok (0 + spent (tos.zip amounts), s.credited m.sender (tos.zip amounts)) :=
      batchRounds_complete hdest hsums (by rw [wordBound]; omega) (by rw [wordBound]; omega)
    rw [Nat.zero_add] at hrounds
    refine ⟨hlong, hlength ▸ hlong, hlength, _, _, hrounds, hheld, rfl, ?_⟩
    rw [uncheckedSub_eq hheld]
    rfl

theorem mint_ok (h : Sane s) : mint dest amount m s = .ok (u, s') ↔
    m.value = 0 ∧ dest ≠ .zero ∧ s.totalSupply + amount ≤ maxSupply ∧
      s.minted dest amount = s' := by
  simp only [mint, setBalance, emit, bind_ok, revertIf_ok, read_ok, write_ok, addWord_ok,
    nonPayable_ok, and_assoc, exists_and_left, exists_eq_left', exists_const, not_lt]
  refine and_congr_right fun _ => and_congr_right fun _ => ?_
  have hbalance := h.balance_le dest
  constructor
  · rintro ⟨-, hfits, rfl⟩
    refine ⟨hfits, ?_⟩
    rw [maxSupply] at hfits
    have hadd : uncheckedAdd (s.balanceOf dest) amount = s.balanceOf dest + amount :=
      uncheckedAdd_eq (by rw [wordBound]; omega)
    have hnarrow : narrow (s.totalSupply + amount) = s.totalSupply + amount :=
      Nat.mod_eq_of_lt (by omega)
    rw [hadd, hnarrow]
    rfl
  · rintro ⟨hfits, rfl⟩
    have hbound := hfits
    rw [maxSupply] at hbound
    refine ⟨by rw [wordBound]; omega, hfits, ?_⟩
    have hadd : uncheckedAdd (s.balanceOf dest) amount = s.balanceOf dest + amount :=
      uncheckedAdd_eq (by rw [wordBound]; omega)
    have hnarrow : narrow (s.totalSupply + amount) = s.totalSupply + amount :=
      Nat.mod_eq_of_lt (by omega)
    rw [hadd, hnarrow]
    rfl

theorem burn_ok (h : Sane s) : burn amount m s = .ok (u, s') ↔
    m.value = 0 ∧ amount ≤ s.balanceOf m.sender ∧ s.burnt m.sender amount = s' := by
  simp only [burn, setBalance, emit, bind_ok, revertIf_ok, read_ok, write_ok, message_ok,
    nonPayable_ok, and_assoc, exists_and_left, exists_eq_left', exists_const, not_lt]
  refine and_congr_right fun _ => and_congr_right fun hheld => ?_
  have hbalance := h.balance_le m.sender
  have hsupply := h.supply
  rw [maxSupply] at hsupply
  have hsub : uncheckedSub (s.balanceOf m.sender) amount = s.balanceOf m.sender - amount :=
    uncheckedSub_eq hheld
  have hnarrow : narrow (uncheckedSub s.totalSupply amount) = s.totalSupply - amount := by
    rw [uncheckedSub_eq (hheld.trans hbalance)]
    exact Nat.mod_eq_of_lt (by omega)
  rw [hsub]
  show _ = _ ↔ _
  rw [hnarrow]
  rfl

end EvmErc20Gas
