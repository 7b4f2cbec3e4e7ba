import AgenticPay.EvmErc4337

/-!
# What a call of the paymaster does

The balances, the total and what is kept beside the storage, and what an accepted call and the
answer of a token make of them.
-/
namespace EvmErc4337

open Evm Body ExternalCalls

/-- The balances, the total and what is kept beside the storage. -/
structure Book where
  balance : Address → Nat
  totalSponsored : Nat
  validated : List Operation
  deposited : Address → Nat

def State.book (s : State) : Book :=
  ⟨fun user => (s.budgets user).balance, s.totalSponsored, s.validated, s.deposited⟩

def Book.setBalance (b : Book) (user : Address) (n : Nat) : Book :=
  { b with balance := Function.update b.balance user n }

theorem setBalance_self (b : Book) (user : Address) (n : Nat) :
    (b.setBalance user n).balance user = n :=
  Function.update_self ..

theorem setBalance_other {b : Book} {user a : Address} {n : Nat} (h : a ≠ user) :
    (b.setBalance user n).balance a = b.balance a :=
  Function.update_of_ne h ..

/-- The total after the budget has been charged. -/
def totalCharged (context : Context) (cost total : Nat) : Nat :=
  if context.mode = .deposit then uncheckedAdd total cost else total

/-- The balances after the budget has been charged. -/
def Book.charged (b : Book) (context : Context) (cost : Nat) : Book :=
  if context.mode = .deposit then
    b.setBalance context.sender (b.balance context.sender - cost)
  else b

variable {p : Primitives} {s s' : State} {msg : Message} {o : Option Rest}
  {f : Function} {u : Unit} {context : Context} {cost maxCost : Nat} {user : Address}
  {op : Operation}

theorem onlyOwner_ok : onlyOwner msg s = .ok (u, s') ↔ msg.sender = s.owner ∧ s = s' := by
  simp only [onlyOwner, message_bind, read_bind, revertIf_ok, ne_eq, not_not]

theorem onlyEntryPoint_ok :
    onlyEntryPoint msg s = .ok (u, s') ↔ msg.sender = s.entryPoint ∧ s = s' := by
  simp only [onlyEntryPoint, message_bind, read_bind, revertIf_ok, ne_eq, not_not]

theorem book_setBalance (s : State) (user : Address) (n : Nat) :
    ({ s with budgets := Function.update s.budgets user { s.budgets user with balance := n } } :
      State).book = s.book.setBalance user n := by
  simp only [State.book, Book.setBalance, Book.mk.injEq, and_true]
  funext a
  by_cases ha : a = user
  · simp [ha]
  · simp [ha]

/-! ## What a call does -/

/-- The state with the budget charged. -/
def chargedState (s : State) (context : Context) (cost : Nat) : State :=
  { s with
    budgets :=
      if context.mode = .deposit then
        Function.update s.budgets context.sender
          { s.budgets context.sender with
            balance := (s.budgets context.sender).balance - cost }
      else s.budgets
    totalSponsored := totalCharged context cost s.totalSponsored }

/-- The budget of the operation pays for it, if one has to. -/
def Pays (s : State) (context : Context) (cost : Nat) : Prop :=
  context.mode = .deposit → cost ≤ (s.budgets context.sender).balance

theorem chargeBudget_ok : chargeBudget context cost msg s = .ok (u, s') ↔
    Pays s context cost ∧ chargedState s context cost = s' := by
  by_cases hmode : context.mode = .deposit
  · simp only [chargeBudget, Pays, chargedState, totalCharged, hmode, if_true, read_bind,
      revertIf_bind_ok, setBalance, write_bind, write_ok, forall_const, Nat.not_lt]
    constructor
    · rintro ⟨hle, rfl⟩
      exact ⟨hle, by rw [uncheckedSub_eq hle]⟩
    · rintro ⟨hle, rfl⟩
      exact ⟨hle, by rw [uncheckedSub_eq hle]⟩
  · simp only [chargeBudget, Pays, chargedState, totalCharged, hmode, if_false, pure_ok,
      false_implies, true_and]

/-- What `postOp` checks. -/
structure Payable (s : State) (msg : Message) (context : Context) (cost : Nat) : Prop where
  unpaid : msg.value = 0
  entryPoint : msg.sender = s.entryPoint
  pays : Pays s context cost
  recorded : totalCharged context cost s.totalSponsored + cost < wordBound

/-- The state that `postOp` leaves. -/
def afterPostOp (s : State) (context : Context) (cost : Nat) : State :=
  { chargedState s context cost with
    totalSponsored := totalCharged context cost s.totalSponsored + cost
    events := s.events ++ [.userOperationSponsored context.sender 0 0 cost] }

theorem postOp_ok : postOp context cost msg s = .ok (u, s') ↔
    Payable s msg context cost ∧ afterPostOp s context cost = s' := by
  simp only [postOp, nonPayable_bind_ok, guard_bind_ok onlyEntryPoint_ok,
    guard_bind_ok chargeBudget_ok, read_bind, addWord_bind_ok, write_bind, emit, write_ok]
  constructor
  · rintro ⟨hunpaid, hentry, hpays, hrecorded, rfl⟩
    exact ⟨⟨hunpaid, hentry, hpays, hrecorded⟩, rfl⟩
  · rintro ⟨⟨hunpaid, hentry, hpays, hrecorded⟩, rfl⟩
    exact ⟨hunpaid, hentry, hpays, hrecorded, rfl⟩

theorem charged_deposited (b : Book) (context : Context) (cost : Nat) :
    (b.charged context cost).deposited = b.deposited := by
  rw [Book.charged]
  split <;> rfl

/-- The book of the settlement of an operation. -/
def Book.settled (b : Book) (op : Operation) (cost : Nat) : Book :=
  { b.charged op.context cost with
    totalSponsored := totalCharged op.context cost b.totalSponsored + cost
    validated := b.validated.erase op }

theorem book_settled (s : State) (op : Operation) (cost : Nat) :
    ({ afterPostOp s op.context cost with validated := s.validated.erase op } : State).book =
      s.book.settled op cost := by
  have hbalance : (fun user => ((chargedState s op.context cost).budgets user).balance) =
      (s.book.charged op.context cost).balance := by
    by_cases hmode : op.context.mode = .deposit
    · simp only [chargedState, hmode, if_true, Book.charged]
      have hbook := congrArg Book.balance (book_setBalance s op.context.sender
        ((s.budgets op.context.sender).balance - cost))
      exact hbook
    · simp only [chargedState, hmode, if_false, Book.charged]
      rfl
  have hdeposited : s.deposited = (s.book.charged op.context cost).deposited :=
    (charged_deposited s.book op.context cost).symm
  simp only [State.book, afterPostOp, Book.settled, Book.mk.injEq, true_and]
  exact ⟨hbalance, hdeposited⟩

/-- The mode and the sender of the context of a validated operation. -/
structure Validates (s : State) (userOp : UserOperation) (context : Context) (maxCost : Nat) :
    Prop where
  sender : context.mode = .deposit → context.sender = userOp.sender
  deposit : context.mode = .deposit → ∃ signature, userOp.paymasterData = some (.deposit, signature)
  covered : context.mode = .deposit → maxCost ≤ (s.budgets userOp.sender).balance

theorem validatePaymasterUserOp_ok {userOp : UserOperation} {userOpHash : Bytes32}
    (h : validatePaymasterUserOp p userOp userOpHash maxCost msg s = .ok (context, s')) :
    s = s' ∧ Validates s userOp context maxCost := by
  simp only [validatePaymasterUserOp, nonPayable_bind_ok, guard_bind_ok onlyEntryPoint_ok] at h
  obtain ⟨_, _, h⟩ := h
  rcases hdata : userOp.paymasterData with _ | ⟨mode, signature⟩
  · simp only [hdata, revert_ok] at h
  · cases mode with
    | none => simp only [hdata, revert_ok] at h
    | verifying =>
      simp only [hdata, validateVerifying] at h
      cases hsplit : splitSignature signature with
      | none => simp only [hsplit, revert_ok] at h
      | some sig =>
        simp only [hsplit, read_bind, revertIf_bind_ok, pure_ok] at h
        obtain ⟨_, rfl, rfl⟩ := h
        have hmode : PaymasterMode.verifying ≠ .deposit := by decide
        exact ⟨rfl, fun h => absurd h hmode, fun h => absurd h hmode, fun h => absurd h hmode⟩
    | deposit =>
      simp only [hdata, validateDeposit, read_bind, revertIf_bind_ok, pure_ok, Nat.not_lt] at h
      obtain ⟨hcovered, _, rfl, rfl⟩ := h
      exact ⟨rfl, fun _ => rfl, fun _ => ⟨signature, hdata⟩, fun _ => hcovered⟩

/-- What an accepted call has checked, what it has left to do, and what it leaves. -/
inductive Step (msg : Message) (s : State) : Function → Option Rest → Book → Prop
  | validated {userOp : UserOperation} {userOpHash : Bytes32} {maxCost : Nat} {context : Context}
      (validates : Validates s userOp context maxCost) :
      Step msg s (.validatePaymasterUserOp userOp userOpHash maxCost) none
        { s.book with validated := s.book.validated ++ [⟨context, maxCost⟩] }
  | settled {op : Operation} {cost : Nat} (payable : Payable s msg op.context cost) :
      Step msg s (.postOp op cost) none
        (s.book.settled op cost)
  | deposits {token amount} :
      Step msg s (.depositBudget token amount) (some (.deposit msg.sender token amount))
        { s.book with
          deposited :=
            Function.update s.book.deposited msg.sender (s.book.deposited msg.sender + amount) }
  | withdraws {token amount} (covered : amount ≤ (s.budgets msg.sender).balance) :
      Step msg s (.withdrawBudget token amount) (some (.withdraw msg.sender token amount))
        (s.book.setBalance msg.sender ((s.budgets msg.sender).balance - amount))
  | managed {g : Function} : Step msg s g none s.book

theorem managed_step {m : Fn Unit} (hm : ∀ {u : Unit} {t}, m msg s = .ok (u, t) → t.book = s.book)
    (h : done m msg s = .ok (o, s')) : Step msg s f o s'.book := by
  simp only [done, bind_ok, pure_ok] at h
  obtain ⟨_, t, ht, rfl, rfl⟩ := h
  rw [hm ht]
  exact .managed

theorem settled_step (h : body p (.postOp op cost) msg s = .ok (o, s')) :
    Step msg s (.postOp op cost) o s'.book := by
  simp only [body, bind_ok, postOp_ok, write_ok, pure_ok] at h
  obtain ⟨_, _, ⟨hpayable, rfl⟩, _, _, rfl, rfl, rfl⟩ := h
  have hstep := Step.settled hpayable
  rw [← book_settled] at hstep
  exact hstep

theorem withdrawBudget_step {token : Address} {amount : Nat}
    (h : withdrawBudget token amount msg s = .ok (o, s')) :
    Step msg s (.withdrawBudget token amount) o s'.book := by
  simp only [withdrawBudget, nonPayable_bind_ok, message_bind, read_bind, revertIf_bind_ok,
    setBalance, write_bind, pure_ok, Nat.not_lt] at h
  obtain ⟨_, hcovered, rfl, rfl⟩ := h
  rw [book_setBalance, uncheckedSub_eq hcovered]
  exact .withdraws hcovered

/-- Every accepted call is one of the steps. -/
theorem step_of_ok (h : body p f msg s = .ok (o, s')) : Step msg s f o s'.book := by
  cases f with
  | validatePaymasterUserOp userOp userOpHash maxCost =>
    simp only [body, bind_ok, write_ok, pure_ok] at h
    obtain ⟨context, t, hvalidate, _, _, rfl, rfl, rfl⟩ := h
    obtain ⟨rfl, hvalidates⟩ := validatePaymasterUserOp_ok hvalidate
    exact .validated hvalidates
  | postOp op cost => exact settled_step h
  | depositBudget token amount =>
    simp only [body, depositBudget, nonPayable_bind_ok, read_bind, revertIf_bind_ok, message_bind,
      write_bind, pure_ok] at h
    obtain ⟨_, _, rfl, rfl⟩ := h
    exact .deposits
  | withdrawBudget token amount => exact withdrawBudget_step h
  | setMaxGasPerTx user maxGas =>
    refine managed_step (fun hset => ?_) h
    simp only [setMaxGasPerTx, nonPayable_bind_ok, guard_bind_ok onlyOwner_ok, write_ok] at hset
    obtain ⟨_, _, rfl⟩ := hset
    simp only [State.book, Book.mk.injEq, and_true]
    funext a
    by_cases ha : a = user
    · simp [ha]
    · simp [ha]
  | setAcceptedToken token accepted =>
    refine managed_step (fun hset => ?_) h
    simp only [setAcceptedToken, nonPayable_bind_ok, guard_bind_ok onlyOwner_ok, revertIf_bind_ok,
      write_bind, emit, write_ok] at hset
    obtain ⟨_, _, _, rfl⟩ := hset
    rfl
  | setVerifyingSigner signer =>
    refine managed_step (fun hset => ?_) h
    simp only [setVerifyingSigner, nonPayable_bind_ok, guard_bind_ok onlyOwner_ok, revertIf_bind_ok,
      write_bind, emit, write_ok] at hset
    obtain ⟨_, _, _, rfl⟩ := hset
    rfl
  | transferOwnership newOwner =>
    refine managed_step (fun hset => ?_) h
    simp only [transferOwnership, nonPayable_bind_ok, guard_bind_ok onlyOwner_ok, revertIf_bind_ok,
      write_ok] at hset
    obtain ⟨_, _, _, rfl⟩ := hset
    rfl

/-- What the answer of a token makes of the balances. -/
def Book.answered (b : Book) : Rest → Book
  | .deposit user _ amount => b.setBalance user (uncheckedAdd (b.balance user) amount)
  | .withdraw _ _ _ => b

theorem finish_book {rest : Rest} {a : Answer} (h : finish rest a msg s = .ok (o, s')) :
    o = none ∧ s'.book = s.book.answered rest := by
  cases rest with
  | deposit user token amount =>
    simp only [finish, decodeTransfer_require_ok, read_bind, setBalance, write_bind, emit,
      pure_ok] at h
    obtain ⟨_, rfl, rfl⟩ := h
    exact ⟨rfl, book_setBalance s user _⟩
  | withdraw user token amount =>
    simp only [finish, require_bind_ok, emit, write_bind, pure_ok] at h
    obtain ⟨_, rfl, rfl⟩ := h
    exact ⟨rfl, rfl⟩

end EvmErc4337
