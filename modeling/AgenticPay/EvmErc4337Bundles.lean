import AgenticPay.EvmErc4337Steps
import Mathlib.Algebra.BigOperators.Group.List.Basic
import Mathlib.Algebra.Order.BigOperators.Group.List

/-!
# Bundles of user operations

A validation looks at the budget and takes nothing from it: several operations can be validated
against one balance, and the balance can be withdrawn before they are settled. Where each
validation and each withdrawal leaves what has been validated, every settlement goes through.
-/
namespace EvmErc4337

open Evm Body ExternalCalls Transaction

/-- What the settlement of an operation takes from the budget of a user at most. -/
def charge (user : Address) (op : Operation) : Nat :=
  if op.context.mode = .deposit ∧ op.context.sender = user then op.maxCost else 0

/-- What is validated against the budget of a user. -/
def owed (ops : List Operation) (user : Address) : Nat := (ops.map (charge user)).sum

/-- What the settlement of an operation adds to the total at most: it is added twice where a
budget pays. -/
def weight (op : Operation) : Nat :=
  if op.context.mode = .deposit then op.maxCost + op.maxCost else op.maxCost

def exposure (ops : List Operation) : Nat := (ops.map weight).sum

variable {p : Primitives} {s s' : State} {b : Book} {msg : Message} {o : Option Rest}
  {f : Function} {context : Context} {cost maxCost : Nat} {user : Address}
  {op : Operation} {ops : List Operation}

/-! ## What is reserved -/

theorem owed_append (ops : List Operation) (op : Operation) (user : Address) :
    owed (ops ++ [op]) user = owed ops user + charge user op := by
  rw [owed, List.map_append, List.sum_append]
  rfl

theorem owed_erase (h : op ∈ ops) (user : Address) :
    charge user op + owed (ops.erase op) user = owed ops user :=
  List.sum_map_erase _ h

theorem exposure_append (ops : List Operation) (op : Operation) :
    exposure (ops ++ [op]) = exposure ops + weight op := by
  rw [exposure, List.map_append, List.sum_append]
  rfl

theorem exposure_erase (h : op ∈ ops) : weight op + exposure (ops.erase op) = exposure ops :=
  List.sum_map_erase _ h

theorem charge_self (hmode : op.context.mode = .deposit) :
    charge op.context.sender op = op.maxCost :=
  if_pos ⟨hmode, rfl⟩

theorem charge_other (h : op.context.mode ≠ .deposit ∨ op.context.sender ≠ user) :
    charge user op = 0 := by
  apply if_neg
  rintro ⟨hmode, hsender⟩
  obtain h | h := h
  · exact h hmode
  · exact h hsender

/-- What a waiting call has still to add to the balance of a user. -/
def inFlight (user : Address) (frame : Frame State Rest) : Nat :=
  match frame.rest with
  | .deposit depositor _ amount => if depositor = user then amount else 0
  | .withdraw _ _ _ => 0

def pending (frames : List (Frame State Rest)) (user : Address) : Nat :=
  (frames.map (inFlight user)).sum

/-- The balances cover what is validated against them, and no counter is near its bound. -/
structure Reserved (b : Book) (frames : List (Frame State Rest)) : Prop where
  covered : ∀ user, owed b.validated user ≤ b.balance user
  recorded : b.totalSponsored + exposure b.validated < wordBound
  credited : ∀ user, b.balance user + pending frames user ≤ b.deposited user
  bounded : ∀ user, b.deposited user < wordBound

/-- A validation and a withdrawal leave what has been validated, and no user deposits a word. -/
structure Covered (s : State) (c : Call) : Prop where
  validation : ∀ userOp userOpHash maxCost signature,
    c.function = .validatePaymasterUserOp userOp userOpHash maxCost →
    userOp.paymasterData = some (.deposit, signature) →
    maxCost ≤ (s.budgets userOp.sender).balance →
      owed s.validated userOp.sender + maxCost ≤ (s.budgets userOp.sender).balance
  record : ∀ userOp userOpHash maxCost,
    c.function = .validatePaymasterUserOp userOp userOpHash maxCost →
      s.totalSponsored + exposure s.validated + (maxCost + maxCost) < wordBound
  withdrawal : ∀ token amount, c.function = .withdrawBudget token amount →
    amount ≤ (s.budgets c.msg.sender).balance →
      owed s.validated c.msg.sender + amount ≤ (s.budgets c.msg.sender).balance
  deposit : ∀ token amount, c.function = .depositBudget token amount →
    s.deposited c.msg.sender + amount < wordBound

/-- The entry point settles what has been validated, at a cost up to the validated one. -/
def Settling (s : State) (c : Call) : Prop :=
  ∀ op cost, c.function = .postOp op cost → c.msg.sender = s.entryPoint →
    op ∈ s.validated ∧ cost ≤ op.maxCost

namespace Reserved

variable {frames : List (Frame State Rest)}

theorem validated (h : Reserved b frames) {op : Operation}
    (hcovered : ∀ user, owed b.validated user + charge user op ≤ b.balance user)
    (hrecorded : b.totalSponsored + exposure b.validated + weight op < wordBound) :
    Reserved { b with validated := b.validated ++ [op] } frames := by
  refine ⟨fun user => ?_, ?_, h.credited, h.bounded⟩
  · rw [owed_append]
    exact hcovered user
  · rw [exposure_append, ← Nat.add_assoc]
    exact hrecorded

/-- A validated operation is paid for, and the counter takes it. -/
theorem pays (h : Reserved b frames) (hmem : op ∈ b.validated) (hcost : cost ≤ op.maxCost) :
    (op.context.mode = .deposit → cost ≤ b.balance op.context.sender) ∧
      totalCharged op.context cost b.totalSponsored + cost ≤
        b.totalSponsored + weight op ∧
      totalCharged op.context cost b.totalSponsored + cost < wordBound := by
  have hrecorded := h.recorded
  have hexposure := exposure_erase hmem
  by_cases hmode : op.context.mode = .deposit
  · have howed := owed_erase hmem op.context.sender
    have hcovered := h.covered op.context.sender
    rw [charge_self hmode] at howed
    rw [weight, if_pos hmode] at hexposure ⊢
    have hadd : uncheckedAdd b.totalSponsored cost = b.totalSponsored + cost := by
      apply uncheckedAdd_eq
      omega
    rw [totalCharged, if_pos hmode, hadd]
    exact ⟨fun _ => by omega, by omega, by omega⟩
  · rw [weight, if_neg hmode] at hexposure ⊢
    rw [totalCharged, if_neg hmode]
    exact ⟨fun hdeposit => (hmode hdeposit).elim, by omega, by omega⟩

theorem settled (h : Reserved b frames) (hmem : op ∈ b.validated) (hcost : cost ≤ op.maxCost) :
    Reserved (b.settled op cost) frames := by
  obtain ⟨hpays, htotal, _⟩ := h.pays hmem hcost
  have hexposure := exposure_erase hmem
  have hrecorded := h.recorded
  have hbalance : ∀ user, (b.charged op.context cost).balance user ≤ b.balance user ∧
      b.balance user ≤ (b.charged op.context cost).balance user + charge user op := by
    intro user
    by_cases hmode : op.context.mode = .deposit
    · rw [Book.charged, if_pos hmode]
      by_cases hsender : user = op.context.sender
      · subst hsender
        have hle := hpays hmode
        rw [charge_self hmode, setBalance_self]
        omega
      · rw [charge_other (.inr fun he => hsender he.symm), setBalance_other hsender]
        omega
    · rw [Book.charged, if_neg hmode, charge_other (.inl hmode)]
      omega
  refine ⟨fun user => ?_, ?_, fun user => ?_, fun user => ?_⟩
  · have howed := owed_erase hmem user
    have hcovered := h.covered user
    have hafter := (hbalance user).2
    simp only [Book.settled]
    omega
  · simp only [Book.settled]
    omega
  · have hcredited := h.credited user
    have hafter := (hbalance user).1
    simp only [Book.settled, charged_deposited]
    omega
  · simp only [Book.settled, charged_deposited]
    exact h.bounded user

/-- A balance that goes down no further than what is reserved. -/
theorem withdraws (h : Reserved b frames) {amount : Nat}
    (hcovered : owed b.validated user + amount ≤ b.balance user) (token : Address)
    (made left : State) :
    Reserved (b.setBalance user (b.balance user - amount))
      (⟨made, left, .withdraw user token amount⟩ :: frames) := by
  refine ⟨fun a => ?_, h.recorded, fun a => ?_, h.bounded⟩
  · by_cases ha : a = user
    · subst ha
      rw [setBalance_self]
      exact Nat.le_sub_of_add_le hcovered
    · rw [setBalance_other ha]
      exact h.covered a
  · have hcredited := h.credited a
    have hpending : pending (⟨made, left, .withdraw user token amount⟩ :: frames) a =
        pending frames a := Nat.zero_add _
    rw [hpending]
    by_cases ha : a = user
    · subst ha
      rw [setBalance_self]
      exact le_trans (Nat.add_le_add_right (Nat.sub_le _ _) _) hcredited
    · rw [setBalance_other ha]
      exact hcredited

theorem deposits (h : Reserved b frames) {amount : Nat}
    (hbound : b.deposited user + amount < wordBound) (token : Address) (made left : State) :
    Reserved { b with deposited := Function.update b.deposited user (b.deposited user + amount) }
      (⟨made, left, .deposit user token amount⟩ :: frames) := by
  refine ⟨h.covered, h.recorded, fun a => ?_, fun a => ?_⟩
  · have hcredited := h.credited a
    have hpending : pending (⟨made, left, .deposit user token amount⟩ :: frames) a =
        (if user = a then amount else 0) + pending frames a := rfl
    rw [hpending]
    by_cases ha : a = user
    · subst ha
      simp only [if_true, Function.update_self]
      omega
    · simp only [if_neg (Ne.symm ha), Function.update_of_ne ha, Nat.zero_add]
      exact hcredited
  · by_cases ha : a = user
    · subst ha
      simp only [Function.update_self]
      exact hbound
    · simp only [Function.update_of_ne ha]
      exact h.bounded a

/-- What is credited has been deposited, so that no balance wraps around. -/
theorem answered {frame : Frame State Rest} (h : Reserved b (frame :: frames)) :
    Reserved (b.answered frame.rest) frames := by
  obtain ⟨made, left, rest⟩ := frame
  cases rest with
  | withdraw user token amount =>
    refine ⟨h.covered, h.recorded, fun a => ?_, h.bounded⟩
    have hcredited := h.credited a
    have hpending : pending (⟨made, left, .withdraw user token amount⟩ :: frames) a =
        pending frames a := Nat.zero_add _
    rwa [hpending] at hcredited
  | deposit user token amount =>
    have hpending : ∀ a, pending (⟨made, left, .deposit user token amount⟩ :: frames) a =
        (if user = a then amount else 0) + pending frames a := fun _ => rfl
    have hself := h.credited user
    have hbounded := h.bounded user
    rw [hpending, if_pos rfl] at hself
    have hadd : uncheckedAdd (b.balance user) amount = b.balance user + amount := by
      apply uncheckedAdd_eq
      omega
    have hanswered : b.answered (.deposit user token amount) =
        b.setBalance user (b.balance user + amount) := by rw [Book.answered, hadd]
    rw [hanswered]
    refine ⟨fun a => ?_, h.recorded, fun a => ?_, h.bounded⟩
    · by_cases ha : a = user
      · subst ha
        rw [setBalance_self]
        exact Nat.le_add_right_of_le (h.covered a)
      · rw [setBalance_other ha]
        exact h.covered a
    · by_cases ha : a = user
      · subst ha
        rw [setBalance_self]
        have hsame : (b.setBalance a (b.balance a + amount)).deposited = b.deposited := rfl
        rw [hsame]
        omega
      · have hcredited := h.credited a
        rw [hpending, if_neg (Ne.symm ha), Nat.zero_add] at hcredited
        rw [setBalance_other ha]
        exact hcredited

end Reserved

/-! ## Runs -/

/-- The calls that wait after a step. -/
def waiting (made left : State) (frames : List (Frame State Rest)) :
    Option Rest → List (Frame State Rest)
  | none => frames
  | some rest => ⟨made, left, rest⟩ :: frames

theorem Step.reserved {frames : List (Frame State Rest)} (h : Step msg s f o b)
    (hc : Covered s ⟨msg, f⟩) (hsettling : Settling s ⟨msg, f⟩) (hr : Reserved s.book frames)
    (made left : State) : Reserved b (waiting made left frames o) := by
  cases h with
  | @validated userOp userOpHash maxCost context hvalidates =>
    apply hr.validated
    · intro user
      by_cases hmine : context.mode = .deposit ∧ context.sender = user
      · obtain ⟨hmode, rfl⟩ := hmine
        obtain ⟨signature, hdata⟩ := hvalidates.deposit hmode
        have hcovered := hc.validation userOp userOpHash maxCost signature rfl hdata
          (hvalidates.covered hmode)
        rw [charge, if_pos ⟨hmode, rfl⟩, hvalidates.sender hmode]
        exact hcovered
      · rw [charge, if_neg hmine]
        exact hr.covered user
    · have hrecord := hc.record userOp userOpHash maxCost rfl
      have hweight : weight ⟨context, maxCost⟩ ≤ maxCost + maxCost := by
        rw [weight]
        split
        · exact Nat.le_refl _
        · exact Nat.le_add_left _ _
      exact lt_of_le_of_lt (Nat.add_le_add_left hweight _) hrecord
  | settled hpayable =>
    obtain ⟨hmem, hcost⟩ := hsettling _ _ rfl hpayable.entryPoint
    exact hr.settled hmem hcost
  | deposits => exact hr.deposits (hc.deposit _ _ rfl) _ made left
  | withdraws hcovered => exact hr.withdraws (hc.withdrawal _ _ rfl hcovered) _ made left
  | managed => exact hr

theorem keeps_reserved (p : Primitives) :
    Keeps (contract p) (fun s c => Covered s c ∧ Settling s c)
      (fun s frames => Reserved s.book frames) where
  enter := by
    rintro c s frames ⟨o, s'⟩ ⟨hc, hsettling⟩ hr henter
    have hstep := (step_of_ok henter).reserved hc hsettling hr s s'
    cases o with
    | none => exact hstep
    | some rest => exact hstep
  resume := by
    rintro f s frames a ⟨o, s'⟩ hr _ hresume
    obtain ⟨rfl, hbook⟩ := finish_book hresume
    have hanswered := hr.answered
    rw [← hbook] at hanswered
    exact hanswered

theorem deploy_reserved (sender entryPoint verifyingSigner : Address) :
    Reserved (deploy sender entryPoint verifyingSigner).book [] := by
  have hword : 0 < wordBound := by decide
  exact ⟨fun _ => Nat.le_refl _, hword, fun _ => Nat.le_refl _, fun _ => hword⟩

/-- The entry point can settle a validated operation at every cost up to the validated one, and the
budget of the operation, if it has one, pays the cost. -/
def Repaid (p : Primitives) (s : State) (c : Call) : Prop :=
  ∀ op cost, c.function = .postOp op cost → c.msg.sender = s.entryPoint → c.msg.value = 0 →
    op ∈ s.validated → cost ≤ op.maxCost →
      ∃ s', (contract p).enter c s = .ok (none, s') ∧ (op.context.mode = .deposit →
        (s'.budgets op.context.sender).balance + cost =
          (s.budgets op.context.sender).balance)

theorem body_postOp (h : Payable s msg op.context cost) : body p (.postOp op cost) msg s =
    .ok (none, { afterPostOp s op.context cost with validated := s.validated.erase op }) := by
  have hpost : postOp op.context cost msg s = .ok ((), afterPostOp s op.context cost) :=
    postOp_ok.mpr ⟨h, rfl⟩
  rw [body, bind_of_ok hpost]
  rfl

theorem Reserved.repaid {frames : List (Frame State Rest)} (h : Reserved s.book frames) (c : Call) :
    Repaid p s c := by
  rintro op cost hf hentry hunpaid hmem hcost
  obtain ⟨hpays, _, hrecorded⟩ := h.pays hmem hcost
  have hpayable : Payable s c.msg op.context cost := ⟨hunpaid, hentry, hpays, hrecorded⟩
  refine ⟨{ afterPostOp s op.context cost with validated := s.validated.erase op }, ?_, ?_⟩
  · simp only [contract, hf]
    exact body_postOp hpayable
  · intro hmode
    have hle := hpays hmode
    simp only [afterPostOp, chargedState, hmode, if_true, Function.update_self]
    exact Nat.sub_add_cancel hle

/-- Where validations and withdrawals leave what has been validated, every validated operation is
settled, in every order. -/
theorem repaid_of_covered (p : Primitives) {sender entryPoint verifyingSigner : Address}
    {acts : List (Act Call Answer)}
    (hsettling : Along (machine (contract p)) (Calls Settling)
      ⟨deploy sender entryPoint verifyingSigner, []⟩ acts)
    (hcovered : Along (machine (contract p)) (Calls Covered)
      ⟨deploy sender entryPoint verifyingSigner, []⟩ acts) :
    Along (machine (contract p)) (Calls (Repaid p))
      ⟨deploy sender entryPoint verifyingSigner, []⟩ acts := by
  have hboth : Along (machine (contract p)) (Calls fun s c => Covered s c ∧ Settling s c)
      ⟨deploy sender entryPoint verifyingSigner, []⟩ acts :=
    (hcovered.and hsettling).imp fun _ _ h c hc => ⟨h.1 c hc, h.2 c hc⟩
  exact along_holds (keeps_reserved p) hboth (deploy_reserved sender entryPoint verifyingSigner)
    fun _ _ c hr _ => hr.repaid c

/-- Nothing is signed here. -/
def unsigned : Primitives := ⟨fun _ => 0, fun _ _ => .zero⟩

/-- An operation of the user 5 that its budget pays. -/
def paidByBudget (maxCost : Nat) : Operation := ⟨⟨⟨5⟩, .deposit⟩, maxCost⟩

def validation (maxCost : Nat) : Act Call Answer :=
  .call ⟨⟨⟨2⟩, 0, 0⟩, .validatePaymasterUserOp ⟨⟨5⟩, some (.deposit, [])⟩ 0 maxCost⟩

def settledAt (maxCost cost : Nat) : Act Call Answer :=
  .call ⟨⟨⟨2⟩, 0, 0⟩, .postOp (paidByBudget maxCost) cost⟩

/-- The user 5 deposits 100 of an accepted token. -/
def budgeted : List (Act Call Answer) :=
  [.call ⟨⟨⟨1⟩, 0, 0⟩, .setAcceptedToken ⟨20⟩ true⟩, .call ⟨⟨⟨5⟩, 0, 0⟩, .depositBudget ⟨20⟩ 100⟩,
    .answer .empty]

/-- Two operations of one bundle that the budget covers together. -/
def coveredBundle : List (Act Call Answer) :=
  budgeted ++ [validation 60, validation 40, settledAt 40 30, settledAt 60 60]

theorem settling_coveredBundle : Along (machine (contract unsigned)) (Calls Settling)
    ⟨deploy ⟨1⟩ ⟨2⟩ ⟨3⟩, []⟩ coveredBundle := by
  refine ⟨?_, ?_, nofun, ?_, ?_, ?_, ?_, trivial⟩
  · rintro c ⟨⟩
    exact nofun
  · rintro c ⟨⟩
    exact nofun
  · rintro c ⟨⟩
    exact nofun
  · rintro c ⟨⟩
    exact nofun
  · rintro c ⟨⟩ op cost ⟨⟩ _
    decide
  · rintro c ⟨⟩ op cost ⟨⟩ _
    decide

theorem covered_coveredBundle : Along (machine (contract unsigned)) (Calls Covered)
    ⟨deploy ⟨1⟩ ⟨2⟩ ⟨3⟩, []⟩ coveredBundle := by
  refine ⟨?_, ?_, nofun, ?_, ?_, ?_, ?_, trivial⟩
  · rintro c ⟨⟩
    exact ⟨nofun, nofun, nofun, nofun⟩
  · rintro c ⟨⟩
    refine ⟨nofun, nofun, nofun, ?_⟩
    rintro token amount ⟨⟩
    decide
  · rintro c ⟨⟩
    refine ⟨?_, ?_, nofun, nofun⟩
    · rintro userOp userOpHash maxCost signature ⟨⟩ _ _
      decide
    · rintro userOp userOpHash maxCost ⟨⟩
      decide
  · rintro c ⟨⟩
    refine ⟨?_, ?_, nofun, nofun⟩
    · rintro userOp userOpHash maxCost signature ⟨⟩ _ _
      decide
    · rintro userOp userOpHash maxCost ⟨⟩
      decide
  · rintro c ⟨⟩
    exact ⟨nofun, nofun, nofun, nofun⟩
  · rintro c ⟨⟩
    exact ⟨nofun, nofun, nofun, nofun⟩

theorem repaid_of_covered_coveredBundle :
    Along (machine (contract unsigned)) (Calls (Repaid unsigned)) ⟨deploy ⟨1⟩ ⟨2⟩ ⟨3⟩, []⟩
      coveredBundle :=
  repaid_of_covered unsigned settling_coveredBundle covered_coveredBundle

/-- Two operations that are validated against one balance, the first of which is settled. -/
def sharedBudget : List (Act Call Answer) :=
  budgeted ++ [validation 60, validation 60, settledAt 60 60]

/-- The second operation has been validated, and its settlement reverts. -/
theorem second_settlement_reverts :
    let s := (run (machine (contract unsigned)) ⟨deploy ⟨1⟩ ⟨2⟩ ⟨3⟩, []⟩ sharedBudget).state
    s.validated = [paidByBudget 60] ∧ (s.budgets ⟨5⟩).balance = 40 ∧
      (∀ r, (contract unsigned).enter ⟨⟨⟨2⟩, 0, 0⟩, .postOp (paidByBudget 60) 60⟩ s ≠ .ok r) ∧
        ¬ Repaid unsigned s ⟨⟨⟨2⟩, 0, 0⟩, .postOp (paidByBudget 60) 60⟩ := by
  intro s
  have hvalidated : s.validated = [paidByBudget 60] := by decide
  have hreverts : ∀ r, (contract unsigned).enter
      ⟨⟨⟨2⟩, 0, 0⟩, .postOp (paidByBudget 60) 60⟩ s ≠ .ok r := by
    rintro ⟨o, s'⟩ henter
    simp only [contract, body, bind_ok, postOp_ok] at henter
    obtain ⟨_, _, ⟨hpayable, _⟩, _⟩ := henter
    exact absurd (hpayable.pays rfl) (by decide)
  refine ⟨hvalidated, by decide, hreverts, fun hrepaid => ?_⟩
  obtain ⟨s', henter, _⟩ := hrepaid (paidByBudget 60) 60 rfl (by decide) rfl
    (by rw [hvalidated]; exact List.mem_cons_self) (Nat.le_refl _)
  exact hreverts _ henter

/-! ## What is not covered is not settled -/

/-- The entry point settles operations, each at the validated cost. -/
def settlement (entryPoint : Address) (ops : List Operation) : List (Act Call Answer) :=
  ops.map fun op => .call ⟨⟨entryPoint, 0, 0⟩, .postOp op op.maxCost⟩

def Accepted (p : Primitives) (s : State) (c : Call) : Prop := ∃ r, (contract p).enter c s = .ok r

/-- Operations that are all settled at the validated costs, in whatever order, had been covered. -/
theorem owed_le_of_settled {frames : List (Frame State Rest)}
    (h : Along (machine (contract p)) (Calls (Accepted p)) ⟨s, frames⟩
      (settlement s.entryPoint ops)) (user : Address) :
    owed ops user ≤ (s.budgets user).balance := by
  induction ops generalizing s with
  | nil => exact Nat.zero_le _
  | cons op ops ih =>
    obtain ⟨haccepted, hrest⟩ := h
    obtain ⟨⟨o, s'⟩, henter⟩ := haccepted _ rfl
    have hcommit := commit_enter (g := ⟨s, frames⟩) henter
    rw [hcommit] at hrest
    simp only [contract, body, bind_ok, postOp_ok, write_ok, pure_ok] at henter
    obtain ⟨_, _, ⟨hpayable, rfl⟩, _, _, rfl, rfl, rfl⟩ := henter
    have hle := ih hrest
    have hsum : owed (op :: ops) user = charge user op + owed ops user := rfl
    rw [hsum]
    by_cases hmine : op.context.mode = .deposit ∧ op.context.sender = user
    · obtain ⟨hmode, rfl⟩ := hmine
      have hpays := hpayable.pays hmode
      simp only [afterPostOp, chargedState, hmode, if_true, Function.update_self] at hle
      rw [charge_self hmode]
      omega
    · rw [charge, if_neg hmine, Nat.zero_add]
      simp only [afterPostOp, chargedState] at hle
      split at hle
      · rename_i hmode
        rwa [Function.update_of_ne fun he => hmine ⟨hmode, he.symm⟩] at hle
      · exact hle

end EvmErc4337
