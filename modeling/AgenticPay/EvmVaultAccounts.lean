import AgenticPay.EvmVaultSteps

/-!
# The account of one vault

A vault with its milestones and the payments that have been made out of it. A call
changes the account of one vault and leaves those of the others alone.
-/
namespace EvmPaymentVault

open Evm

structure Account where
  vault : Vault
  milestones : Nat → Milestone
  payments : List Payment

namespace Account

def blank : Account := ⟨.blank, fun _ => .blank, []⟩

/-- The account of a vault that has just been created. -/
def opened (args : VaultArgs) (depositor : Address) (totalAmount : Nat) : Account where
  vault :=
    { depositor, recipient := args.recipient, totalAmount, token := args.token,
      status := .active, milestoneCount := args.milestoneBps.length, releasedAmount := 0 }
  milestones i :=
    if i < args.milestoneBps.length then newMilestone args depositor i else .blank
  payments := []

def amount (a : Account) (i : Nat) : Nat :=
  a.vault.totalAmount * (a.milestones i).amountBps.toNat / 10000

def remaining (a : Account) : Nat := a.vault.totalAmount - a.vault.releasedAmount

def setStatus (a : Account) (status : VaultStatus) : Account :=
  { a with vault := { a.vault with status } }

def release (a : Account) (i : Nat) : Account :=
  { a with
    vault :=
      { a.vault with releasedAmount := uncheckedAdd a.vault.releasedAmount (a.amount i) }
    milestones := Function.update a.milestones i { a.milestones i with status := .released } }

def settle (a : Account) : Account :=
  if a.vault.releasedAmount ≥ a.vault.totalAmount then a.setStatus .completed else a

def pay (a : Account) (p : Payment) : Account := { a with payments := a.payments ++ [p] }

/-- What a resumed call of this vault does to it. -/
def after (a : Account) : Rest → Account
  | .release .. => a.settle
  | _ => a

/-- What has been paid out of the account. -/
def paidOut (a : Account) : Nat := (a.payments.map (·.amount)).sum

/-- What of a token has been paid out of it. -/
def spent (a : Account) (token : Address) : Nat := if token = a.vault.token then a.paidOut else 0

def payee (a : Account) (releaseToRecipient : Bool) : Address :=
  if releaseToRecipient then a.vault.recipient else a.vault.depositor

end Account

def Books.account (b : Books) (v : Nat) : Account :=
  ⟨b.vaults v, b.milestones v, b.payments.filter (·.vaultId = v)⟩

/-- A payment out of an account, and what is done at once where there is nothing to send. -/
inductive Sends (self : Address) (a : Account) (p : Payment) (rest : Rest) :
    Option Rest → Account → Prop
  | nothing (none : p.amount = 0) : Sends self a p rest .none (a.after rest)
  | sent (some : p.amount ≠ 0) (payable : p.token = .zero → p.recipient ≠ self) :
      Sends self a p rest (.some rest) (a.pay p)

/-- What a call does to the account of the vault that it is about. -/
inductive Change (self : Address) (msg : Message) (v : Nat) (a : Account) :
    Function → Option Rest → Account → Prop
  | released {f i o a'} (releases : Releases msg a.vault.depositor (a.milestones i) v i f)
      (active : a.vault.status = .active) (listed : i < a.vault.milestoneCount)
      (pending : (a.milestones i).status = .pending)
      (sends : Sends self (a.release i) ⟨v, a.vault.token, a.vault.recipient, a.amount i⟩
        (.release v i (a.amount i)) o a') :
      Change self msg v a f o a'
  | refunded {o a'} (owned : msg.sender = a.vault.depositor) (active : a.vault.status = .active)
      (sends : Sends self (a.setStatus .refunded)
        ⟨v, a.vault.token, a.vault.depositor, a.remaining⟩ (.refund v a.remaining) o a') :
      Change self msg v a (.refund v) o a'
  | disputed (active : a.vault.status = .active)
      (party : msg.sender = a.vault.depositor ∨ msg.sender = a.vault.recipient) :
      Change self msg v a (.raiseDispute v) none (a.setStatus .disputed)
  | resolved {r o a'} (unpaid : msg.value = 0) (disputed : a.vault.status = .disputed)
      (sends : Sends self (a.setStatus (resolution r)) ⟨v, a.vault.token, a.payee r, a.remaining⟩
        (.resolve v r) o a') :
      Change self msg v a (.resolveDispute v r) o a'

/-- The books leave all accounts alone, open a new one, or change one of them in a given way.
The balances grow by what an account is opened with and shrink by what it pays. -/
inductive Posted (C : Nat → Account → Account → Prop) (b b' : Books) : Prop
  | kept (count : b'.vaultCount = b.vaultCount) (same : ∀ v, b'.account v = b.account v)
      (held : ∀ token, b.balance token ≤ b'.balance token)
  | opened {args depositor totalAmount} (accepted : Accepted args) (funded : 0 < totalAmount)
      (bounded : totalAmount < wordBound) (count : b'.vaultCount = b.vaultCount + 1)
      (new : b'.account b.vaultCount = .opened args depositor totalAmount)
      (same : ∀ v ≠ b.vaultCount, b'.account v = b.account v)
      (held : ∀ token, b.balance token + (if token = args.token then totalAmount else 0) ≤
        b'.balance token)
  | changed {u} (made : u < b.vaultCount) (change : C u (b.account u) (b'.account u))
      (count : b'.vaultCount = b.vaultCount) (same : ∀ v ≠ u, b'.account v = b.account v)
      (held : ∀ token, b.balance token + (b.account u).spent token ≤
        b'.balance token + (b'.account u).spent token)

variable {b b' : Books} {msg : Message} {self : Address} {o : Option Rest} {v u i : Nat}
  {rest : Rest} {f : Function} {p : Payment}

/-! ## The accounts of changed books -/

theorem account_setStatus (status : VaultStatus) :
    (b.setStatus u status).account v =
      if v = u then (b.account u).setStatus status else b.account v := by
  by_cases he : v = u
  · rw [he]
    simp only [Books.account, Books.setStatus, Account.setStatus, Function.update_self, if_true]
  · simp only [Books.account, Books.setStatus, Function.update_of_ne he, if_neg he]

theorem account_released :
    (b.released u i).account v =
      if v = u then (b.account u).release i else b.account v := by
  by_cases he : v = u
  · subst he
    simp only [Books.account, Books.released, Books.mark, Books.amount, Account.release,
      Account.amount, Function.update_self, if_true]
  · simp only [Books.account, Books.released, Books.mark, Function.update_of_ne he, if_neg he]

theorem account_settled :
    (b.settled u).account v = if v = u then (b.account u).settle else b.account v := by
  rw [Books.settled]
  split
  · rename_i hfull
    rw [account_setStatus]
    by_cases he : v = u
    · subst he
      rw [if_pos rfl, if_pos rfl]
      exact (if_pos hfull).symm
    · rw [if_neg he, if_neg he]
  · rename_i hless
    by_cases he : v = u
    · subst he
      rw [if_pos rfl]
      exact (if_neg hless).symm
    · rw [if_neg he]

theorem account_paid :
    (b.paid self p).account v =
      if v = p.vaultId then (b.account v).pay p else b.account v := by
  by_cases he : v = p.vaultId
  · subst he
    simp only [Books.account, Books.paid, Account.pay, List.filter_append, if_true]
    rw [List.filter_cons_of_pos (by simp), List.filter_nil]
  · simp only [Books.account, Books.paid, List.filter_append, if_neg he]
    rw [List.filter_cons_of_neg (by simpa using Ne.symm he), List.filter_nil, List.append_nil]

/-- The counter points at an account of which nothing has been stored. -/
theorem account_added {args : VaultArgs} {depositor : Address} {totalAmount : Nat}
    (h : b.account b.vaultCount = .blank) :
    (b.added args depositor totalAmount).account v =
      if v = b.vaultCount then .opened args depositor totalAmount else b.account v := by
  by_cases he : v = b.vaultCount
  · subst he
    obtain ⟨hvault, hmilestones, hpayments⟩ := Account.mk.inj h
    simp only [Books.account, Books.added, Account.opened, Function.update_self, if_true, hvault,
      hmilestones, hpayments, Vault.blank]
  · simp only [Books.account, Books.added, Function.update_of_ne he, if_neg he]

/-! ## What a step of the contract posts -/

/-- The vault that a waiting call is about. -/
def Rest.about : Rest → Option Nat
  | .create .. => none
  | .release vaultId _ _ => some vaultId
  | .refund vaultId _ => some vaultId
  | .resolve vaultId _ => some vaultId

theorem account_after_self (h : (b.account u).after rest = b.account u) :
    b.account v = if v = u then (b.account u).after rest else b.account v := by
  split
  · rename_i he
    rw [h, he]
  · rfl

theorem Resumed.accounts (h : Resumed b rest b') (hu : rest.about = some u) :
    b'.vaultCount = b.vaultCount ∧ b'.balance = b.balance ∧
      ∀ v, b'.account v = if v = u then (b.account u).after rest else b.account v := by
  cases h with
  | created => contradiction
  | released =>
    obtain rfl := Option.some.inj hu
    refine ⟨?_, ?_, fun v => account_settled⟩
    · rw [Books.settled]
      split <;> rfl
    · rw [Books.settled]
      split <;> rfl
  | refunded => exact ⟨rfl, rfl, fun v => account_after_self rfl⟩
  | resolved => exact ⟨rfl, rfl, fun v => account_after_self rfl⟩

theorem Account.after_keeps (a : Account) (rest : Rest) :
    (a.after rest).payments = a.payments ∧ (a.after rest).vault.token = a.vault.token := by
  cases rest with
  | release =>
    simp only [Account.after, Account.settle]
    split
    · exact ⟨rfl, rfl⟩
    · exact ⟨rfl, rfl⟩
  | _ => exact ⟨rfl, rfl⟩

theorem Account.spent_after (a : Account) (rest : Rest) (token : Address) :
    (a.after rest).spent token = a.spent token := by
  obtain ⟨hpayments, htoken⟩ := a.after_keeps rest
  rw [Account.spent, Account.spent, Account.paidOut, Account.paidOut, hpayments, htoken]

theorem Account.paidOut_pay (a : Account) (p : Payment) :
    (a.pay p).paidOut = a.paidOut + p.amount := by
  simp only [Account.paidOut, Account.pay, List.map_append, List.sum_append, List.map_cons,
    List.map_nil, List.sum_cons, List.sum_nil, Nat.add_zero]

theorem Account.spent_pay (a : Account) (p : Payment) (token : Address) :
    (a.pay p).spent token = a.spent token + if token = a.vault.token then p.amount else 0 := by
  by_cases he : token = a.vault.token
  · rw [Account.spent, if_pos (show token = (a.pay p).vault.token from he),
      Account.paidOut_pay, Account.spent, if_pos he, if_pos he]
  · rw [Account.spent, if_neg (show ¬ token = (a.pay p).vault.token from he), Account.spent,
      if_neg he, if_neg he]

theorem balance_paid (token : Address) :
    b.balance token ≤ (b.paid self p).balance token + if token = p.token then p.amount else 0 := by
  simp only [Books.paid]
  split
  · exact Nat.le_add_right ..
  · by_cases he : token = p.token
    · subst he
      rw [Function.update_self, if_pos rfl]
      omega
    · rw [Function.update_of_ne he, if_neg he]
      exact Nat.le_refl _

theorem Transferred.accounts (h : Transferred self b p rest o b')
    (hu : rest.about = some p.vaultId) (htoken : p.token = (b.vaults p.vaultId).token) :
    b'.vaultCount = b.vaultCount ∧ (∀ v ≠ p.vaultId, b'.account v = b.account v) ∧
      Sends self (b.account p.vaultId) p rest o (b'.account p.vaultId) ∧
      ∀ token, b.balance token + (b.account p.vaultId).spent token ≤
        b'.balance token + (b'.account p.vaultId).spent token := by
  cases h with
  | nothing hnone hresumed =>
    obtain ⟨hcount, hbalance, haccounts⟩ := hresumed.accounts hu
    have hafter := haccounts p.vaultId
    rw [if_pos rfl] at hafter
    refine ⟨hcount, fun v hv => by rw [haccounts, if_neg hv], ?_, fun token => ?_⟩
    · rw [hafter]
      exact .nothing hnone
    · rw [hbalance, hafter, Account.spent_after]
  | sent hsome hpayable hcovered =>
    have hpaid : (b.paid self p).account p.vaultId = (b.account p.vaultId).pay p := by
      rw [account_paid, if_pos rfl]
    refine ⟨rfl, fun v hv => by rw [account_paid, if_neg hv], ?_, fun token => ?_⟩
    · rw [hpaid]
      exact .sent hsome hpayable
    · have hheld : b.balance token ≤
          (b.paid self p).balance token + if token = p.token then p.amount else 0 :=
        balance_paid token
      rw [htoken] at hheld
      rw [hpaid, Account.spent_pay]
      have hsame : (b.account p.vaultId).vault.token = (b.vaults p.vaultId).token := rfl
      rw [hsame]
      omega

theorem credited_le (token' : Address) (amount : Nat) (token : Address) :
    b.balance token + (if token = token' then amount else 0) ≤
      (b.credited token' amount).balance token := by
  by_cases he : token = token'
  · subst he
    simp only [Books.credited, Function.update_self, if_true]
    exact Nat.le_refl _
  · simp only [Books.credited, Function.update_of_ne he, if_neg he]
    exact Nat.le_refl _

/-- A deposit opens the account that the counter points at. -/
theorem posted_added {C : Nat → Account → Account → Prop} {args : VaultArgs}
    {depositor : Address} {totalAmount : Nat} (hfresh : b.account b.vaultCount = .blank)
    (haccepted : Accepted args) (hfunded : 0 < totalAmount)
    (hroom : b.balance args.token + totalAmount < wordBound) :
    Posted C b ((b.credited args.token totalAmount).added args depositor totalAmount) := by
  have hadded : ∀ v,
      ((b.credited args.token totalAmount).added args depositor totalAmount).account v =
      if v = b.vaultCount then .opened args depositor totalAmount else b.account v :=
    fun v => account_added (b := b.credited args.token totalAmount) hfresh
  refine .opened haccepted hfunded (Nat.lt_of_le_of_lt (Nat.le_add_left ..) hroom) rfl
    ((hadded _).trans (if_pos rfl)) ?_ fun token => credited_le args.token totalAmount token
  intro v hv
  rw [hadded, if_neg hv]

/-- A payment out of an account that has been changed before. -/
theorem Transferred.posted {C : Nat → Account → Account → Prop} {b₁ : Books} {a₁ : Account}
    (h : Transferred self b₁ p rest o b') (hu : rest.about = some p.vaultId)
    (haccounts : ∀ v, b₁.account v = if v = p.vaultId then a₁ else b.account v)
    (hcount : b₁.vaultCount = b.vaultCount) (hbalance : b₁.balance = b.balance)
    (htoken : p.token = a₁.vault.token)
    (hspent : ∀ token, a₁.spent token = (b.account p.vaultId).spent token)
    (hmade : p.vaultId < b.vaultCount)
    (hchange : ∀ a', Sends self a₁ p rest o a' → C p.vaultId (b.account p.vaultId) a') :
    Posted C b b' := by
  have hpaying := haccounts p.vaultId
  rw [if_pos rfl] at hpaying
  have htoken₁ : p.token = (b₁.vaults p.vaultId).token := by
    rw [htoken, ← hpaying]
    rfl
  obtain ⟨hcount', hsame, hsends, hheld⟩ := h.accounts hu htoken₁
  rw [hpaying] at hsends hheld
  refine .changed hmade (hchange _ hsends) (hcount'.trans hcount) ?_ ?_
  · intro v hv
    rw [hsame v hv, haccounts, if_neg hv]
  · intro token
    rw [← hspent, ← hbalance]
    exact hheld token

/-- A call of the contract posts to the account of one vault. -/
theorem Step.posted (h : Step self msg b f o b') (hfresh : b.account b.vaultCount = .blank) :
    Posted (fun u a a' => Change self msg u a f o a') b b' := by
  cases h with
  | createdEther haccepted hether hfunded hroom =>
    rw [← hether] at hroom ⊢
    exact posted_added hfresh haccepted hfunded hroom
  | createsToken =>
    exact .kept rfl (fun _ => rfl) fun token =>
      (Nat.le_add_right ..).trans (credited_le .zero msg.value token)
  | released hreleases hmade hactive hlisted hpending htransferred =>
    exact htransferred.posted rfl (fun _ => account_released) rfl rfl rfl (fun _ => rfl) hmade
      fun _ hsends => .released hreleases hactive hlisted hpending hsends
  | refunded hmade howned hactive htransferred =>
    exact htransferred.posted rfl (fun _ => account_setStatus _) rfl rfl rfl (fun _ => rfl) hmade
      fun _ hsends => .refunded howned hactive hsends
  | @disputed v hmade hactive hparty =>
    have haccount := account_setStatus (b := b) (u := v) (v := v) .disputed
    rw [if_pos rfl] at haccount
    refine .changed hmade ?_ rfl ?_ fun _ => ?_
    · rw [haccount]
      exact .disputed hactive hparty
    · intro u hu
      rw [account_setStatus, if_neg hu]
    · rw [haccount]
      exact Nat.le_refl _
  | resolved hunpaid hmade hdisputed htransferred =>
    exact htransferred.posted rfl (fun _ => account_setStatus _) rfl rfl rfl (fun _ => rfl) hmade
      fun _ hsends => .resolved hunpaid hdisputed hsends
  | forced =>
    exact .kept rfl (fun _ => rfl) fun token => (Nat.le_add_right ..).trans (credited_le _ _ token)

/-! ## What waits -/

/-- What `createVault` has checked before it waits, and that other calls wait for an existing
vault. -/
structure Ready (count : Nat) (rest : Rest) : Prop where
  create : ∀ args depositor totalAmount, rest = .create args depositor totalAmount →
    Accepted args ∧ 0 < totalAmount
  about : ∀ u, rest.about = some u → u < count

theorem Ready.mono {count count' : Nat} (h : Ready count rest) (hle : count ≤ count') :
    Ready count' rest :=
  ⟨h.create, fun u hu => Nat.lt_of_lt_of_le (h.about u hu) hle⟩

theorem ready_of_about {count : Nat} (hu : rest.about = some u) (hmade : u < count) :
    Ready count rest := by
  refine ⟨?_, fun v hv => ?_⟩
  · rintro args depositor totalAmount rfl
    contradiction
  · rw [hu] at hv
    exact Option.some.inj hv ▸ hmade

theorem Transferred.rest_eq {rest' : Rest} (h : Transferred self b p rest o b')
    (ho : o = some rest') : rest' = rest := by
  cases h with
  | nothing => contradiction
  | sent => exact (Option.some.inj ho).symm

theorem Step.ready (h : Step self msg b f o b') (ho : o = some rest) :
    Ready b.vaultCount rest := by
  cases h with
  | createsToken haccepted _ hallowed _ =>
    obtain rfl := Option.some.inj ho
    refine ⟨?_, fun u hu => ?_⟩
    · rintro _ _ _ he
      obtain ⟨rfl, _, rfl⟩ := Rest.create.inj he
      exact ⟨haccepted, hallowed⟩
    · contradiction
  | released _ hmade _ _ _ htransferred =>
    obtain rfl := htransferred.rest_eq ho
    exact ready_of_about rfl hmade
  | refunded hmade _ _ htransferred =>
    obtain rfl := htransferred.rest_eq ho
    exact ready_of_about rfl hmade
  | resolved _ hmade _ htransferred =>
    obtain rfl := htransferred.rest_eq ho
    exact ready_of_about rfl hmade
  | createdEther => contradiction
  | disputed => contradiction
  | forced => contradiction

/-- A call that goes on after its payment posts to the account of its vault. -/
theorem Resumed.posted (h : Resumed b rest b') (hfresh : b.account b.vaultCount = .blank)
    (hready : Ready b.vaultCount rest) :
    Posted (fun u a a' => rest.about = some u ∧ a' = a.after rest) b b' := by
  cases hu : rest.about with
  | none =>
    cases h with
    | created hroom =>
      obtain ⟨haccepted, hfunded⟩ := hready.create _ _ _ rfl
      exact posted_added hfresh haccepted hfunded hroom
    | released => contradiction
    | refunded => contradiction
    | resolved => contradiction
  | some u =>
    obtain ⟨hcount, hbalance, haccounts⟩ := h.accounts hu
    have hafter := haccounts u
    rw [if_pos rfl] at hafter
    refine .changed (hready.about u hu) ⟨rfl, hafter⟩ hcount ?_ fun token => ?_
    · intro v hv
      rw [haccounts, if_neg hv]
    · rw [hafter, hbalance, Account.spent_after]

/-- An account that exists is left alone or changed in the given way. -/
theorem Posted.account {C : Nat → Account → Account → Prop} (h : Posted C b b')
    (hmade : v < b.vaultCount) :
    b'.account v = b.account v ∨ C v (b.account v) (b'.account v) := by
  cases h with
  | kept _ hsame => exact .inl (hsame v)
  | opened _ _ _ _ _ hsame => exact .inl (hsame v (Nat.ne_of_lt hmade))
  | @changed u _ hchange _ hsame =>
    by_cases he : v = u
    · subst he
      exact .inr hchange
    · exact .inl (hsame v he)

theorem Posted.count_le {C : Nat → Account → Account → Prop} (h : Posted C b b') :
    b.vaultCount ≤ b'.vaultCount := by
  cases h with
  | kept hcount => exact hcount.ge
  | opened _ _ _ hcount => omega
  | changed _ _ hcount => exact hcount.ge

end EvmPaymentVault
