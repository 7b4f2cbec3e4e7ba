import AgenticPay.EvmRelayPaymaster
import AgenticPay.Holdings

/-!
# What the paymaster of relayed transactions holds

A withdrawal and a fee are checked against one balance over all tokens. Where each of them takes
no more than what is left of the user's deposits in its own token, every token is covered by what
the contract holds; a user who uses one token only can take no more.
-/
namespace EvmRelayPaymaster

open Evm Body ExternalCalls Holdings Transaction

/-- What is left of the deposits of a user in a token. -/
def Account.left (a : Account) : Nat := a.deposited - (a.withdrawn + a.collected)

/-- The balances, the accounts and what the contract holds. -/
structure Books where
  balance : Address → Nat
  accounts : Address → Address → Account
  held : Address → Nat

def State.books (s : State) : Books := ⟨s.balance, s.accounts, s.held⟩

namespace Books

/-- Another account of a user in a token, of which the contract holds another amount. -/
def posted (b : Books) (user token : Address) (a : Account) (n : Nat) : Books :=
  { b with
    accounts := setAccount b.accounts user token a
    held := Function.update b.held token n }

def withdrawn (b : Books) (user token : Address) (amount : Nat) : Books :=
  { b.posted user token
      { b.accounts user token with withdrawn := (b.accounts user token).withdrawn + amount }
      (b.held token - amount) with
    balance := Function.update b.balance user (b.balance user - amount) }

def collected (b : Books) (user token : Address) (fee : Nat) : Books :=
  { b with
    balance := Function.update b.balance user (b.balance user - fee)
    accounts := setAccount b.accounts user token
      { b.accounts user token with collected := (b.accounts user token).collected + fee } }

def deposited (b : Books) (user token : Address) (amount : Nat) : Books :=
  { b.posted user token
      { b.accounts user token with deposited := (b.accounts user token).deposited + amount }
      (b.held token + amount) with
    balance := Function.update b.balance user (b.balance user + amount) }

def kept (b : Books) (user token : Address) (amount : Nat) : Books :=
  b.posted user token
    { b.accounts user token with withdrawn := (b.accounts user token).withdrawn - amount }
    (b.held token + amount)

end Books

/-- The fee for a gas cost, in a token. -/
def feeOf (s : State) (token : Address) (gasCostWei : Nat) : Nat :=
  gasCostWei * ratioOf (s.tokenPriceRatios token) / 10 ^ 18

/-- What `collectFee` checks. -/
structure Charges (s : State) (msg : Message) (user token : Address) (gasCostWei : Nat) : Prop where
  unpaid : msg.value = 0
  relayer : s.relayers msg.sender = true
  accepted : s.acceptedTokens token = true
  product : gasCostWei * ratioOf (s.tokenPriceRatios token) < wordBound
  covered : feeOf s token gasCostWei ≤ s.balance user
  sponsored : s.totalSponsored + gasCostWei < wordBound
  fees : s.totalFeesCollected + feeOf s token gasCostWei < wordBound

/-- A call that takes an amount of a token from a user. -/
inductive Takes (s : State) : Call → Address → Address → Nat → Prop
  | withdraw {msg token amount} (unpaid : msg.value = 0) (covered : amount ≤ s.balance msg.sender) :
      Takes s ⟨msg, .withdraw token amount⟩ msg.sender token amount
  | collectFee {msg user token gasCostWei} (charges : Charges s msg user token gasCostWei) :
      Takes s ⟨msg, .collectFee user token gasCostWei⟩ user token (feeOf s token gasCostWei)

/-- What an accepted call has left to do, and what it leaves. -/
inductive Step (msg : Message) (s : State) : Function → Option Rest → Books → Prop
  | deposits {token amount} :
      Step msg s (.deposit token amount) (some (.deposit msg.sender token amount)) s.books
  | withdraws {token amount} (unpaid : msg.value = 0) (covered : amount ≤ s.balance msg.sender) :
      Step msg s (.withdraw token amount) (some (.withdraw msg.sender token amount))
        (s.books.withdrawn msg.sender token amount)
  | collects {user token gasCostWei} (charges : Charges s msg user token gasCostWei) :
      Step msg s (.collectFee user token gasCostWei) none
        (s.books.collected user token (feeOf s token gasCostWei))
  | managed {f : Function} : Step msg s f none s.books
  | forced {token amount} :
      Step msg s (.force token amount) none
        { s.books with held := Function.update s.held token (s.held token + amount) }

variable {s s' : State} {b : Books} {msg : Message} {o : Option Rest} {f : Function}
  {user token : Address} {amount n gasCostWei : Nat} {c : Call}

theorem onlyOwner_ok {u : Unit} :
    onlyOwner msg s = .ok (u, s') ↔ msg.sender = s.owner ∧ s = s' := by
  simp only [onlyOwner, message_bind, read_bind, revertIf_ok, ne_eq, not_not]

theorem onlyRelayer_ok {u : Unit} :
    onlyRelayer msg s = .ok (u, s') ↔ s.relayers msg.sender = true ∧ s = s' := by
  simp only [onlyRelayer, message_bind, read_bind, revertIf_ok, Bool.not_eq_false]

/-! ## The functions -/

/-- The state after `withdraw`. -/
def afterWithdraw (s : State) (user token : Address) (amount : Nat) : State :=
  { s with
    balance := Function.update s.balance user (s.balance user - amount)
    accounts := setAccount s.accounts user token
      { s.accounts user token with withdrawn := (s.accounts user token).withdrawn + amount }
    held := Function.update s.held token (s.held token - amount) }

theorem withdraw_ok : withdraw token amount msg s = .ok (o, s') ↔
    (msg.value = 0 ∧ amount ≤ s.balance msg.sender) ∧
      some (.withdraw msg.sender token amount) = o ∧
        afterWithdraw s msg.sender token amount = s' := by
  simp only [withdraw, nonPayable_bind_ok, message_bind, read_bind, revertIf_bind_ok,
    subWord_bind_ok, write_bind, payOut, pure_ok, Nat.not_lt, afterWithdraw]
  constructor
  · rintro ⟨hunpaid, hcovered, _, ho, hs⟩
    exact ⟨⟨hunpaid, hcovered⟩, ho, hs⟩
  · rintro ⟨⟨hunpaid, hcovered⟩, ho, hs⟩
    exact ⟨hunpaid, hcovered, hcovered, ho, hs⟩

/-- The state after `collectFee`. -/
def afterCollectFee (s : State) (msg : Message) (user token : Address) (gasCostWei : Nat) : State :=
  { s with
    balance := Function.update s.balance user (s.balance user - feeOf s token gasCostWei)
    totalSponsored := s.totalSponsored + gasCostWei
    totalFeesCollected := s.totalFeesCollected + feeOf s token gasCostWei
    accounts := setAccount s.accounts user token
      { s.accounts user token with
        collected := (s.accounts user token).collected + feeOf s token gasCostWei }
    events := s.events ++ [.gasSponsored user msg.sender gasCostWei] ++
      [.feeCollected user token (feeOf s token gasCostWei)] }

theorem collectFee_ok : collectFee user token gasCostWei msg s = .ok (o, s') ↔
    Charges s msg user token gasCostWei ∧ none = o ∧
      afterCollectFee s msg user token gasCostWei = s' := by
  simp only [collectFee, nonPayable_bind_ok, guard_bind_ok onlyRelayer_ok, read_bind, id_eq,
    revertIf_bind_ok, mulWord_bind_ok, subWord_bind_ok, addWord_bind_ok, write_bind, message_bind,
    emit, pure_ok, Nat.not_lt, Bool.not_eq_false]
  constructor
  · rintro ⟨hunpaid, hrelayer, haccepted, hproduct, hcovered, _, hsponsored, hfees, ho, hs⟩
    exact ⟨⟨hunpaid, hrelayer, haccepted, hproduct, hcovered, hsponsored, hfees⟩, ho, hs⟩
  · rintro ⟨⟨hunpaid, hrelayer, haccepted, hproduct, hcovered, hsponsored, hfees⟩, ho, hs⟩
    exact ⟨hunpaid, hrelayer, haccepted, hproduct, hcovered, hcovered, hsponsored, hfees, ho, hs⟩

/-- Every accepted call is one of the steps. -/
theorem step_of_ok (h : body f msg s = .ok (o, s')) : Step msg s f o s'.books := by
  cases f with
  | deposit token amount =>
    simp only [body, deposit, nonPayable_bind_ok, read_bind, revertIf_bind_ok, message_bind,
      pure_ok] at h
    obtain ⟨_, _, rfl, rfl⟩ := h
    exact .deposits
  | withdraw token amount =>
    obtain ⟨⟨hunpaid, hcovered⟩, rfl, rfl⟩ := withdraw_ok.mp h
    exact .withdraws hunpaid hcovered
  | collectFee user token gasCostWei =>
    obtain ⟨hcharges, rfl, rfl⟩ := collectFee_ok.mp h
    exact .collects hcharges
  | setAcceptedToken token accepted =>
    simp only [body, setAcceptedToken, nonPayable_bind_ok, guard_bind_ok onlyOwner_ok,
      revertIf_bind_ok, write_bind, emit, pure_ok] at h
    obtain ⟨_, _, _, rfl, rfl⟩ := h
    exact .managed
  | setTokenRatio token ratio =>
    simp only [body, setTokenRatio, nonPayable_bind_ok, guard_bind_ok onlyOwner_ok, write_bind,
      pure_ok] at h
    obtain ⟨_, _, rfl, rfl⟩ := h
    exact .managed
  | setRelayer relayer active =>
    simp only [body, setRelayer, nonPayable_bind_ok, guard_bind_ok onlyOwner_ok,
      revertIf_bind_ok, write_bind, emit, pure_ok] at h
    obtain ⟨_, _, _, rfl, rfl⟩ := h
    exact .managed
  | transferOwnership newOwner =>
    simp only [body, transferOwnership, nonPayable_bind_ok, guard_bind_ok onlyOwner_ok,
      revertIf_bind_ok, write_bind, pure_ok] at h
    obtain ⟨_, _, _, rfl, rfl⟩ := h
    exact .managed
  | force token amount =>
    simp only [body, force, write_bind, pure_ok] at h
    obtain ⟨rfl, rfl⟩ := h
    exact .forced

/-- What the answer of a token makes of the books. -/
def Books.answered (b : Books) (a : Answer) : Rest → Books
  | .deposit user token amount => b.deposited user token amount
  | .withdraw user token amount => b.kept user token (unmoved a amount)

theorem finish_books {rest : Rest} {a : Answer} (h : finish rest a msg s = .ok (o, s')) :
    o = none ∧ s'.books = s.books.answered a rest := by
  cases rest with
  | deposit user token amount =>
    simp only [finish, decodeTransfer_require_ok, read_bind, addWord_bind_ok, write_bind, emit,
      pure_ok] at h
    obtain ⟨_, _, rfl, rfl⟩ := h
    exact ⟨rfl, rfl⟩
  | withdraw user token amount =>
    simp only [finish, require_bind_ok, keep, emit, write_bind, pure_ok] at h
    obtain ⟨_, rfl, rfl⟩ := h
    exact ⟨rfl, rfl⟩

/-! ## Solvency -/

theorem setAccount_self (accounts : Address → Address → Account) (user token : Address)
    (a : Account) : setAccount accounts user token a user token = a :=
  update_update_self ..

theorem setAccount_other {accounts : Address → Address → Account} {user token u t : Address}
    {a : Account} (h : u ≠ user ∨ t ≠ token) :
    setAccount accounts user token a u t = accounts u t :=
  update_update_other h

/-- No user has taken more of a token than it has deposited of it, and the contract holds what is
left of each token. -/
structure Solvent (b : Books) : Prop where
  account : ∀ user token, (b.accounts user token).withdrawn + (b.accounts user token).collected ≤
    (b.accounts user token).deposited
  held : ∀ token, ∃ n, Sums (fun user => (b.accounts user token).left) n ∧ n ≤ b.held token

namespace Solvent

theorem same {b' : Books} (h : Solvent b) (haccounts : b'.accounts = b.accounts)
    (hheld : ∀ token, b.held token ≤ b'.held token) : Solvent b' := by
  refine ⟨fun user token => ?_, fun token => ?_⟩
  · rw [haccounts]
    exact h.account user token
  · obtain ⟨n, hn, hle⟩ := h.held token
    rw [haccounts]
    exact ⟨n, hn, hle.trans (hheld token)⟩

/-- An account changes, and what is held of its token with it. -/
theorem posted (h : Solvent b) (user token : Address) {a : Account}
    (ha : a.withdrawn + a.collected ≤ a.deposited)
    (hn : ∀ total, (b.accounts user token).left ≤ total → total ≤ b.held token →
      total + a.left - (b.accounts user token).left ≤ n) : Solvent (b.posted user token a n) := by
  refine ⟨fun u t => ?_, fun t => ?_⟩
  · by_cases he : u = user ∧ t = token
    · obtain ⟨rfl, rfl⟩ := he
      simp only [Books.posted, setAccount_self]
      exact ha
    · simp only [Books.posted, setAccount_other (not_and_or.mp he)]
      exact h.account u t
  · obtain ⟨total, hsums, hle⟩ := h.held t
    by_cases he : t = token
    · subst he
      have hleft := hsums.le user
      refine ⟨total + a.left - (b.accounts user t).left, ?_, ?_⟩
      · apply hsums.change (a := user)
        · intro u hu
          simp only [Books.posted, setAccount_other (.inl hu)]
        · simp only [Books.posted, setAccount_self]
          omega
      · simp only [Books.posted, Function.update_self]
        exact hn total hleft hle
    · refine ⟨total, ?_, ?_⟩
      · simp only [Books.posted, setAccount_other (.inr he)]
        exact hsums
      · simp only [Books.posted, Function.update_of_ne he]
        exact hle

theorem withdrawn (h : Solvent b) (hown : (b.accounts user token).withdrawn +
    (b.accounts user token).collected + amount ≤ (b.accounts user token).deposited) :
    Solvent (b.withdrawn user token amount) := by
  have hposted := h.posted user token (n := b.held token - amount)
    (a := { b.accounts user token with
      withdrawn := (b.accounts user token).withdrawn + amount }) (by simp only; omega)
    fun total hleft hle => by
      simp only [Account.left] at hleft ⊢
      omega
  exact hposted.same rfl fun _ => Nat.le_refl _

theorem collected (h : Solvent b) (hown : (b.accounts user token).withdrawn +
    (b.accounts user token).collected + amount ≤ (b.accounts user token).deposited) :
    Solvent (b.collected user token amount) := by
  have hposted := h.posted user token (n := b.held token)
    (a := { b.accounts user token with
      collected := (b.accounts user token).collected + amount }) (by simp only; omega)
    fun total hleft hle => by
      simp only [Account.left] at hleft ⊢
      omega
  refine hposted.same rfl fun t => ?_
  rw [Books.posted, Function.update_eq_self]
  exact Nat.le_refl _

theorem deposited (h : Solvent b) : Solvent (b.deposited user token amount) := by
  have hold := h.account user token
  have hposted := h.posted user token (n := b.held token + amount)
    (a := { b.accounts user token with
      deposited := (b.accounts user token).deposited + amount }) (by simp only; omega)
    fun total hleft hle => by
      simp only [Account.left] at hleft ⊢
      omega
  exact hposted.same rfl fun _ => Nat.le_refl _

theorem kept (h : Solvent b) : Solvent (b.kept user token amount) := by
  have hold := h.account user token
  apply h.posted
  · simp only
    omega
  · intro total hleft hle
    simp only [Account.left] at hleft ⊢
    omega

end Solvent

/-- What a call takes from a user is left of what the user has deposited in the same token. -/
def TakesOwn (s : State) (c : Call) : Prop :=
  ∀ user token amount, Takes s c user token amount →
    (s.accounts user token).withdrawn + (s.accounts user token).collected + amount ≤
      (s.accounts user token).deposited

theorem Step.solvent (h : Step msg s f o b) (hc : TakesOwn s ⟨msg, f⟩) (hs : Solvent s.books) :
    Solvent b := by
  cases h with
  | deposits => exact hs
  | withdraws hunpaid hcovered => exact hs.withdrawn (hc _ _ _ (.withdraw hunpaid hcovered))
  | collects hcharges => exact hs.collected (hc _ _ _ (.collectFee hcharges))
  | managed => exact hs
  | @forced token amount =>
    refine hs.same rfl fun t => ?_
    by_cases ht : t = token
    · subst ht
      simp only [Function.update_self]
      exact Nat.le_add_right _ _
    · simp only [Function.update_of_ne ht]
      exact Nat.le_refl _

theorem answered_solvent {a : Answer} {rest : Rest} (hs : Solvent b) :
    Solvent (b.answered a rest) := by
  cases rest with
  | deposit user token amount => exact hs.deposited
  | withdraw user token amount => exact hs.kept

theorem keeps_solvent : Keeps contract TakesOwn (fun s _ => Solvent s.books) where
  enter := by
    intro c s frames r hc hs henter
    rw [After, state_proceed]
    exact (step_of_ok henter).solvent hc hs
  resume := by
    rintro f s frames a ⟨o, s'⟩ hs _ hresume
    rw [After, state_proceed, (finish_books hresume).2]
    exact answered_solvent hs

theorem deploy_solvent (sender : Address) : Solvent (deploy sender).books :=
  ⟨fun _ _ => Nat.le_refl _, fun _ => ⟨0, sums_zero, Nat.le_refl _⟩⟩

/-- A call that takes something is accepted, and it is added to what has been taken. -/
theorem taken_of_takes (h : Takes s c user token amount) :
    ∃ r, contract.enter c s = .ok r ∧
      (r.2.accounts user token).withdrawn + (r.2.accounts user token).collected =
        (s.accounts user token).withdrawn + (s.accounts user token).collected + amount ∧
      (r.2.accounts user token).deposited = (s.accounts user token).deposited := by
  cases h with
  | withdraw hunpaid hcovered =>
    refine ⟨_, withdraw_ok.mpr ⟨⟨hunpaid, hcovered⟩, rfl, rfl⟩, ?_, ?_⟩
    · simp only [afterWithdraw, setAccount_self]
      omega
    · simp only [afterWithdraw, setAccount_self]
  | collectFee hcharges =>
    refine ⟨_, collectFee_ok.mpr ⟨hcharges, rfl, rfl⟩, ?_, ?_⟩
    · simp only [afterCollectFee, setAccount_self]
      omega
    · simp only [afterCollectFee, setAccount_self]

/-! ## Users of one token -/

/-- Every user names one token only. -/
def OneToken (tokenOf : Address → Address) (c : Call) : Prop :=
  match c.function with
  | .deposit token _ => token = tokenOf c.msg.sender
  | .withdraw token _ => token = tokenOf c.msg.sender
  | .collectFee user token _ => token = tokenOf user
  | _ => True

def Rest.ofToken (tokenOf : Address → Address) : Rest → Prop
  | .deposit user token _ => token = tokenOf user
  | .withdraw user token _ => token = tokenOf user

/-- The balance of a user is what is left of its token. -/
def Backed (tokenOf : Address → Address) (b : Books) : Prop :=
  ∀ user, (b.accounts user (tokenOf user)).withdrawn +
      (b.accounts user (tokenOf user)).collected + b.balance user ≤
    (b.accounts user (tokenOf user)).deposited

/-- An account of a user in its token and the balance of the user change. -/
theorem Backed.posted {tokenOf : Address → Address} {b' : Books} (h : Backed tokenOf b)
    {a : Account} (haccounts : b'.accounts = setAccount b.accounts user (tokenOf user) a)
    (hbalance : b'.balance = Function.update b.balance user n)
    (ha : a.withdrawn + a.collected + n ≤ a.deposited) : Backed tokenOf b' := by
  intro u
  rw [haccounts, hbalance]
  by_cases hu : u = user
  · subst hu
    rw [setAccount_self, Function.update_self]
    exact ha
  · rw [setAccount_other (.inl hu), Function.update_of_ne hu]
    exact h u

/-- What holds of a state and the calls that wait in it, where every user names one token. -/
def Single (tokenOf : Address → Address) (s : State) (frames : List (Frame State Rest)) : Prop :=
  Backed tokenOf s.books ∧ ∀ frame ∈ frames, frame.rest.ofToken tokenOf

theorem Step.backed {tokenOf : Address → Address} (h : Step msg s f o b)
    (hone : OneToken tokenOf ⟨msg, f⟩) (hb : Backed tokenOf s.books) :
    Backed tokenOf b ∧ ∀ rest, o = some rest → rest.ofToken tokenOf := by
  cases h with
  | deposits =>
    refine ⟨hb, ?_⟩
    rintro rest ⟨⟩
    exact hone
  | @withdraws token amount _ hcovered =>
    obtain rfl : token = tokenOf msg.sender := hone
    refine ⟨hb.posted rfl rfl ?_, ?_⟩
    · have hold := hb msg.sender
      simp only [State.books] at hold ⊢
      omega
    · rintro rest ⟨⟩
      exact rfl
  | @collects user token gasCostWei hcharges =>
    obtain rfl : token = tokenOf user := hone
    refine ⟨hb.posted rfl rfl ?_, nofun⟩
    have hold := hb user
    have hcovered := hcharges.covered
    simp only [State.books] at hold ⊢
    omega
  | managed => exact ⟨hb, nofun⟩
  | forced => exact ⟨hb, nofun⟩

theorem answered_backed {tokenOf : Address → Address} {rest : Rest} (hb : Backed tokenOf b)
    (hone : rest.ofToken tokenOf) (a : Answer) : Backed tokenOf (b.answered a rest) := by
  cases rest with
  | deposit user token amount =>
    obtain rfl : token = tokenOf user := hone
    have hold := hb user
    apply hb.posted rfl rfl
    simp only
    omega
  | withdraw user token amount =>
    obtain rfl : token = tokenOf user := hone
    have hold := hb user
    refine hb.posted (n := b.balance user) rfl (Function.update_eq_self ..).symm ?_
    simp only
    omega

theorem keeps_single (tokenOf : Address → Address) :
    Keeps contract (fun _ c => OneToken tokenOf c) (Single tokenOf) where
  enter := by
    rintro c s frames ⟨o, s'⟩ hone ⟨hb, hframes⟩ henter
    obtain ⟨hbacked, hrest⟩ := (step_of_ok henter).backed hone hb
    cases o with
    | none => exact ⟨hbacked, hframes⟩
    | some rest => exact ⟨hbacked, List.forall_mem_cons.mpr ⟨hrest rest rfl, hframes⟩⟩
  resume := by
    rintro f s frames a ⟨o, s'⟩ ⟨hb, hframes⟩ _ hresume
    obtain ⟨rfl, hbooks⟩ := finish_books hresume
    obtain ⟨hone, hframes⟩ := List.forall_mem_cons.mp hframes
    refine ⟨?_, hframes⟩
    rw [proceed, hbooks]
    exact answered_backed hb hone a

/-- A user with one token takes what is left of it. -/
theorem takesOwn_of_backed {tokenOf : Address → Address} (hb : Backed tokenOf s.books)
    (hone : OneToken tokenOf c) : TakesOwn s c := by
  intro user token amount htakes
  cases htakes with
  | @withdraw msg token amount _ hcovered =>
    obtain rfl : token = tokenOf msg.sender := hone
    have hold := hb msg.sender
    simp only [State.books] at hold
    omega
  | @collectFee msg user token gasCostWei hcharges =>
    obtain rfl : token = tokenOf user := hone
    have hold := hb user
    have hcovered := hcharges.covered
    simp only [State.books] at hold
    omega

/-! ## Runs -/

theorem takesOwn_of_oneToken {sender : Address} {tokenOf : Address → Address}
    {acts : List (Act Call Answer)}
    (h : Along (machine contract) (Calls fun _ c => OneToken tokenOf c) ⟨deploy sender, []⟩ acts) :
    Along (machine contract) (Calls TakesOwn) ⟨deploy sender, []⟩ acts := by
  have hdeploy : Single tokenOf (deploy sender) [] := ⟨fun _ => Nat.le_refl _, nofun⟩
  exact along_holds (keeps_single tokenOf) h hdeploy fun _ _ _ hs hone =>
    takesOwn_of_backed hs.1 hone

/-- The paymaster is solvent in every state of a run just when everything that is taken from a user
is left of the user's deposits in the same token, as it is where every user names one token. -/
theorem solvent_iff_takesOwn (sender : Address) (acts : List (Act Call Answer)) :
    ((∀ pre, pre <+: acts →
        Solvent (run (machine contract) ⟨deploy sender, []⟩ pre).state.books) ↔
      Along (machine contract) (Calls TakesOwn) ⟨deploy sender, []⟩ acts) ∧
    ∀ tokenOf, Along (machine contract) (Calls fun _ c => OneToken tokenOf c)
        ⟨deploy sender, []⟩ acts →
      Along (machine contract) (Calls TakesOwn) ⟨deploy sender, []⟩ acts := by
  refine ⟨⟨fun hsolvent => ?_, fun htakes pre hpre => ?_⟩, fun _ => takesOwn_of_oneToken⟩
  · refine along_iff_initial.mpr fun pre act hpre => ?_
    rintro c rfl user token amount htake
    obtain ⟨r, henter, htaken, hdeposited⟩ := taken_of_takes htake
    have hnext := (hsolvent _ hpre).account user token
    rw [run_snoc, commit_enter henter, state_proceed] at hnext
    simp only [State.books] at hnext
    omega
  · have hrun := holds_run (g := ⟨deploy sender, []⟩) keeps_solvent (htakes.initial hpre)
      (deploy_solvent sender)
    exact hrun.here

/-- The owner 1 accepts the token 20; the user 5 deposits 100 of it and withdraws 100 of the token
30, which the user 6 has deposited. -/
def otherToken : List (Act Call Answer) :=
  [.call ⟨⟨⟨1⟩, 0, 0⟩, .setAcceptedToken ⟨20⟩ true⟩,
    .call ⟨⟨⟨1⟩, 0, 0⟩, .setAcceptedToken ⟨30⟩ true⟩,
    .call ⟨⟨⟨5⟩, 0, 0⟩, .deposit ⟨20⟩ 100⟩, .answer (.returned true),
    .call ⟨⟨⟨6⟩, 0, 0⟩, .deposit ⟨30⟩ 100⟩, .answer (.returned true),
    .call ⟨⟨⟨5⟩, 0, 0⟩, .withdraw ⟨30⟩ 100⟩, .answer (.returned true)]

/-- Nothing is held of the token 30, of which the user 6 has 100 left. -/
theorem other_token_withdrawn :
    let s := (run (machine contract) ⟨deploy ⟨1⟩, []⟩ otherToken).state
    s.accounts ⟨5⟩ ⟨30⟩ = ⟨0, 100, 0⟩ ∧ s.accounts ⟨6⟩ ⟨30⟩ = ⟨100, 0, 0⟩ ∧ s.held ⟨30⟩ = 0 ∧
      ¬ Solvent s.books := by
  intro s
  have htaken : s.accounts ⟨5⟩ ⟨30⟩ = ⟨0, 100, 0⟩ := by decide
  refine ⟨htaken, by decide, by decide, fun hsolvent => ?_⟩
  have haccount := hsolvent.account ⟨5⟩ ⟨30⟩
  simp only [State.books, htaken] at haccount
  omega

end EvmRelayPaymaster
