import AgenticPay.Apportion
import AgenticPay.EvmVaultAccounts
import AgenticPay.Holdings

/-!
# What the payment vault holds for its vaults

A vault that is not closed has paid out what it has released, a closed one its whole
amount, and the balances cover what the others have left.
-/
namespace EvmPaymentVault

open Evm Reentrancy Transaction

def VaultStatus.closed : VaultStatus → Bool
  | .completed | .refunded => true
  | _ => false

/-- What a vault has been created with. -/
structure Terms where
  depositor : Address
  recipient : Address
  totalAmount : Nat
  token : Address
  milestoneCount : Nat
  amountBps : Nat → UInt16
  deadline : Nat → Nat
  approver : Nat → Address

namespace Account

def terms (a : Account) : Terms where
  depositor := a.vault.depositor
  recipient := a.vault.recipient
  totalAmount := a.vault.totalAmount
  token := a.vault.token
  milestoneCount := a.vault.milestoneCount
  amountBps i := (a.milestones i).amountBps
  deadline i := (a.milestones i).deadline
  approver i := (a.milestones i).approver

/-- The amounts of the released milestones. -/
def releasedSum (a : Account) : Nat :=
  Totals.total a.vault.milestoneCount fun i =>
    if (a.milestones i).status = .released then a.amount i else 0

/-- The milestones make up the whole of the vault. -/
def Whole (a : Account) : Prop :=
  Totals.total a.vault.milestoneCount (fun i => (a.milestones i).amountBps.toNat) = 10000

/-- What the contract must keep of a token for the account. -/
def reserved (a : Account) (token : Address) : Nat :=
  if token = a.vault.token ∧ ¬ a.vault.status.closed then a.remaining else 0

/-- An account from which `due` is still to be sent. -/
structure Sound (a : Account) (due : Nat) : Prop where
  bounded : a.vault.totalAmount < wordBound
  whole : a.Whole
  released : a.vault.releasedAmount = a.releasedSum
  parties : ∀ p ∈ a.payments, p.recipient = a.vault.recipient ∨ p.recipient = a.vault.depositor
  toRecipient : a.vault.status.closed = false → ∀ p ∈ a.payments, p.recipient = a.vault.recipient
  paid : a.vault.status.closed = false → a.paidOut + due = a.vault.releasedAmount
  emptied : a.vault.status.closed = true → a.paidOut + due = a.vault.totalAmount

end Account

variable {a a' : Account} {p : Payment} {rest : Rest} {o : Option Rest} {msg : Message}
  {f : Function} {self : Address} {v i due : Nat} {status : VaultStatus} {token : Address}

namespace Account

@[simp] theorem terms_setStatus : (a.setStatus status).terms = a.terms := rfl

@[simp] theorem terms_settle : a.settle.terms = a.terms := by
  rw [settle]
  split <;> rfl

@[simp] theorem terms_after : (a.after rest).terms = a.terms := by
  cases rest with
  | release => exact terms_settle
  | _ => rfl

/-- Another status of one milestone. -/
theorem update_status {α : Type} (g : Milestone → α) (m : Nat → Milestone) (i j : Nat)
    (status : MilestoneStatus) (h : ∀ m : Milestone, g { m with status } = g m) :
    g (Function.update m i { m i with status } j) = g (m j) := by
  by_cases he : j = i
  · rw [he, Function.update_self, h]
  · rw [Function.update_of_ne he]

@[simp] theorem terms_release : (a.release i).terms = a.terms := by
  simp only [terms, release, Terms.mk.injEq, true_and]
  exact ⟨funext fun j => update_status (·.amountBps) _ i j _ fun _ => rfl,
    funext fun j => update_status (·.deadline) _ i j _ fun _ => rfl,
    funext fun j => update_status (·.approver) _ i j _ fun _ => rfl⟩

theorem amount_congr (h : a'.terms = a.terms) (i : Nat) : a'.amount i = a.amount i := by
  have htotal := congrArg Terms.totalAmount h
  have hbps := congrFun (congrArg Terms.amountBps h) i
  simp only [terms] at htotal hbps
  rw [amount, amount, htotal, hbps]

theorem total_amount_eq (a : Account) :
    Totals.total a.vault.milestoneCount a.amount =
      (Apportion.floors a.vault.totalAmount 10000 ((List.range a.vault.milestoneCount).map
        fun i => (a.milestones i).amountBps.toNat)).sum := by
  rw [Totals.total, Apportion.floors, List.map_map]
  rfl

/-- The milestones together are not more than the vault. -/
theorem total_amount_le (h : a.Whole) :
    Totals.total a.vault.milestoneCount a.amount ≤ a.vault.totalAmount := by
  rw [total_amount_eq]
  exact Apportion.sum_floors_le (by decide) h.le

theorem releasedSum_le (h : a.Whole) : a.releasedSum ≤ a.vault.totalAmount := by
  refine (Totals.total_le_total fun i _ => ?_).trans (total_amount_le h)
  split
  · exact Nat.le_refl _
  · exact Nat.zero_le _

namespace Sound

theorem released_le (h : a.Sound due) : a.vault.releasedAmount ≤ a.vault.totalAmount :=
  h.released ▸ releasedSum_le h.whole

/-- What is reserved and what is spent of a token make up the whole amount. -/
theorem reserved_add_spent (h : a.Sound 0) (token : Address) :
    a.reserved token + a.spent token =
      if token = a.vault.token then a.vault.totalAmount else 0 := by
  have hle := h.released_le
  rw [reserved, spent]
  by_cases he : token = a.vault.token
  · cases hclosed : a.vault.status.closed with
    | true =>
      have hemptied := h.emptied hclosed
      rw [if_neg (by simp), if_pos he, if_pos he]
      omega
    | false =>
      have hpaid := h.paid hclosed
      rw [if_pos ⟨he, by simp⟩, if_pos he, if_pos he, remaining]
      omega
  · rw [if_neg fun h => he h.1, if_neg he, if_neg he]

theorem setStatus (h : a.Sound due) (hsame : status.closed = a.vault.status.closed) :
    (a.setStatus status).Sound due where
  bounded := h.bounded
  whole := h.whole
  released := h.released
  parties := h.parties
  toRecipient := fun hopen => h.toRecipient (hsame ▸ hopen)
  paid := fun hopen => h.paid (hsame ▸ hopen)
  emptied := fun hclosed => h.emptied (hsame ▸ hclosed)

/-- A vault is closed, and what remains is to be sent. -/
theorem close (h : a.Sound 0) (hopen : a.vault.status.closed = false)
    (hclosed : status.closed = true) : (a.setStatus status).Sound a.remaining where
  bounded := h.bounded
  whole := h.whole
  released := h.released
  parties := h.parties
  toRecipient := fun hopen' => by simp [Account.setStatus, hclosed] at hopen'
  paid := fun hopen' => by simp [Account.setStatus, hclosed] at hopen'
  emptied := fun _ => by
    have hpaid := h.paid hopen
    have hle := h.released_le
    simp only [remaining, Account.setStatus, paidOut] at hpaid ⊢
    omega

theorem settle (h : a.Sound 0) : a.settle.Sound 0 := by
  rw [Account.settle]
  split
  · rename_i hfull
    refine ⟨h.bounded, h.whole, h.released, h.parties, fun hopen => ?_, fun hopen => ?_, ?_⟩
    · contradiction
    · contradiction
    · intro _
      cases hclosed : a.vault.status.closed with
      | true => exact h.emptied hclosed
      | false => exact (h.paid hclosed).trans (Nat.le_antisymm h.released_le hfull)
  · exact h

theorem pay (h : a.Sound p.amount)
    (hparty : p.recipient = a.vault.recipient ∨ p.recipient = a.vault.depositor)
    (hopen : a.vault.status.closed = false → p.recipient = a.vault.recipient) :
    (a.pay p).Sound 0 where
  bounded := h.bounded
  whole := h.whole
  released := h.released
  parties := by
    intro q hq
    obtain hq | hq := List.mem_append.mp hq
    · exact h.parties q hq
    · rw [List.mem_singleton.mp hq]
      exact hparty
  toRecipient := by
    intro hstatus q hq
    obtain hq | hq := List.mem_append.mp hq
    · exact h.toRecipient hstatus q hq
    · rw [List.mem_singleton.mp hq]
      exact hopen hstatus
  paid := fun hstatus => (paidOut_pay a p).trans (h.paid hstatus)
  emptied := fun hstatus => (paidOut_pay a p).trans (h.emptied hstatus)

theorem after (h : a.Sound 0) (rest : Rest) : (a.after rest).Sound 0 := by
  cases rest with
  | release => exact h.settle
  | _ => exact h

/-- The account after the payment, or at once where there is nothing to send. -/
theorem sends (h : a.Sound p.amount) (hs : Sends self a p rest o a')
    (hparty : p.recipient = a.vault.recipient ∨ p.recipient = a.vault.depositor)
    (hopen : a.vault.status.closed = false → p.recipient = a.vault.recipient) : a'.Sound 0 := by
  cases hs with
  | nothing hnone =>
    rw [hnone] at h
    exact h.after rest
  | sent => exact h.pay hparty hopen

end Sound

/-- A released milestone counts from now on. -/
theorem releasedSum_release (hlisted : i < a.vault.milestoneCount)
    (hpending : (a.milestones i).status = .pending) :
    (a.release i).releasedSum = a.releasedSum + a.amount i := by
  have hothers : ∀ j < a.vault.milestoneCount, j ≠ i →
      (if ((a.release i).milestones j).status = .released then (a.release i).amount j else 0) =
        if (a.milestones j).status = .released then a.amount j else 0 := by
    intro j _ hj
    rw [amount_congr terms_release]
    simp only [Account.release, Function.update_of_ne hj]
  have hsplit := Totals.total_change hlisted hothers
  simp only [hpending, Account.release, Function.update_self, reduceCtorEq, if_false,
    if_true, Nat.add_zero] at hsplit
  have hamount : (a.release i).amount i = a.amount i := amount_congr terms_release i
  exact hsplit.trans (congrArg _ hamount)

theorem Whole.congr (h : a.Whole) (hterms : a'.terms = a.terms) : a'.Whole := by
  have hcount : a'.vault.milestoneCount = a.vault.milestoneCount :=
    congrArg Terms.milestoneCount hterms
  rw [Whole, hcount]
  refine (Totals.total_congr fun i _ => ?_).trans h
  exact congrArg UInt16.toNat (congrFun (congrArg Terms.amountBps hterms) i)

theorem Sound.release (h : a.Sound 0) (hlisted : i < a.vault.milestoneCount)
    (hactive : a.vault.status = .active) (hpending : (a.milestones i).status = .pending) :
    (a.release i).Sound (a.amount i) := by
  have hsum := releasedSum_release hlisted hpending
  have hwhole : (a.release i).Whole := h.whole.congr terms_release
  have hle : (a.release i).releasedSum ≤ a.vault.totalAmount := releasedSum_le hwhole
  have hbounded := h.bounded
  have hreleased := h.released
  have hadd : (a.release i).vault.releasedAmount = a.vault.releasedAmount + a.amount i :=
    uncheckedAdd_eq (by omega)
  have hopen : a.vault.status.closed = false := by
    rw [hactive]
    rfl
  refine ⟨h.bounded, hwhole, by omega, h.parties, fun _ => h.toRecipient hopen, fun _ => ?_, ?_⟩
  · have hpaid := h.paid hopen
    rw [hadd, ← hpaid]
    rfl
  · intro hclosed
    rw [show (a.release i).vault.status = a.vault.status from rfl, hopen] at hclosed
    contradiction

/-- A call keeps what a vault has been created with. -/
theorem terms_change (h : Change self msg v a f o a') : a'.terms = a.terms := by
  have hsends : ∀ {b p rest o}, Sends self b p rest o a' → a'.terms = b.terms := by
    intro b p rest o hs
    cases hs with
    | nothing => exact terms_after
    | sent => rfl
  cases h with
  | released _ _ _ _ hs => exact (hsends hs).trans terms_release
  | refunded _ _ hs => exact (hsends hs).trans terms_setStatus
  | disputed => rfl
  | resolved _ _ hs => exact (hsends hs).trans terms_setStatus

theorem sound_change (ha : a.Sound 0) (h : Change self msg v a f o a') : a'.Sound 0 := by
  cases h with
  | released _ hactive hlisted hpending hs =>
    exact (ha.release hlisted hactive hpending).sends hs (.inl rfl) fun _ => rfl
  | refunded _ hactive hs =>
    refine (ha.close ?_ rfl).sends hs (.inr rfl) fun hopen => by contradiction
    rw [hactive]
    rfl
  | disputed hactive =>
    apply ha.setStatus
    rw [hactive]
    rfl
  | @resolved r _ _ _ hdisputed hs =>
    have hopen : a.vault.status.closed = false := by
      rw [hdisputed]
      rfl
    have hclosed : (resolution r).closed = true := by cases r <;> rfl
    have hparty : a.payee r = a.vault.recipient ∨ a.payee r = a.vault.depositor := by
      cases r with
      | true => exact .inl rfl
      | false => exact .inr rfl
    refine (ha.close hopen hclosed).sends hs hparty fun hopen' => ?_
    rw [show (a.setStatus (resolution r)).vault.status = resolution r from rfl, hclosed] at hopen'
    contradiction

/-! ## A new vault -/

/-- The numbered entries of a list are its entries. -/
theorem total_getD (l : List UInt16) :
    Totals.total l.length (fun i => (l[i]?.getD 0).toNat) = (l.map (·.toNat)).sum := by
  have hlist : ((List.range l.length).map fun i => (l[i]?.getD 0).toNat) = l.map (·.toNat) := by
    apply List.ext_getElem
    · simp
    · intro i _ hi
      rw [List.length_map] at hi
      simp [hi]
  rw [Totals.total, hlist]

theorem sound_opened {args : VaultArgs} {depositor : Address} {totalAmount : Nat}
    (haccepted : Accepted args) (hbounded : totalAmount < wordBound) :
    (opened args depositor totalAmount).Sound 0 where
  bounded := hbounded
  whole := by
    rw [Whole, ← haccepted.whole, ← total_getD]
    apply Totals.total_congr
    intro i hi
    have hlt : i < args.milestoneBps.length := hi
    simp only [opened, if_pos hlt, newMilestone]
  released := by
    refine (Totals.total_eq_zero fun i hi => ?_).symm
    have hlt : i < args.milestoneBps.length := hi
    simp only [opened, if_pos hlt, newMilestone, reduceCtorEq, if_false]
  parties := fun p hp => by contradiction
  toRecipient := fun _ p hp => by contradiction
  paid := fun _ => rfl
  emptied := fun hclosed => by contradiction

end Account

/-! ## All vaults -/

/-- Every vault is sound, and the balances cover what they have left. -/
structure Valid (b : Books) : Prop where
  fresh : ∀ v, b.vaultCount ≤ v → b.account v = .blank
  sound : ∀ v < b.vaultCount, (b.account v).Sound 0
  covered : ∀ token, Totals.total b.vaultCount (fun v => (b.account v).reserved token) ≤
    b.balance token

variable {b b' : Books} {s s' : State} {u : Nat}
  {frames : List (State × Rest)}
  {C : Nat → Account → Account → Prop}

theorem valid_deployed : Valid deployed.toBooks where
  fresh := fun _ _ => rfl
  sound := fun _ hv => absurd hv (Nat.not_lt_zero _)
  covered := fun _ => Nat.le_refl _

theorem Posted.valid (h : Posted C b b') (hv : Valid b)
    (hC : ∀ u a a', C u a a' → a.Sound 0 → a'.Sound 0 ∧ a'.terms = a.terms) : Valid b' := by
  cases h with
  | kept hcount hsame hheld =>
    refine ⟨fun v hle => ?_, fun v hlt => ?_, fun token => ?_⟩
    · rw [hsame]
      exact hv.fresh v (hcount ▸ hle)
    · rw [hsame]
      exact hv.sound v (hcount ▸ hlt)
    · rw [hcount, Totals.total_congr fun v _ => by rw [hsame]]
      exact (hv.covered token).trans (hheld token)
  | @opened args depositor totalAmount haccepted hfunded hbounded hcount hnew hsame hheld =>
    refine ⟨fun v hle => ?_, fun v hlt => ?_, fun token => ?_⟩
    · rw [hsame v (by omega)]
      exact hv.fresh v (by omega)
    · by_cases he : v = b.vaultCount
      · rw [he, hnew]
        exact Account.sound_opened haccepted hbounded
      · rw [hsame v he]
        exact hv.sound v (by omega)
    · have hsum : (Account.opened args depositor totalAmount).reserved token +
          (Account.opened args depositor totalAmount).spent token =
            if token = args.token then totalAmount else 0 :=
        (Account.sound_opened haccepted hbounded).reserved_add_spent token
      have hothers : Totals.total b.vaultCount (fun v => (b'.account v).reserved token) =
          Totals.total b.vaultCount (fun v => (b.account v).reserved token) :=
        Totals.total_congr fun v hlt => by rw [hsame v (by omega)]
      have hcovered := hv.covered token
      have hgrown := hheld token
      rw [hcount, Totals.total_succ, hothers, hnew]
      omega
  | @changed u hmade hchange hcount hsame hheld =>
    obtain ⟨hsound, hterms⟩ := hC _ _ _ hchange (hv.sound u hmade)
    refine ⟨fun v hle => ?_, fun v hlt => ?_, fun token => ?_⟩
    · rw [hsame v (by omega)]
      exact hv.fresh v (by omega)
    · by_cases he : v = u
      · rw [he]
        exact hsound
      · rw [hsame v he]
        exact hv.sound v (by omega)
    · have hbefore := (hv.sound u hmade).reserved_add_spent token
      have hafter := hsound.reserved_add_spent token
      have htotal : (b'.account u).vault.totalAmount = (b.account u).vault.totalAmount :=
        congrArg Terms.totalAmount hterms
      have htoken : (b'.account u).vault.token = (b.account u).vault.token :=
        congrArg Terms.token hterms
      rw [htotal, htoken] at hafter
      have hsplit := Totals.total_change (f := fun v => (b.account v).reserved token)
        (g := fun v => (b'.account v).reserved token) hmade fun v _ hv => by rw [hsame v hv]
      have hle := Totals.le_total hmade fun v => (b.account v).reserved token
      have hcovered := hv.covered token
      have hgrown := hheld token
      rw [hcount]
      omega

/-! ## Runs -/

/-- The books are valid, what waits can go on, and no vault has been lost since it has begun to
wait. -/
def Kept (s : State) (frames : List (State × Rest)) : Prop :=
  Valid s.toBooks ∧ ∀ frame ∈ frames,
    Ready s.vaultCount frame.2 ∧ frame.1.vaultCount ≤ s.vaultCount

theorem Kept.mono (h : Kept s frames) (hvalid : Valid s'.toBooks)
    (hle : s.vaultCount ≤ s'.vaultCount) : Kept s' frames :=
  ⟨hvalid, fun frame hframe =>
    ⟨(h.2 frame hframe).1.mono hle, (h.2 frame hframe).2.trans hle⟩⟩

theorem Valid.step {c : Call} {o : Option Rest} (hv : Valid s.toBooks)
    (h : (contract self).enter c s = .ok (o, s')) :
    Posted (fun u a a' => Change self c.msg u a c.function o a') s.toBooks s'.toBooks ∧
      Valid s'.toBooks := by
  have hposted := (step_of_ok h).posted (hv.fresh _ (Nat.le_refl _))
  exact ⟨hposted, hposted.valid hv fun _ _ _ hchange ha =>
    ⟨Account.sound_change ha hchange, Account.terms_change hchange⟩⟩

theorem Valid.resume (hv : Valid s.toBooks) (hready : Ready s.vaultCount rest)
    (h : (contract self).resume rest s = .ok s') :
    Posted (fun u a a' => rest.about = some u ∧ a' = a.after rest) s.toBooks s'.toBooks ∧
      Valid s'.toBooks := by
  have hposted := (resume_resumed h).posted (hv.fresh _ (Nat.le_refl _)) hready
  refine ⟨hposted, hposted.valid hv ?_⟩
  rintro _ a _ ⟨_, rfl⟩ ha
  exact ⟨ha.after rest, Account.terms_after⟩

theorem keeps_kept (self : Address) : Keeps (contract self) (fun _ _ => True) Kept where
  finish _ hkept henter := by
    obtain ⟨hposted, hvalid⟩ := hkept.1.step henter
    exact hkept.mono hvalid hposted.count_le
  wait _ hkept henter := by
    obtain ⟨hposted, hvalid⟩ := hkept.1.step henter
    refine ⟨hvalid, fun frame hframe => ?_⟩
    obtain rfl | hframe := List.mem_cons.mp hframe
    · exact ⟨((step_of_ok henter).ready rfl).mono hposted.count_le, hposted.count_le⟩
    · exact (hkept.mono hvalid hposted.count_le).2 frame hframe
  resume hkept _ hresume := by
    obtain ⟨hposted, hvalid⟩ := hkept.1.resume (hkept.2 _ List.mem_cons_self).1 hresume
    refine ⟨hvalid, fun frame hframe => ?_⟩
    exact (hkept.mono hvalid hposted.count_le).2 frame (List.mem_cons_of_mem _ hframe)

theorem kept_run (self : Address) (acts : List (Act Call)) :
    Holds Kept (run (machine (contract self)) ⟨deployed, []⟩ acts).state
      (run (machine (contract self)) ⟨deployed, []⟩ acts).frames :=
  holds_run_any (g := ⟨deployed, []⟩) (keeps_kept self)
    ⟨valid_deployed, fun _ h => absurd h List.not_mem_nil⟩ acts

/-- A closed vault is still closed, and nothing has been paid out of it since. -/
def StaysClosed (s s' : State) : Prop :=
  ∀ v, (s.vaults v).status.closed = true → (s'.vaults v).status.closed = true ∧
    s'.payments.filter (·.vaultId = v) = s.payments.filter (·.vaultId = v)

/-- What the calls and the resumptions of waiting calls do to the closed vaults. -/
def ClosedStay (self : Address) (g : Config State Rest) : Act Call → Prop
  | .call c => ∀ o s', (contract self).enter c g.state = .ok (o, s') → StaysClosed g.state s'
  | .answer _ => ∀ snapshot rest frames s', g.frames = (snapshot, rest) :: frames →
      (contract self).resume rest g.state = .ok s' → StaysClosed g.state s'

theorem Posted.staysClosed (h : Posted C s.toBooks s'.toBooks)
    (hfresh : s.toBooks.account s.vaultCount = .blank)
    (hC : ∀ u a a', C u a a' → a.vault.status.closed = true →
      a'.vault.status.closed = true ∧ a'.payments = a.payments) : StaysClosed s s' := by
  have hsame : ∀ v, s'.toBooks.account v = s.toBooks.account v →
      (s.vaults v).status.closed = true → (s'.vaults v).status.closed = true ∧
        s'.payments.filter (·.vaultId = v) = s.payments.filter (·.vaultId = v) := by
    intro v he hclosed
    obtain ⟨hvault, _, hpayments⟩ := Account.mk.inj he
    exact ⟨hvault ▸ hclosed, hpayments⟩
  intro v hclosed
  cases h with
  | kept _ haccounts => exact hsame v (haccounts v) hclosed
  | opened _ _ _ _ _ haccounts =>
    apply hsame v (haccounts v _) hclosed
    rintro rfl
    rw [(Account.mk.inj hfresh).1] at hclosed
    contradiction
  | @changed u _ hchange _ haccounts =>
    by_cases he : v = u
    · subst he
      exact hC _ _ _ hchange hclosed
    · exact hsame v (haccounts v he) hclosed

/-- No call changes a closed account. -/
theorem not_closed_of_change (h : Change self msg v a f o a') : a.vault.status.closed = false := by
  cases h with
  | released _ hactive => rw [hactive]; rfl
  | refunded _ hactive => rw [hactive]; rfl
  | disputed hactive => rw [hactive]; rfl
  | resolved _ hdisputed => rw [hdisputed]; rfl

theorem after_closed (rest : Rest) (h : a.vault.status.closed = true) :
    (a.after rest).vault.status.closed = true ∧ (a.after rest).payments = a.payments := by
  refine ⟨?_, (a.after_keeps rest).1⟩
  cases rest with
  | release =>
    rw [Account.after, Account.settle]
    split
    · rfl
    · exact h
  | _ => exact h

theorem closedStay (hkept : Holds Kept s frames) (act : Act Call) :
    ClosedStay self ⟨s, frames⟩ act := by
  have hfresh := hkept.here.1.fresh _ (Nat.le_refl _)
  cases act with
  | call c =>
    intro o s' henter
    apply (hkept.here.1.step henter).1.staysClosed hfresh
    intro u a a' hchange hclosed
    rw [not_closed_of_change hchange] at hclosed
    contradiction
  | answer ok =>
    rintro snapshot rest frames s' rfl hresume
    have hready := (hkept.here.2 _ List.mem_cons_self).1
    apply (hkept.here.1.resume hready hresume).1.staysClosed hfresh
    rintro u a _ ⟨_, rfl⟩ hclosed
    exact after_closed rest hclosed

/-- No more than its amount is paid out of a vault. -/
theorem Valid.paidOut_le (hv : Valid b) (v : Nat) :
    (b.account v).paidOut ≤ (b.vaults v).totalAmount := by
  by_cases hmade : v < b.vaultCount
  · have hsound := hv.sound v hmade
    have hle : (b.account v).vault.releasedAmount ≤ (b.vaults v).totalAmount := hsound.released_le
    cases hclosed : (b.account v).vault.status.closed with
    | true => exact (hsound.emptied hclosed).le
    | false => exact (hsound.paid hclosed).le.trans hle
  · rw [hv.fresh v (Nat.le_of_not_lt hmade)]
    exact Nat.zero_le _

theorem Valid.parties (hv : Valid b) (hp : p ∈ b.payments) :
    p.recipient = (b.vaults p.vaultId).recipient ∨
      p.recipient = (b.vaults p.vaultId).depositor := by
  have hmem : p ∈ (b.account p.vaultId).payments := List.mem_filter.mpr ⟨hp, by simp⟩
  by_cases hmade : p.vaultId < b.vaultCount
  · exact (hv.sound _ hmade).parties p hmem
  · rw [hv.fresh _ (Nat.le_of_not_lt hmade)] at hmem
    exact absurd hmem List.not_mem_nil

/-- The balance of a token covers what the active and the disputed vaults have left. -/
theorem Valid.left_le (hv : Valid b) (token : Address) :
    ((List.range b.vaultCount).map fun v =>
      if (b.vaults v).token = token ∧
          ((b.vaults v).status = .active ∨ (b.vaults v).status = .disputed)
        then (b.vaults v).totalAmount - (b.vaults v).releasedAmount else 0).sum ≤
      b.balance token := by
  refine (Totals.total_le_total fun v _ => ?_).trans (hv.covered token)
  split
  · rename_i hopen
    obtain ⟨rfl, hstatus⟩ := hopen
    have hnot : ¬ (b.account v).vault.status.closed = true := by
      intro hclosed
      obtain he | he := hstatus
      · rw [show (b.account v).vault.status = .active from he] at hclosed
        contradiction
      · rw [show (b.account v).vault.status = .disputed from he] at hclosed
        contradiction
    rw [Account.reserved, if_pos ⟨rfl, hnot⟩]
    exact Nat.le_refl _
  · exact Nat.zero_le _

/-- The recipient and the depositor of a vault together are paid at most its amount, and the
balance of each token covers what the active and the disputed vaults have left. -/
structure Solvent (s : State) : Prop where
  paidOut_le : ∀ v, ((s.payments.filter (·.vaultId = v)).map (·.amount)).sum ≤
    (s.vaults v).totalAmount
  parties : ∀ p ∈ s.payments, p.recipient = (s.vaults p.vaultId).recipient ∨
    p.recipient = (s.vaults p.vaultId).depositor
  left_le : ∀ token, ((List.range s.vaultCount).map fun v =>
    if (s.vaults v).token = token ∧
        ((s.vaults v).status = .active ∨ (s.vaults v).status = .disputed)
      then (s.vaults v).totalAmount - (s.vaults v).releasedAmount else 0).sum ≤ s.balance token

/-- In every run the contract is solvent, and a closed vault pays nothing any more. -/
theorem vaults_solvent (self : Address) (acts : List (Act Call)) :
    Solvent (run (machine (contract self)) ⟨deployed, []⟩ acts).state ∧
      Along (machine (contract self)) (ClosedStay self) ⟨deployed, []⟩ acts := by
  have hvalid := (kept_run self acts).here.1
  refine ⟨⟨hvalid.paidOut_le, fun p hp => hvalid.parties hp, hvalid.left_le⟩, ?_⟩
  exact along_iff_initial.mpr fun mid act _ => closedStay (kept_run self mid) act

end EvmPaymentVault
