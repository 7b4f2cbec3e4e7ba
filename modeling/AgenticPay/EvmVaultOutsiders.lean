import AgenticPay.EvmVaultCustody

/-!
# What outsiders can move out of a vault of the payment vault

Without its depositor and its approvers a vault pays its recipient the milestones
whose deadline has passed, and all that is left when anybody resolves a dispute.
-/
namespace EvmPaymentVault

open Evm Reentrancy Transaction

namespace Account

def paidTo (a : Account) (recipient : Address) : Nat :=
  ((a.payments.filter (·.recipient = recipient)).map (·.amount)).sum

/-- The amounts of the milestones whose deadline has passed. -/
def expiredSum (a : Account) (now : Nat) : Nat :=
  Totals.total a.vault.milestoneCount fun i =>
    if (a.milestones i).deadline ≠ 0 ∧ (a.milestones i).deadline < now then a.amount i else 0

/-- What the recipient has been paid out of the vault are amounts that have expired. -/
def MovesExpired (a : Account) (now : Nat) : Prop :=
  a.paidTo a.vault.recipient ≤ a.expiredSum now

/-- Neither the depositor nor an approver of the vault. -/
def Outsider (a : Account) (sender : Address) : Prop :=
  sender ≠ a.vault.depositor ∧
    ∀ i < a.vault.milestoneCount, sender ≠ (a.milestones i).approver

/-- A dispute over the vault cannot be resolved for the recipient before all of it has
expired. -/
def Covered (self : Address) (a : Account) (now : Nat) : Prop :=
  a.vault.status = .disputed → (a.vault.token = .zero → a.vault.recipient ≠ self) →
    a.vault.totalAmount ≤ a.expiredSum now

/-- What outsiders have made of a vault with the given terms until now. -/
structure Untapped (terms : Terms) (now : Nat) (a : Account) : Prop where
  terms : a.terms = terms
  dated : ∀ i < a.vault.milestoneCount, (a.milestones i).status = .released →
    (a.milestones i).deadline ≠ 0 ∧ (a.milestones i).deadline < now
  distinct : a.vault.status = .disputed → a.vault.depositor ≠ a.vault.recipient
  expired : a.MovesExpired now

end Account

/-- The time of an act, and the latest of several. -/
def time : Act Call → Nat
  | .call c => c.msg.timestamp
  | .answer _ => 0

def latest (acts : List (Act Call)) : Nat := (acts.map time).foldr max 0

variable {a a' : Account} {p : Payment} {rest : Rest} {o : Option Rest} {msg : Message}
  {f : Function} {self : Address} {v u now now' : Nat} {s s' : State} {terms : Terms}
  {frames : List (State × Rest)}

theorem latest_snoc (acts : List (Act Call)) (act : Act Call) :
    latest (acts ++ [act]) = max (latest acts) (time act) := by
  induction acts with
  | nil => simp [latest]
  | cons first acts ih =>
    simp only [latest, List.cons_append, List.map_cons, List.foldr_cons] at ih ⊢
    omega

namespace Account

theorem paidTo_le_paidOut (a : Account) (recipient : Address) :
    a.paidTo recipient ≤ a.paidOut :=
  (List.filter_sublist.map _).sum_le_sum fun _ _ => Nat.zero_le _

theorem paidTo_eq_paidOut (h : ∀ p ∈ a.payments, p.recipient = a.vault.recipient) :
    a.paidTo a.vault.recipient = a.paidOut := by
  rw [paidTo, paidOut, List.filter_eq_self.mpr fun p hp => by simpa using h p hp]

theorem paidTo_pay_of_ne {recipient : Address} (h : p.recipient ≠ recipient) :
    (a.pay p).paidTo recipient = a.paidTo recipient := by
  simp only [paidTo, pay, List.filter_append]
  rw [List.filter_cons_of_neg (by simpa using h), List.filter_nil, List.append_nil]

/-- What is released is what has expired. -/
theorem releasedSum_le_expiredSum
    (h : ∀ i < a.vault.milestoneCount, (a.milestones i).status = .released →
      (a.milestones i).deadline ≠ 0 ∧ (a.milestones i).deadline < now) :
    a.releasedSum ≤ a.expiredSum now := by
  apply Totals.total_le_total
  intro i hi
  by_cases hreleased : (a.milestones i).status = .released
  · rw [if_pos hreleased, if_pos (h i hi hreleased)]
  · rw [if_neg hreleased]
    exact Nat.zero_le _

theorem expiredSum_mono (a : Account) (h : now ≤ now') : a.expiredSum now ≤ a.expiredSum now' := by
  apply Totals.total_le_total
  intro i _
  by_cases hpast : (a.milestones i).deadline ≠ 0 ∧ (a.milestones i).deadline < now
  · rw [if_pos hpast, if_pos ⟨hpast.1, Nat.lt_of_lt_of_le hpast.2 h⟩]
  · rw [if_neg hpast]
    exact Nat.zero_le _

theorem Outsider.congr {sender : Address} (h : a.Outsider sender) (hterms : a'.terms = a.terms) :
    a'.Outsider sender := by
  have hcount : a'.vault.milestoneCount = a.vault.milestoneCount :=
    congrArg Terms.milestoneCount hterms
  have hdepositor : a'.vault.depositor = a.vault.depositor := congrArg Terms.depositor hterms
  refine ⟨hdepositor ▸ h.1, fun i hi => ?_⟩
  have happrover : (a'.milestones i).approver = (a.milestones i).approver :=
    congrFun (congrArg Terms.approver hterms) i
  rw [happrover]
  exact h.2 i (hcount ▸ hi)

namespace Untapped

theorem mono (h : a.Untapped terms now) (hle : now ≤ now') : a.Untapped terms now' where
  terms := h.terms
  dated := fun i hi hreleased =>
    ⟨(h.dated i hi hreleased).1, Nat.lt_of_lt_of_le (h.dated i hi hreleased).2 hle⟩
  distinct := h.distinct
  expired := h.expired.trans (a.expiredSum_mono hle)

/-- What goes on after a payment moves nothing. -/
theorem after (h : a.Untapped terms now) (rest : Rest) : (a.after rest).Untapped terms now := by
  cases rest with
  | release =>
    rw [Account.after, Account.settle]
    split
    · exact ⟨h.terms, h.dated, fun hdisputed => by contradiction, h.expired⟩
    · exact h
  | _ => exact h

theorem of_released (hterms : a.terms = terms)
    (hdated : ∀ i < a.vault.milestoneCount, (a.milestones i).status = .released →
      (a.milestones i).deadline ≠ 0 ∧ (a.milestones i).deadline < now)
    (hactive : a.vault.status = .active) (hpaid : a.paidOut ≤ a.releasedSum) :
    a.Untapped terms now where
  terms := hterms
  dated := hdated
  distinct := fun hdisputed => by
    rw [hactive] at hdisputed
    contradiction
  expired := (a.paidTo_le_paidOut _).trans (hpaid.trans (releasedSum_le_expiredSum hdated))

/-- A release after the deadline. -/
theorem release {i : Nat} (h : a.Untapped terms now) (ha : a.Sound 0)
    (hactive : a.vault.status = .active) (hlisted : i < a.vault.milestoneCount)
    (hpending : (a.milestones i).status = .pending) (hdated : (a.milestones i).deadline ≠ 0)
    (hlate : (a.milestones i).deadline < now) (hp : p.amount = a.amount i)
    (hs : Sends self (a.release i) p rest o a') : a'.Untapped terms now := by
  have hsound := ha.release hlisted hactive hpending
  have hopen : (a.release i).vault.status.closed = false := by
    rw [show (a.release i).vault.status = .active from hactive]
    rfl
  have hpaid : (a.release i).paidOut + p.amount = (a.release i).releasedSum := by
    rw [hp, hsound.paid hopen, hsound.released]
  have hdates : ∀ j < a.vault.milestoneCount, ((a.release i).milestones j).status = .released →
      ((a.release i).milestones j).deadline ≠ 0 ∧ ((a.release i).milestones j).deadline < now := by
    intro j hj hreleased
    by_cases he : j = i
    · subst he
      simp only [Account.release, Function.update_self]
      exact ⟨hdated, hlate⟩
    · simp only [Account.release, Function.update_of_ne he] at hreleased ⊢
      exact h.dated j hj hreleased
  have hterms : (a.release i).terms = terms := terms_release.trans h.terms
  cases hs with
  | nothing hnone => exact (of_released hterms hdates hactive (by omega)).after rest
  | sent => exact of_released hterms hdates hactive ((paidOut_pay _ p).le.trans hpaid.le)

/-- A payment to the depositor, who is not the recipient. -/
theorem refund (h : a.Untapped terms now) (hdisputed : a.vault.status = .disputed)
    (hp : p.recipient = a.vault.depositor)
    (hs : Sends self (a.setStatus .refunded) p rest o a') : a'.Untapped terms now := by
  have hbase : (a.setStatus .refunded).Untapped terms now :=
    ⟨h.terms, h.dated, fun hstatus => by contradiction, h.expired⟩
  cases hs with
  | nothing => exact hbase.after rest
  | sent =>
    refine ⟨h.terms, h.dated, fun hstatus => by contradiction, ?_⟩
    have hto := paidTo_pay_of_ne (a := a.setStatus .refunded) (hp ▸ h.distinct hdisputed)
    exact hto.le.trans h.expired

/-- The resolution for the recipient, of a vault that has expired as a whole. -/
theorem resolve (h : a.Untapped terms now) (ha : a.Sound 0)
    (hdisputed : a.vault.status = .disputed) (hcovered : Covered self a now)
    (hp : p.amount = a.remaining) (htoken : p.token = a.vault.token)
    (hrecipient : p.recipient = a.vault.recipient)
    (hs : Sends self (a.setStatus .completed) p rest o a') : a'.Untapped terms now := by
  have hbase : (a.setStatus .completed).Untapped terms now :=
    ⟨h.terms, h.dated, fun hstatus => by contradiction, h.expired⟩
  cases hs with
  | nothing => exact hbase.after rest
  | sent _ hpayable =>
    have hopen : a.vault.status.closed = false := by
      rw [hdisputed]
      rfl
    have htotal : ((a.setStatus .completed).pay p).paidOut = a.vault.totalAmount := by
      rw [paidOut_pay, hp]
      exact (ha.close hopen rfl).emptied rfl
    have hexpired : a.vault.totalAmount ≤ a.expiredSum now :=
      hcovered hdisputed fun hether => hrecipient ▸ hpayable (htoken.trans hether)
    refine ⟨h.terms, h.dated, fun hstatus => by contradiction, ?_⟩
    exact (paidTo_le_paidOut _ _).trans (htotal.le.trans hexpired)

/-- What an outsider's call makes of the account. -/
theorem change (h : a.Untapped terms now) (ha : a.Sound 0) (hout : a.Outsider msg.sender)
    (hlatest : msg.timestamp ≤ now)
    (hresolve : f = .resolveDispute v true → msg.value = 0 → Covered self a now)
    (hc : Change self msg v a f o a') : a'.Untapped terms now := by
  cases hc with
  | @released _ i _ _ hreleases hactive hlisted hpending hs =>
    cases hreleases with
    | approved hallowed =>
      obtain happrover | hdepositor := hallowed
      · exact absurd happrover (hout.2 i hlisted)
      · exact absurd hdepositor hout.1
    | expired hdated hlate =>
      exact h.release ha hactive hlisted hpending hdated (Nat.lt_of_lt_of_le hlate hlatest) rfl hs
  | refunded howned => exact absurd howned hout.1
  | disputed _ hparty =>
    have hrecipient : msg.sender = a.vault.recipient := hparty.resolve_left hout.1
    exact ⟨h.terms, h.dated, fun _ he => hout.1 (hrecipient.trans he.symm), h.expired⟩
  | @resolved r _ _ hunpaid hdisputed hs =>
    cases r with
    | true => exact h.resolve ha hdisputed (hresolve rfl hunpaid) rfl rfl rfl hs
    | false => exact h.refund hdisputed rfl hs

end Untapped

/-- If what the recipient has been paid with all that remains has expired, the vault has. -/
theorem expired_of_moves (ha : a.Sound 0) (hopen : a.vault.status.closed = false)
    (hp : p.amount = a.remaining) (hrecipient : p.recipient = a.vault.recipient)
    (h : ((a.setStatus .completed).pay p).MovesExpired now) :
    a.vault.totalAmount ≤ a.expiredSum now := by
  have htotal : ((a.setStatus .completed).pay p).paidOut = a.vault.totalAmount := by
    rw [paidOut_pay, hp]
    exact (ha.close hopen rfl).emptied rfl
  have hall : ∀ q ∈ ((a.setStatus .completed).pay p).payments,
      q.recipient = a.vault.recipient := by
    intro q hq
    obtain hq | hq := List.mem_append.mp hq
    · exact ha.toRecipient hopen q hq
    · rw [List.mem_singleton.mp hq]
      exact hrecipient
  have hto : ((a.setStatus .completed).pay p).paidTo a.vault.recipient = a.vault.totalAmount :=
    (paidTo_eq_paidOut hall).trans htotal
  exact hto.ge.trans h

end Account

/-! ## Runs -/

/-- The call resolves the dispute for the recipient only when the vault has expired as a whole. -/
def ResolvesExpired (self : Address) (v now : Nat) (g : Config State Rest) (act : Act Call) :
    Prop :=
  ∀ msg, act = .call ⟨msg, .resolveDispute v true⟩ → msg.value = 0 →
    Account.Covered self (g.state.toBooks.account v) now

/-- The vault is untapped wherever it is there: now and in all that a revert would bring back. -/
def Untouched (v : Nat) (terms : Terms) (now : Nat) (g : Config State Rest) : Prop :=
  Holds (fun s _ => v < s.vaultCount → (s.toBooks.account v).Untapped terms now) g.state g.frames

/-- What a call or a resumption of outsiders leaves of the vault, as long as it is there. -/
theorem untapped_commit {g : Config State Rest} {act : Act Call}
    (hkept : Holds Kept g.state g.frames)
    (h : Untouched v terms now g)
    (hmade : v < g.state.vaultCount)
    (hout : ∀ c, act = .call c → (g.state.toBooks.account v).Outsider c.msg.sender)
    (hlatest : time act ≤ now) (hresolve : ResolvesExpired self v now g act) :
    Untouched v terms now (commit (machine (contract self)) g act) := by
  have huntapped := h.here hmade
  have hsound := hkept.here.1.sound v hmade
  have hstep : ∀ c o s', act = .call c → (contract self).enter c g.state = .ok (o, s') →
      (s'.toBooks.account v).Untapped terms now := by
    rintro c o s' rfl henter
    obtain hsame | hchange := (hkept.here.1.step henter).1.account hmade
    · exact hsame ▸ huntapped
    · refine huntapped.change hsound (hout c rfl) hlatest (fun hf hvalue => ?_) hchange
      obtain ⟨msg, f⟩ := c
      subst hf
      exact hresolve msg rfl hvalue
  obtain hmoves | he := commit_moves (contract self) g act
  · generalize commit (machine (contract self)) g act = g' at hmoves
    cases hmoves with
    | finished henter => exact h.replace fun _ => hstep _ _ _ rfl henter
    | waits henter => exact ⟨fun _ => hstep _ _ _ rfl henter, h⟩
    | resumed hwaiting hresume =>
      rw [Untouched, hwaiting] at h
      rw [hwaiting] at hkept
      have hready := (hkept.here.2 _ List.mem_cons_self).1
      refine h.below.replace fun _ => ?_
      obtain hsame | ⟨_, hafter⟩ := (hkept.here.1.resume hready hresume).1.account hmade
      · exact hsame ▸ huntapped
      · exact hafter ▸ huntapped.after _
    | reverted hwaiting =>
      rw [Untouched, hwaiting] at h
      exact h.below
  · rwa [he]

/-- If all that the recipient has been paid has expired after the call, the call did not resolve
the dispute too early. -/
theorem resolvesExpired_of_moves {g : Config State Rest} {act : Act Call}
    (hkept : Kept g.state g.frames) (hmade : v < g.state.vaultCount)
    (h : (g.state.toBooks.account v).Untapped terms now)
    (hmoves : ((commit (machine (contract self)) g act).state.toBooks.account v).MovesExpired
      now) :
    ResolvesExpired self v now g act := by
  rintro msg rfl hvalue hdisputed hpayable
  have hsound := hkept.1.sound v hmade
  have hopen : (g.state.toBooks.account v).vault.status.closed = false := by
    rw [hdisputed]
    rfl
  by_cases hnone : remaining g.state.toBooks v = 0
  · have hfull : (g.state.toBooks.account v).vault.totalAmount ≤
        (g.state.toBooks.account v).vault.releasedAmount := Nat.le_of_sub_eq_zero hnone
    rw [hsound.released] at hfull
    exact hfull.trans (Account.releasedSum_le_expiredSum h.dated)
  · have hcovered : remaining g.state.toBooks v ≤ g.state.balance (g.state.vaults v).token := by
      have hreserved : remaining g.state.toBooks v ≤ Totals.total g.state.vaultCount fun u =>
          (g.state.toBooks.account u).reserved (g.state.vaults v).token := by
        refine Nat.le_trans ?_ (Totals.le_total hmade _)
        rw [Account.reserved, if_pos ⟨rfl, by simp [hopen]⟩]
        exact Nat.le_refl _
      exact hreserved.trans (hkept.1.covered _)
    have hsent : (contract self).enter ⟨msg, .resolveDispute v true⟩ g.state = .ok (_, _) :=
      resolveDispute_sent hvalue hmade hdisputed hsound.released_le hnone hpayable hcovered
    rw [commit_waits hsent] at hmoves
    have haccount : ∀ p : Payment, p.vaultId = v →
        ((g.state.toBooks.setStatus v .completed).paid self p).account v =
          ((g.state.toBooks.account v).setStatus .completed).pay p := by
      intro p hp
      rw [account_paid, if_pos hp.symm, account_setStatus, if_pos rfl]
    have hpaid := haccount
      ⟨v, (g.state.vaults v).token, (g.state.vaults v).recipient, remaining g.state.toBooks v⟩ rfl
    simp only [hpaid] at hmoves
    exact Account.expired_of_moves hsound hopen rfl rfl hmoves

/-- A vault that has just been opened. -/
theorem untapped_opened {args : VaultArgs} {depositor : Address} {totalAmount : Nat} :
    (Account.opened args depositor totalAmount).Untapped
      (Account.opened args depositor totalAmount).terms 0 where
  terms := rfl
  dated := fun i hi hreleased => by
    have hlt : i < args.milestoneBps.length := hi
    simp only [Account.opened, if_pos hlt, newMilestone, reduceCtorEq] at hreleased
  distinct := fun hdisputed => by contradiction
  expired := Nat.zero_le _

theorem Posted.opened_of_count {C : Nat → Account → Account → Prop} {b b' : Books}
    (h : Posted C b b') (hcount : b'.vaultCount = b.vaultCount + 1) :
    ∃ args depositor totalAmount, b'.account b.vaultCount = .opened args depositor totalAmount := by
  cases h with
  | kept hkept => omega
  | opened _ _ _ _ hnew => exact ⟨_, _, _, hnew⟩
  | changed _ _ hkept => omega

/-- The act that makes a vault leaves it untapped, and nothing that waits has begun with it. -/
theorem untapped_of_opening {g : Config State Rest} {act : Act Call}
    (hkept : Holds Kept g.state g.frames) (hbefore : g.state.vaultCount = v)
    (hopened : (commit (machine (contract self)) g act).state.vaultCount = v + 1) :
    Untouched v ((commit (machine (contract self)) g act).state.toBooks.account v).terms 0
      (commit (machine (contract self)) g act) := by
  have hearlier : ∀ frame ∈ g.frames, frame.1.vaultCount ≤ v :=
    fun frame hframe => hbefore ▸ (hkept.here.2 frame hframe).2
  have hnew : ∀ {C : Nat → Account → Account → Prop} {s' : State},
      Posted C g.state.toBooks s'.toBooks → s'.vaultCount = v + 1 →
      (s'.toBooks.account v).Untapped (s'.toBooks.account v).terms 0 := by
    intro C s' hposted hcount
    obtain ⟨args, depositor, totalAmount, he⟩ := hposted.opened_of_count (by omega)
    rw [← hbefore, he]
    exact untapped_opened
  obtain hmoves | he := commit_moves (contract self) g act
  · generalize commit (machine (contract self)) g act = g' at hmoves hopened ⊢
    cases hmoves with
    | finished henter =>
      exact holds_of_states (fun _ => hnew (hkept.here.1.step henter).1 hopened)
        fun frame hframe hlt => absurd hlt (Nat.not_lt_of_le (hearlier frame hframe))
    | waits henter =>
      refine holds_of_states (fun _ => hnew (hkept.here.1.step henter).1 hopened) ?_
      intro frame hframe hlt
      obtain rfl | hframe := List.mem_cons.mp hframe
      · exact absurd hlt (Nat.not_lt_of_le hbefore.le)
      · exact absurd hlt (Nat.not_lt_of_le (hearlier frame hframe))
    | resumed hwaiting hresume =>
      rw [hwaiting] at hkept hearlier
      have hready := (hkept.here.2 _ List.mem_cons_self).1
      refine holds_of_states (fun _ => hnew (hkept.here.1.resume hready hresume).1 hopened) ?_
      intro frame hframe hlt
      exact absurd hlt (Nat.not_lt_of_le (hearlier frame (List.mem_cons_of_mem _ hframe)))
    | reverted hwaiting =>
      have hle := hearlier _ (hwaiting ▸ List.mem_cons_self)
      simp only at hopened hle
      omega
  · rw [he] at hopened
    omega

/-- The opening act makes the vault after the first acts, and as long as it is there only
outsiders make calls. -/
structure Unattended (address : Address) (pre : List (Act Call)) (opening : Act Call)
    (post : List (Act Call)) (v : Nat) (g : Config State Rest) : Prop where
  before : (run (machine (contract address)) ⟨deployed, []⟩ pre).state.vaultCount = v
  reached : run (machine (contract address)) ⟨deployed, []⟩ (pre ++ [opening]) = g
  opened : g.state.vaultCount = v + 1
  outsiders : ∀ c, .call c ∈ post → (g.state.toBooks.account v).Outsider c.msg.sender
  there : ∀ mid, mid <+: post → v < (run (machine (contract address)) g mid).state.vaultCount

namespace Unattended

variable {pre post mid : List (Act Call)} {opening act : Act Call} {g : Config State Rest}

theorem kept (h : Unattended self pre opening post v g) (mid : List (Act Call)) :
    Holds Kept (run (machine (contract self)) g mid).state
      (run (machine (contract self)) g mid).frames := by
  rw [← h.reached, ← run_append]
  exact kept_run self _

theorem untouched_nil (h : Unattended self pre opening post v g) :
    Untouched v (g.state.toBooks.account v).terms (latest []) g := by
  have hopening := h.reached
  have hopened := h.opened
  rw [run_snoc] at hopening
  subst hopening
  exact untapped_of_opening (kept_run self pre) h.before hopened

theorem untouched_snoc (h : Unattended self pre opening post v g) (hmid : mid ++ [act] <+: post)
    (huntouched : Untouched v (g.state.toBooks.account v).terms (latest mid)
      (run (machine (contract self)) g mid))
    (hresolves : ResolvesExpired self v (latest (mid ++ [act]))
      (run (machine (contract self)) g mid) act) :
    Untouched v (g.state.toBooks.account v).terms (latest (mid ++ [act]))
      (run (machine (contract self)) g (mid ++ [act])) := by
  have hmade := h.there mid ((List.prefix_append mid [act]).trans hmid)
  have hlater : latest mid ≤ latest (mid ++ [act]) ∧ time act ≤ latest (mid ++ [act]) := by
    rw [latest_snoc]
    omega
  have hterms := (huntouched.here hmade).terms
  rw [run_snoc]
  apply untapped_commit (h.kept mid) (huntouched.imp fun _ _ h hlt => (h hlt).mono hlater.1) hmade
  · rintro c rfl
    have hmem : .call c ∈ post := hmid.subset (List.mem_append_right _ List.mem_cons_self)
    exact (h.outsiders c hmem).congr hterms
  · exact hlater.2
  · exact hresolves

theorem resolvesExpired (h : Unattended self pre opening post v g) (hmid : mid ++ [act] <+: post)
    (huntouched : Untouched v (g.state.toBooks.account v).terms (latest mid)
      (run (machine (contract self)) g mid))
    (hmoves : ((run (machine (contract self)) g (mid ++ [act])).state.toBooks.account
      v).MovesExpired (latest (mid ++ [act]))) :
    ResolvesExpired self v (latest (mid ++ [act])) (run (machine (contract self)) g mid) act := by
  have hmade := h.there mid ((List.prefix_append mid [act]).trans hmid)
  have hlater : latest mid ≤ latest (mid ++ [act]) := by
    rw [latest_snoc]
    omega
  rw [run_snoc] at hmoves
  exact resolvesExpired_of_moves (h.kept mid).here hmade ((huntouched.here hmade).mono hlater)
    hmoves

end Unattended

/-- In every run in which, once the vault is made, neither its depositor nor an approver makes a
call: the recipient is never paid more out of it than the milestones whose deadline has passed,
exactly if nobody resolves a dispute over it for the recipient before all of it has expired. -/
theorem outsiders_move_expired_iff {pre post : List (Act Call)} {opening : Act Call}
    {g : Config State Rest} (h : Unattended self pre opening post v g) :
    (∀ mid, mid <+: post →
        ((run (machine (contract self)) g mid).state.toBooks.account v).MovesExpired
          (latest mid)) ↔
      ∀ mid act, mid ++ [act] <+: post →
        ResolvesExpired self v (latest (mid ++ [act])) (run (machine (contract self)) g mid)
          act := by
  constructor
  · intro hmoves
    have hall : ∀ mid, mid <+: post → Untouched v (g.state.toBooks.account v).terms (latest mid)
        (run (machine (contract self)) g mid) := by
      intro mid hmid
      induction mid using List.reverseRecOn with
      | nil => exact h.untouched_nil
      | append_singleton mid act ih =>
        have hbase := ih ((List.prefix_append mid [act]).trans hmid)
        exact h.untouched_snoc hmid hbase (h.resolvesExpired hmid hbase (hmoves _ hmid))
    intro mid act hmid
    exact h.resolvesExpired hmid (hall mid ((List.prefix_append mid [act]).trans hmid))
      (hmoves _ hmid)
  · intro hresolves mid hmid
    have huntouched : Untouched v (g.state.toBooks.account v).terms (latest mid)
        (run (machine (contract self)) g mid) := by
      induction mid using List.reverseRecOn with
      | nil => exact h.untouched_nil
      | append_singleton mid act ih =>
        exact h.untouched_snoc hmid (ih ((List.prefix_append mid [act]).trans hmid))
          (hresolves mid act hmid)
    exact (huntouched.here (h.there mid hmid)).expired

/-- The depositor 1 makes a vault of 100 for the recipient 2 that never expires. -/
def undated : Act Call :=
  .call ⟨⟨⟨1⟩, 100, 0⟩, .createVault ⟨⟨2⟩, .zero, ["work"], [10000], [0], [.zero]⟩ 0⟩

/-- The recipient raises a dispute, and 3 resolves it. -/
def resolvedByAnybody : List (Act Call) :=
  [.call ⟨⟨⟨2⟩, 0, 5⟩, .raiseDispute 0⟩, .call ⟨⟨⟨3⟩, 0, 6⟩, .resolveDispute 0 true⟩, .answer true]

theorem unattended_undated :
    Unattended ⟨9⟩ [] undated resolvedByAnybody 0
      (run (machine (contract ⟨9⟩)) ⟨deployed, []⟩ [undated]) where
  before := rfl
  reached := rfl
  opened := rfl
  outsiders := by
    intro c hc
    simp only [resolvedByAnybody, List.mem_cons, Act.call.injEq, reduceCtorEq, List.not_mem_nil,
      or_false] at hc
    obtain rfl | rfl := hc
    · exact ⟨by decide, by decide⟩
    · exact ⟨by decide, by decide⟩
  there := by
    intro mid hmid
    have hall : ∀ mid ∈ resolvedByAnybody.inits, 0 < (run (machine (contract ⟨9⟩))
        (run (machine (contract ⟨9⟩)) ⟨deployed, []⟩ [undated]) mid).state.vaultCount := by
      decide
    exact hall mid ((List.mem_inits _ _).mpr hmid)

theorem outsiders_move_expired_iff_undated :
    let g := run (machine (contract ⟨9⟩)) ⟨deployed, []⟩ [undated]
    (∀ mid, mid <+: resolvedByAnybody →
        ((run (machine (contract ⟨9⟩)) g mid).state.toBooks.account 0).MovesExpired
          (latest mid)) ↔
      ∀ mid act, mid ++ [act] <+: resolvedByAnybody →
        ResolvesExpired ⟨9⟩ 0 (latest (mid ++ [act])) (run (machine (contract ⟨9⟩)) g mid) act :=
  outsiders_move_expired_iff unattended_undated

/-- The recipient has all of the vault, and none of it has expired. -/
theorem undated_vault_emptied :
    let g := run (machine (contract ⟨9⟩)) ⟨deployed, []⟩ [undated]
    let a := (run (machine (contract ⟨9⟩)) g resolvedByAnybody).state.toBooks.account 0
    Unattended ⟨9⟩ [] undated resolvedByAnybody 0 g ∧ a.paidTo ⟨2⟩ = 100 ∧
      a.expiredSum (latest resolvedByAnybody) = 0 ∧ ¬ a.MovesExpired (latest resolvedByAnybody) :=
  ⟨unattended_undated, rfl, rfl, by
    rw [Account.MovesExpired]
    decide⟩

end EvmPaymentVault
