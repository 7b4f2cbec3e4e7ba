import AgenticPay.EvmRevenueShares

/-!
# Whose balance a call of the revenue pool lowers

A removal moves the last recipient to the free place and then sets the balance at
that place to zero, through the reference it still holds. Nobody else's balance is
lowered exactly when there is nothing at the end of the array to lose.
-/
namespace EvmRevenuePool

open Evm Body Reentrancy Transaction IndexedArray

variable {s s' : State} {msg : Message} {wallet : Address} {i : Nat} {r last : Recipient}
  {o : Option Rest} {f : Function}

/-- Nobody's balance is lowered but by the claim or the removal of the wallet itself, and then
all of it is paid to the wallet. -/
def Kept (msg : Message) (f : Function) (s s' : State) : Prop :=
  ∀ wallet, getAccumulated s' wallet < getAccumulated s wallet →
    (f = .claim ∧ msg.sender = wallet ∨ f = .removeRecipient wallet) ∧
      s'.payments = s.payments ++ [(wallet, getAccumulated s wallet)]

/-- What the calls and the resumptions of waiting calls do to the balances. A call that is
reverted is not a change: it leaves the state it was made in. -/
def Untouched (self : Address) (g : Config State Rest) : Act Call → Prop
  | .call c => ∀ o s', (contract self).enter c g.state = .ok (o, s') →
      Kept c.msg c.function g.state s'
  | .answer _ => ∀ snapshot rest frames s', g.frames = (snapshot, rest) :: frames →
      (contract self).resume rest g.state = .ok s' →
      ∀ wallet, getAccumulated g.state wallet ≤ getAccumulated s' wallet

/-- The owner's removal of a recipient that is owed something finds that recipient at the end
of the array, or one that is owed nothing. -/
def LastEmpty (g : Config State Rest) (a : Act Call) : Prop :=
  ∀ (msg : Message) (i : Nat) (r last : Recipient), a = .call ⟨msg, .removeRecipient r.wallet⟩ →
    msg.value = 0 → msg.sender = g.state.owner → g.state.recipients[i]? = some r →
    0 < r.accumulated → g.state.recipients.getLast? = some last →
    last.wallet = r.wallet ∨ last.accumulated = 0

/-! ## The balance of a wallet -/

theorem getAccumulated_of_mem (hv : Valid s) (hr : r ∈ s.recipients) :
    getAccumulated s r.wallet = r.accumulated := by
  obtain ⟨i, hi⟩ := List.mem_iff_getElem?.mp hr
  rw [getAccumulated, hv.pos hi, if_neg (Nat.succ_ne_zero i), Nat.add_sub_cancel, hi]
  rfl

theorem getAccumulated_unlisted (h : s.indexOf wallet = 0) : getAccumulated s wallet = 0 :=
  if_pos h

/-- A balance is not lowered if its entry is still there with as much. -/
theorem getAccumulated_le (hv : Valid s) (hv' : Valid s')
    (h : ∀ r ∈ s.recipients, r.wallet = wallet →
      ∃ r' ∈ s'.recipients, r'.wallet = wallet ∧ r.accumulated ≤ r'.accumulated) :
    getAccumulated s wallet ≤ getAccumulated s' wallet := by
  by_cases hlisted : s.indexOf wallet = 0
  · rw [getAccumulated_unlisted hlisted]
    exact Nat.zero_le _
  · obtain ⟨i, r, _, hr, rfl⟩ := hv.found hlisted
    have hmem := List.mem_of_getElem? hr
    obtain ⟨r', hr', hwallet, hle⟩ := h r hmem rfl
    rw [getAccumulated_of_mem hv hmem, ← hwallet, getAccumulated_of_mem hv' hr']
    exact hle

theorem getAccumulated_congr (hrecipients : s'.recipients = s.recipients)
    (hindexOf : s'.indexOf = s.indexOf) : getAccumulated s' wallet = getAccumulated s wallet := by
  simp only [getAccumulated, hrecipients, hindexOf]

theorem kept_of_le (h : ∀ wallet, getAccumulated s wallet ≤ getAccumulated s' wallet) :
    Kept msg f s s' := by
  intro wallet hlt
  have hle := h wallet
  omega

/-- The running sum of a recipient does not wrap around. -/
theorem accrue_ge {amount : Nat} (hv : Valid s) (hroom : s.balance + amount < wordBound)
    (hr : r ∈ s.recipients) : r.accumulated ≤ (accrue amount r).accumulated := by
  have howed : r.accumulated ≤ owed s.recipients := List.le_sum_of_mem (List.mem_map_of_mem hr)
  have hratio : r.ratioBps ≤ s.totalShares := by
    obtain ⟨i, hi⟩ := List.mem_iff_getElem?.mp hr
    exact hv.ratio_le hi
  have hshare : uncheckedMul amount r.ratioBps / 10000 ≤ amount := by
    apply Nat.div_le_of_le_mul
    rw [Nat.mul_comm 10000]
    exact (uncheckedMul_le ..).trans (Nat.mul_le_mul_left amount (hratio.trans hv.whole))
  have hsolvent := hv.solvent
  simp only [accrue]
  split
  · rw [uncheckedAdd_eq (by omega)]
    exact Nat.le_add_right ..
  · exact Nat.le_refl _

theorem shared_ge {amount : Nat} (hv : Valid s) (hroom : s.balance + amount < wordBound)
    (wallet : Address) :
    getAccumulated s wallet ≤
      getAccumulated (shared { s with balance := s.balance + amount } amount) wallet := by
  apply getAccumulated_le hv (hv.credited hroom)
  rintro r hr rfl
  exact ⟨accrue amount r, List.mem_map_of_mem hr, accrue_wallet amount r, accrue_ge hv hroom hr⟩

/-- An entry that is not the modified one is still there. -/
theorem mem_modify {l : List Recipient} {f : Recipient → Recipient} (hr : l[i]? = some r)
    {r' : Recipient} (hmem : r' ∈ l) (hne : r' ≠ r) : r' ∈ l.modify i f := by
  obtain ⟨p, q, rfl, hmodify⟩ := modify_split f hr
  rw [hmodify]
  simp only [List.mem_append, List.mem_cons] at hmem ⊢
  obtain hp | he | hq := hmem
  · exact .inl hp
  · exact (hne he).elim
  · exact .inr (.inr hq)

theorem mem_modify_self {l : List Recipient} {f : Recipient → Recipient} (hr : l[i]? = some r) :
    f r ∈ l.modify i f := by
  obtain ⟨p, q, rfl, hmodify⟩ := modify_split f hr
  rw [hmodify]
  exact List.mem_append_right _ List.mem_cons_self

theorem mem_swapPop {r' : Recipient} (hr : s.recipients[i]? = some r) (hmem : r' ∈ s.recipients)
    (hne : r'.wallet ≠ r.wallet) : r' ∈ swapPop s.recipients i := by
  have hperm := (perm_swapPop hr).mem_iff.mp hmem
  obtain rfl | hin := List.mem_cons.mp hperm
  · exact (hne rfl).elim
  · exact hin

/-! ## One call -/

/-- A paid removal keeps the others if the last recipient has nothing to lose. -/
theorem removedPaid_ge (hv : Valid s) (hr : s.recipients[i]? = some r)
    (hlast : s.recipients.getLast? = some last)
    (hempty : last.wallet = r.wallet ∨ last.accumulated = 0) (hne : wallet ≠ r.wallet) :
    getAccumulated s wallet ≤ getAccumulated
      (paid { removed s i r last with recipients := (swapPop s.recipients i).modify i zero }
        r.wallet r.accumulated) wallet := by
  have hlt : i < s.recipients.length := (List.getElem?_eq_some_iff.mp hr).1
  apply getAccumulated_le hv (hv.removedPaid hr hlast)
  rintro r' hr' rfl
  have hmem := mem_swapPop hr hr' hne
  cases hplace : (swapPop s.recipients i)[i]? with
  | none =>
    refine ⟨r', ?_, rfl, Nat.le_refl _⟩
    simp only [paid, List.modify_eq_self (List.getElem?_eq_none_iff.mp hplace)]
    exact hmem
  | some moved =>
    have hmoved := getElem?_swapPop hlt hlast i
    rw [hplace, if_pos rfl] at hmoved
    split at hmoved
    · obtain rfl := Option.some.inj hmoved
      by_cases he : r' = moved
      · subst he
        refine ⟨zero r', ?_, rfl, ?_⟩
        · apply List.mem_of_getElem? (i := i)
          simp only [paid, List.getElem?_modify_eq, hplace]
          rfl
        · simp only [zero]
          have := hempty.resolve_left hne
          omega
      · exact ⟨r', mem_modify hplace hmem he, rfl, Nat.le_refl _⟩
    · contradiction

theorem claimed_ge (hv : Valid s) (hr : s.recipients[i]? = some r) (hne : wallet ≠ r.wallet) :
    getAccumulated s wallet ≤ getAccumulated
      (paid { s with recipients := s.recipients.modify i zero } r.wallet r.accumulated) wallet := by
  apply getAccumulated_le hv (hv.claimed hr)
  rintro r' hr' rfl
  exact ⟨r', mem_modify hr hr' fun he => hne (he ▸ rfl), rfl, Nat.le_refl _⟩

/-- What a step does to the balances, where the last recipient has nothing to lose. -/
theorem Step.kept (h : Step msg s f o s') (hv : Valid s)
    (hempty : ∀ (i : Nat) (r last : Recipient), f = .removeRecipient r.wallet →
      s.recipients[i]? = some r → 0 < r.accumulated → s.recipients.getLast? = some last →
      last.wallet = r.wallet ∨ last.accumulated = 0) :
    Kept msg f s s' := by
  have hv' := h.valid hv
  cases h with
  | added =>
    apply kept_of_le
    intro wallet
    apply getAccumulated_le hv hv'
    exact fun r hr hwallet => ⟨r, List.mem_append_left _ hr, hwallet, Nat.le_refl _⟩
  | @removed i r _ _ hr _ hzero =>
    apply kept_of_le
    intro wallet
    by_cases hwallet : wallet = r.wallet
    · rw [hwallet, getAccumulated_of_mem hv (List.mem_of_getElem? hr), hzero]
      exact Nat.zero_le _
    · apply getAccumulated_le hv hv'
      rintro r' hr' rfl
      exact ⟨r', mem_swapPop hr hr' hwallet, rfl, Nat.le_refl _⟩
  | @removedPaid i r last _ hr hlast howed _ =>
    intro wallet hlt
    by_cases hwallet : wallet = r.wallet
    · subst hwallet
      rw [getAccumulated_of_mem hv (List.mem_of_getElem? hr)]
      exact ⟨.inr rfl, rfl⟩
    · have hge := removedPaid_ge hv hr hlast (hempty i r last rfl hr howed hlast) hwallet
      omega
  | @updated i r _ _ hr _ _ =>
    apply kept_of_le
    intro wallet
    apply getAccumulated_le hv hv'
    rintro r' hr' rfl
    by_cases he : r' = r
    · subst he
      exact ⟨_, mem_modify_self hr, rfl, Nat.le_refl _⟩
    · exact ⟨r', mem_modify hr hr' he, rfl, Nat.le_refl _⟩
  | distributed _ hroom => exact kept_of_le (shared_ge hv hroom)
  | @claimed i r hr hsender _ =>
    intro wallet hlt
    by_cases hwallet : wallet = r.wallet
    · subst hwallet
      rw [getAccumulated_of_mem hv (List.mem_of_getElem? hr)]
      exact ⟨.inl ⟨rfl, hsender.symm⟩, rfl⟩
    · have hge := claimed_ge hv hr hwallet
      omega
  | thresholdSet => exact kept_of_le fun _ => (getAccumulated_congr rfl rfl).ge
  | ownershipTransferred => exact kept_of_le fun _ => (getAccumulated_congr rfl rfl).ge
  | forced => exact kept_of_le fun _ => (getAccumulated_congr rfl rfl).ge

/-- The removal of another recipient takes what the last one is owed. -/
theorem removedPaid_last (hr : s.recipients[i]? = some r)
    (hlast : s.recipients.getLast? = some last) (hne : last.wallet ≠ r.wallet) :
    getAccumulated
      (paid { removed s i r last with recipients := (swapPop s.recipients i).modify i zero }
        r.wallet r.accumulated) last.wallet = 0 := by
  have hlt : i < s.recipients.length := (List.getElem?_eq_some_iff.mp hr).1
  have hinner : i < s.recipients.length - 1 := by
    by_contra hend
    have hat : i = s.recipients.length - 1 := by omega
    rw [List.getLast?_eq_getElem?, ← hat, hr] at hlast
    exact hne (Option.some.inj hlast ▸ rfl)
  have hplace := getElem?_swapPop hlt hlast i
  rw [if_pos hinner, if_pos rfl] at hplace
  simp only [getAccumulated, paid, removed, Function.update_of_ne hne, Function.update_self,
    Nat.add_sub_cancel, List.getElem?_modify_eq, hplace]
  rfl

/-- A call of a valid state keeps the balances of others exactly if the last recipient has
nothing to lose. -/
theorem untouched_iff_act (self : Address) {g : Config State Rest} (hv : Valid g.state)
    (a : Act Call) : Untouched self g a ↔ LastEmpty g a := by
  constructor
  · rintro hkept msg i r last rfl hvalue howned hr howed hlast
    by_contra hloses
    obtain ⟨hne, hpos⟩ := not_or.mp hloses
    have hcovered : r.accumulated ≤ g.state.balance :=
      (List.le_sum_of_mem (List.mem_map_of_mem (List.mem_of_getElem? hr))).trans hv.solvent
    have hok := (removeRecipient_ok hv hr hlast).mpr ⟨hvalue, howned, .owed howed hcovered⟩
    have hlowered := removedPaid_last hr hlast hne
    have hbefore := getAccumulated_of_mem hv (List.mem_of_getLast? hlast)
    obtain ⟨hown, _⟩ := hkept _ _ hok last.wallet (by omega)
    obtain ⟨hclaim, _⟩ | hremoval := hown
    · contradiction
    · exact hne (Function.removeRecipient.inj hremoval).symm
  · intro hempty
    cases a with
    | call c =>
      obtain ⟨msg, f⟩ := c
      intro o s' hok
      apply (step_of_ok hv hok).kept hv
      rintro i r last rfl hr howed hlast
      obtain ⟨hvalue, howned, _⟩ := (removeRecipient_ok hv hr hlast).mp hok
      exact hempty msg i r last rfl hvalue howned hr howed hlast
    | answer ok =>
      intro snapshot rest frames s' _ hresume wallet
      obtain ⟨t, es, rfl, ht⟩ := resume_cases hresume
      have hevents : getAccumulated { t with events := es } wallet = getAccumulated t wallet :=
        getAccumulated_congr rfl rfl
      rw [hevents]
      obtain rfl | ⟨_, hroom, rfl⟩ := ht
      · exact Nat.le_refl _
      · exact shared_ge hv hroom wallet

/-- In every run a balance is lowered by the claim or the removal of its wallet only, which
pays it in full, exactly if no removal by the owner pays a recipient while the last one is
another that is owed something. -/
theorem balances_kept_iff {owner : Address} (h : deploy owner = .ok s) (self : Address)
    (acts : List (Act Call)) :
    Along (machine (contract self)) (Untouched self) ⟨s, []⟩ acts ↔
      Along (machine (contract self)) LastEmpty ⟨s, []⟩ acts := by
  have hvalid : ∀ mid, Valid (run (machine (contract self)) ⟨s, []⟩ mid).state :=
    fun mid => (valid_run h self mid).here
  rw [along_iff_initial, along_iff_initial]
  apply forall₃_congr
  intro mid a _
  exact untouched_iff_act self (hvalid mid) a

def firstRemoved : Act Call := .call ⟨⟨⟨1⟩, 0, 0⟩, .removeRecipient ⟨2⟩⟩

theorem balances_kept_iff_sharedEqually :
    Along (machine (contract ⟨9⟩)) (Untouched ⟨9⟩) ⟨newPool, []⟩ sharedEqually ↔
      Along (machine (contract ⟨9⟩)) LastEmpty ⟨newPool, []⟩ sharedEqually :=
  balances_kept_iff deploy_newPool ⟨9⟩ sharedEqually

/-- The removal of the recipient 2 leaves the recipient 3 with nothing. -/
theorem removal_takes_last :
    deploy ⟨1⟩ = .ok newPool ∧
      getAccumulated (run (machine (contract ⟨9⟩)) ⟨newPool, []⟩ sharedEqually).state ⟨3⟩ = 5000 ∧
      getAccumulated (run (machine (contract ⟨9⟩)) ⟨newPool, []⟩
        (sharedEqually ++ [firstRemoved, .answer true])).state ⟨3⟩ = 0 ∧
      (run (machine (contract ⟨9⟩)) ⟨newPool, []⟩
        (sharedEqually ++ [firstRemoved, .answer true])).state.payments = [(⟨2⟩, 5000)] ∧
      ¬ Untouched ⟨9⟩ (run (machine (contract ⟨9⟩)) ⟨newPool, []⟩ sharedEqually) firstRemoved := by
  refine ⟨rfl, rfl, rfl, rfl, fun h => ?_⟩
  obtain ⟨⟨hclaim, _⟩ | hremoval, _⟩ := h _ _ rfl ⟨3⟩ (by decide)
  · contradiction
  · exact absurd hremoval (by decide)

end EvmRevenuePool
