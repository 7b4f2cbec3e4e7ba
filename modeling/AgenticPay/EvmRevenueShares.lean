import AgenticPay.Apportion
import AgenticPay.EvmRevenuePool
import Mathlib.Algebra.Order.BigOperators.Group.List
import Mathlib.Algebra.Order.Group.Nat

/-!
# What the recipients of the revenue pool are owed

The invariant of the recipients, their index and the running sums, and what each
operation does to the amount a recipient has accumulated.
-/
namespace EvmRevenuePool

open Evm Body Reentrancy Transaction IndexedArray

/-- What a list of recipients has accumulated. -/
def owed (l : List Recipient) : Nat := (l.map (·.accumulated)).sum

/-- The wallets and the index are inverse to each other, the shares add up and are at most the
whole, and the balance covers what has been accumulated. -/
structure Valid (s : State) : Prop where
  indexed : Indexed (s.recipients.map (·.wallet)) s.indexOf
  shares : s.totalShares = (s.recipients.map (·.ratioBps)).sum
  whole : s.totalShares ≤ 10000
  solvent : owed s.recipients ≤ s.balance
  bounded : s.balance < wordBound

/-! ## What a returned call has done -/

/-- The state after the swap with the last entry and the pop. -/
def removed (s : State) (i : Nat) (r last : Recipient) : State :=
  { s with
    recipients := swapPop s.recipients i
    indexOf := Function.update (Function.update s.indexOf last.wallet (i + 1)) r.wallet 0
    totalShares := s.totalShares - r.ratioBps }

def zero (r : Recipient) : Recipient := { r with accumulated := 0 }

def setRatio (ratioBps : Nat) (r : Recipient) : Recipient := { r with ratioBps }

/-- The state after a payment has left the contract. -/
def paid (s : State) (recipient : Address) (amount : Nat) : State :=
  { s with balance := s.balance - amount, payments := s.payments ++ [(recipient, amount)] }

/-- The state after an amount has been distributed. -/
def shared (s : State) (amount : Nat) : State :=
  { s with
    recipients := s.recipients.map (accrue amount)
    events := s.events ++ [.distributed amount] }

/-- What an accepted call has checked, what is left to do, and the state it leaves. -/
inductive Step (msg : Message) (s : State) : Function → Option Rest → State → Prop
  | added {recipient ratioBps} (owned : msg.sender = s.owner)
      (ratio : 0 < ratioBps) (fresh : s.indexOf recipient = 0)
      (whole : s.totalShares + ratioBps ≤ 10000) :
      Step msg s (.addRecipient recipient ratioBps) none
        { s with
          recipients := s.recipients ++ [⟨recipient, ratioBps, 0⟩]
          indexOf := Function.update s.indexOf recipient (s.recipients.length + 1)
          totalShares := s.totalShares + ratioBps
          events := s.events ++ [.recipientAdded recipient ratioBps] }
  | removed {i r last} (owned : msg.sender = s.owner) (listed : s.recipients[i]? = some r)
      (tail : s.recipients.getLast? = some last) (empty : r.accumulated = 0) :
      Step msg s (.removeRecipient r.wallet) none
        { removed s i r last with
          events := s.events ++ [.recipientRemoved r.wallet r.ratioBps 0] }
  | removedPaid {i r last} (owned : msg.sender = s.owner) (listed : s.recipients[i]? = some r)
      (tail : s.recipients.getLast? = some last) (owed : 0 < r.accumulated)
      (covered : r.accumulated ≤ s.balance) :
      Step msg s (.removeRecipient r.wallet) (some (.removed r.wallet r.ratioBps r.accumulated))
        (paid { removed s i r last with recipients := (swapPop s.recipients i).modify i zero }
          r.wallet r.accumulated)
  | updated {i r newRatioBps} (owned : msg.sender = s.owner) (listed : s.recipients[i]? = some r)
      (ratio : 0 < newRatioBps) (whole : s.totalShares - r.ratioBps + newRatioBps ≤ 10000) :
      Step msg s (.updateRatio r.wallet newRatioBps) none
        { s with
          recipients := s.recipients.modify i (setRatio newRatioBps)
          totalShares := s.totalShares - r.ratioBps + newRatioBps
          events := s.events ++ [.recipientRatioUpdated r.wallet r.ratioBps newRatioBps] }
  | distributed {f} (function : f = .distribute ∨ f = .receive)
      (room : s.balance + msg.value < wordBound) :
      Step msg s f none
        (shared { s with balance := s.balance + msg.value } msg.value)
  | claimed {i r} (listed : s.recipients[i]? = some r) (sender : r.wallet = msg.sender)
      (covered : r.accumulated ≤ s.balance) :
      Step msg s .claim (some (.claimed r.wallet r.accumulated))
        (paid { s with recipients := s.recipients.modify i zero } r.wallet r.accumulated)
  | thresholdSet {threshold} (owned : msg.sender = s.owner) :
      Step msg s (.setMinDistributionThreshold threshold) none
        { s with
          minDistributionThreshold := threshold
          events := s.events ++ [.thresholdUpdated s.minDistributionThreshold threshold] }
  | ownershipTransferred {newOwner} (owned : msg.sender = s.owner) :
      Step msg s (.transferOwnership newOwner) none { s with owner := newOwner }
  | forced (room : s.balance + msg.value < wordBound) :
      Step msg s .force none { s with balance := s.balance + msg.value }

variable {s s' : State} {msg : Message} {recipient : Address} {i : Nat} {r last : Recipient}

namespace Valid

theorem pos (h : Valid s) (hr : s.recipients[i]? = some r) : s.indexOf r.wallet = i + 1 :=
  h.indexed.at_ (by rw [List.getElem?_map, hr, Option.map_some])

theorem found (h : Valid s) (hlisted : s.indexOf recipient ≠ 0) :
    ∃ i r, s.indexOf recipient = i + 1 ∧ s.recipients[i]? = some r ∧ r.wallet = recipient := by
  have hkey := h.indexed.found hlisted
  rw [List.getElem?_map, Option.map_eq_some_iff] at hkey
  obtain ⟨r, hr, hwallet⟩ := hkey
  exact ⟨_, r, by omega, hr, hwallet⟩

theorem ratio_le (h : Valid s) (hr : s.recipients[i]? = some r) : r.ratioBps ≤ s.totalShares := by
  rw [h.shares]
  exact List.le_sum_of_mem (List.mem_map_of_mem (List.mem_of_getElem? hr))

end Valid

theorem onlyOwner_ok {u : Unit} :
    onlyOwner msg s = .ok (u, s') ↔ msg.sender = s.owner ∧ s = s' := by
  simp only [onlyOwner, message_bind, read_bind, revertIf_ok, not_not]

theorem emit_ok {e : Event} {u : Unit} :
    emit e msg s = .ok (u, s') ↔ { s with events := s.events ++ [e] } = s' := write_ok

theorem credit_ok {value : Nat} {u : Unit} :
    credit value msg s = .ok (u, s') ↔
      s.balance + value < wordBound ∧ { s with balance := s.balance + value } = s' := by
  simp only [credit, read_bind, creditWord_bind_ok, write_ok]

theorem pay_ok {amount : Nat} {u : Unit} :
    pay recipient amount msg s = .ok (u, s') ↔
      amount ≤ s.balance ∧ paid s recipient amount = s' := by
  simp only [pay, paid, read_bind, revertIf_bind_ok, not_not, write_ok]

theorem distributeValue_ok {amount : Nat} {u : Unit} :
    distributeValue amount msg s = .ok (u, s') ↔
      (amount ≠ 0 ∧ s.recipients ≠ []) ∧ shared s amount = s' := by
  simp only [distributeValue, read_bind, revertIf_bind_ok, write_bind, emit, write_ok, shared,
    List.length_eq_zero_iff, and_assoc, ne_eq]

theorem recipientAt_bind {β : Type} {index : Nat} {f : Recipient → Fn β}
    (hr : s.recipients[index]? = some r) :
    (recipientAt index >>= f) msg s = f r msg s := by
  apply bind_of_ok
  simp only [recipientAt, read_bind, hr]
  rfl

/-- The state after the swap, before the pop. -/
def swapped (s : State) (index idx lastIndex : Nat) (last : Recipient) : State :=
  { s with
    recipients := if index ≠ lastIndex then s.recipients.set index last else s.recipients
    indexOf :=
      if index ≠ lastIndex then Function.update s.indexOf last.wallet idx else s.indexOf }

theorem swapLast_bind {index idx lastIndex : Nat} {f : Unit → Fn (Option Rest)}
    (hlast : s.recipients[lastIndex]? = some last) :
    (swapLast index idx lastIndex >>= f) msg s =
      f () msg (swapped s index idx lastIndex last) := by
  apply bind_of_ok
  rw [swapLast, swapped]
  split
  · exact recipientAt_bind hlast
  · rfl

/-- After the pop the two branches of the swap are one. -/
theorem recipients_removed (hlast : s.recipients.getLast? = some last) :
    (if i ≠ s.recipients.length - 1 then s.recipients.set i last else s.recipients).dropLast =
      swapPop s.recipients i := by
  rw [swapPop, hlast]
  split
  · rfl
  · rename_i hend
    have hset : s.recipients.set i last = s.recipients := by
      rw [not_not] at hend
      rw [List.getLast?_eq_getElem?, ← hend] at hlast
      obtain ⟨_, hget⟩ := List.getElem?_eq_some_iff.mp hlast
      rw [← hget, List.set_getElem_self]
    simp only [hset]

theorem indexOf_removed (hr : s.recipients[i]? = some r)
    (hlast : s.recipients.getLast? = some last) :
    Function.update (if i ≠ s.recipients.length - 1
        then Function.update s.indexOf last.wallet (i + 1) else s.indexOf) r.wallet 0 =
      Function.update (Function.update s.indexOf last.wallet (i + 1)) r.wallet 0 := by
  split
  · rfl
  · rename_i hend
    rw [not_not] at hend
    rw [List.getLast?_eq_getElem?, ← hend, hr] at hlast
    rw [← Option.some.inj hlast, Function.update_idem]

/-- What `removeRecipient` leaves behind when it removes this entry of a valid state. -/
inductive Removal (s : State) (i : Nat) (r last : Recipient) : Option Rest → State → Prop
  | empty (h : r.accumulated = 0) :
      Removal s i r last none
        { removed s i r last with
          events := s.events ++ [.recipientRemoved r.wallet r.ratioBps 0] }
  | owed (h : 0 < r.accumulated) (covered : r.accumulated ≤ s.balance) :
      Removal s i r last (some (.removed r.wallet r.ratioBps r.accumulated))
        (paid { removed s i r last with recipients := (swapPop s.recipients i).modify i zero }
          r.wallet r.accumulated)

/-- `removeRecipient` of an entry of a valid state. -/
theorem removeRecipient_ok (hv : Valid s) (hr : s.recipients[i]? = some r)
    (hlast : s.recipients.getLast? = some last) {rest : Option Rest} :
    removeRecipient r.wallet msg s = .ok (rest, s') ↔
      msg.value = 0 ∧ msg.sender = s.owner ∧ Removal s i r last rest s' := by
  have hlt : i < s.recipients.length := (List.getElem?_eq_some_iff.mp hr).1
  have hindex : uncheckedSub (i + 1) 1 = i := uncheckedSub_eq (by omega)
  have hlastIndex : uncheckedSub s.recipients.length 1 = s.recipients.length - 1 :=
    uncheckedSub_eq (by omega)
  have htotal : uncheckedSub s.totalShares r.ratioBps = s.totalShares - r.ratioBps :=
    uncheckedSub_eq (hv.ratio_le hr)
  have hend : s.recipients[s.recipients.length - 1]? = some last := by
    rw [← List.getLast?_eq_getElem?, hlast]
  simp only [removeRecipient, nonPayable_bind_ok, guard_bind_ok onlyOwner_ok, read_bind,
    revertIf_bind_ok, hv.pos hr, hindex, hlastIndex, recipientAt_bind hr, swapLast_bind hend,
    write_bind, ite_ok, guard_bind_ok pay_ok, emit, pure_ok, swapped, recipients_removed hlast,
    indexOf_removed hr hlast, htotal]
  constructor
  · rintro ⟨hvalue, howned, _, ⟨howed, hcovered, rfl, rfl⟩ | ⟨hnone, rfl, rfl⟩⟩
    · exact ⟨hvalue, howned, .owed howed hcovered⟩
    · have hzero : r.accumulated = 0 := by omega
      rw [hzero]
      exact ⟨hvalue, howned, .empty hzero⟩
  · rintro ⟨hvalue, howned, ⟨hzero⟩ | ⟨howed, hcovered⟩⟩
    · rw [hzero]
      exact ⟨hvalue, howned, by omega, .inr ⟨by omega, rfl, rfl⟩⟩
    · exact ⟨hvalue, howned, by omega, .inl ⟨howed, hcovered, rfl, rfl⟩⟩

variable {o : Option Rest} {ratioBps newRatioBps threshold : Nat} {newOwner : Address}

theorem addRecipient_step (hv : Valid s)
    (h : addRecipient recipient ratioBps msg s = .ok (o, s')) :
    Step msg s (.addRecipient recipient ratioBps) o s' := by
  simp only [addRecipient, nonPayable_bind_ok, guard_bind_ok onlyOwner_ok, read_bind,
    revertIf_bind_ok, write_bind, emit, pure_ok, List.length_append, List.length_singleton] at h
  obtain ⟨_, howned, _, hratio, hfresh, hwhole, rfl, rfl⟩ := h
  have hsmall : s.totalShares + ratioBps < wordBound := by
    have hle : s.totalShares + ratioBps ≤ 20000 := by
      have := hv.whole
      omega
    exact Nat.lt_of_le_of_lt hle (by decide)
  rw [uncheckedAdd_eq hsmall] at hwhole ⊢
  exact .added howned (by omega) (not_not.mp hfresh) (by omega)

theorem removeRecipient_step (hv : Valid s)
    (h : removeRecipient recipient msg s = .ok (o, s')) :
    Step msg s (.removeRecipient recipient) o s' := by
  have hlisted : s.indexOf recipient ≠ 0 := by
    simp only [removeRecipient, nonPayable_bind_ok, guard_bind_ok onlyOwner_ok, read_bind,
      revertIf_bind_ok] at h
    exact h.2.2.1
  obtain ⟨i, r, _, hr, rfl⟩ := hv.found hlisted
  have hsome : s.recipients.getLast?.isSome := by
    rw [List.getLast?_isSome]
    rintro hnil
    rw [hnil] at hr
    contradiction
  obtain ⟨last, hlast⟩ := Option.isSome_iff_exists.mp hsome
  obtain ⟨_, howned, ⟨hempty⟩ | ⟨howed, hcovered⟩⟩ := (removeRecipient_ok hv hr hlast).mp h
  · exact .removed howned hr hlast hempty
  · exact .removedPaid howned hr hlast howed hcovered

/-- Both branches of the new total are the old one with the ratio exchanged. -/
theorem exchanged_eq (hv : Valid s) (hr : s.recipients[i]? = some r)
    (hsmall : newRatioBps ≤ 10000) :
    (if newRatioBps > r.ratioBps
      then uncheckedSub (uncheckedAdd s.totalShares newRatioBps) r.ratioBps
      else uncheckedSub s.totalShares (r.ratioBps - newRatioBps)) =
    s.totalShares - r.ratioBps + newRatioBps := by
  have hle := hv.ratio_le hr
  have hwhole := hv.whole
  split
  · have hsum : s.totalShares + newRatioBps < wordBound :=
      Nat.lt_of_le_of_lt (m := 20000) (by omega) (by decide)
    rw [uncheckedAdd_eq hsum, uncheckedSub_eq (by omega)]
    omega
  · rw [uncheckedSub_eq (by omega)]
    omega

theorem updateRatio_step (hv : Valid s)
    (h : updateRatio recipient newRatioBps msg s = .ok (o, s')) :
    Step msg s (.updateRatio recipient newRatioBps) o s' := by
  simp only [updateRatio, nonPayable_bind_ok, guard_bind_ok onlyOwner_ok, read_bind,
    revertIf_bind_ok] at h
  obtain ⟨_, howned, hratio, hlisted, h⟩ := h
  obtain ⟨i, r, hpos, hr, rfl⟩ := hv.found hlisted
  simp only [recipientAt_bind hr, read_bind, revertIf_bind_ok, write_bind, emit, pure_ok,
    exchanged_eq hv hr (show newRatioBps ≤ 10000 by omega), hpos, Nat.add_sub_cancel] at h
  obtain ⟨hwhole, rfl, rfl⟩ := h
  exact .updated howned hr (by omega) (by omega)

theorem distribute_step {f : Function} (hf : f = .distribute ∨ f = .receive)
    (h : distribute msg s = .ok (o, s')) : Step msg s f o s' := by
  simp only [distribute, message_bind, guard_bind_ok credit_ok, guard_bind_ok distributeValue_ok,
    pure_ok] at h
  obtain ⟨hroom, _, rfl, rfl⟩ := h
  exact .distributed hf hroom

theorem claim_step (hv : Valid s) (h : claim msg s = .ok (o, s')) : Step msg s .claim o s' := by
  simp only [claim, nonPayable_bind_ok, message_bind, read_bind, revertIf_bind_ok] at h
  obtain ⟨_, hlisted, h⟩ := h
  obtain ⟨i, r, hpos, hr, hwallet⟩ := hv.found hlisted
  simp only [recipientAt_bind hr, read_bind, revertIf_bind_ok, write_bind, guard_bind_ok pay_ok,
    pure_ok, hpos, Nat.add_sub_cancel] at h
  obtain ⟨_, hcovered, rfl, rfl⟩ := h
  rw [← hwallet]
  exact .claimed hr hwallet hcovered

/-- Every accepted call of a valid state is one of the steps. -/
theorem step_of_ok {f : Function} (hv : Valid s) (h : body f msg s = .ok (o, s')) :
    Step msg s f o s' := by
  cases f with
  | addRecipient recipient ratioBps => exact addRecipient_step hv h
  | removeRecipient recipient => exact removeRecipient_step hv h
  | updateRatio recipient newRatioBps => exact updateRatio_step hv h
  | distribute => exact distribute_step (.inl rfl) h
  | receive => exact distribute_step (.inr rfl) h
  | claim => exact claim_step hv h
  | setMinDistributionThreshold threshold =>
    simp only [body, setMinDistributionThreshold, nonPayable_bind_ok, guard_bind_ok onlyOwner_ok,
      read_bind, write_bind, emit, pure_ok] at h
    obtain ⟨_, howned, rfl, rfl⟩ := h
    exact .thresholdSet howned
  | transferOwnership newOwner =>
    simp only [body, transferOwnership, nonPayable_bind_ok, guard_bind_ok onlyOwner_ok,
      revertIf_bind_ok, write_bind, pure_ok] at h
    obtain ⟨_, howned, _, rfl, rfl⟩ := h
    exact .ownershipTransferred howned
  | force =>
    simp only [body, force, message_bind, guard_bind_ok credit_ok, pure_ok] at h
    obtain ⟨hroom, rfl, rfl⟩ := h
    exact .forced hroom

/-! ## What a step keeps -/

theorem owed_split (p q : List Recipient) (r : Recipient) :
    owed (p ++ r :: q) = owed p + (r.accumulated + owed q) := by
  simp only [owed, List.map_append, List.map_cons, List.sum_append, List.sum_cons]

theorem owed_swapPop (hr : s.recipients[i]? = some r) :
    owed s.recipients = r.accumulated + owed (swapPop s.recipients i) := by
  have hperm := ((perm_swapPop hr).map (·.accumulated)).sum_eq
  rw [List.map_cons, List.sum_cons] at hperm
  exact hperm

theorem owed_zero (hr : s.recipients[i]? = some r) :
    owed s.recipients = r.accumulated + owed (s.recipients.modify i zero) := by
  obtain ⟨p, q, hsplit, hmodify⟩ := modify_split zero hr
  rw [hmodify, hsplit, owed_split, owed_split]
  simp only [zero]
  omega

theorem owed_zero_le (l : List Recipient) (i : Nat) : owed (l.modify i zero) ≤ owed l := by
  cases hr : l[i]? with
  | none => rw [List.modify_eq_self (List.getElem?_eq_none_iff.mp hr)]
  | some r =>
    obtain ⟨p, q, hsplit, hmodify⟩ := modify_split zero hr
    rw [hmodify, hsplit, owed_split, owed_split]
    simp only [zero]
    omega

/-- A round of the loop adds at most the floor of the share. -/
theorem accrue_le (amount : Nat) (r : Recipient) :
    (accrue amount r).accumulated ≤ r.accumulated + amount * r.ratioBps / 10000 := by
  have hshare : uncheckedMul amount r.ratioBps / 10000 ≤ amount * r.ratioBps / 10000 :=
    Nat.div_le_div_right (uncheckedMul_le ..)
  simp only [accrue]
  split
  · exact (Nat.mod_le ..).trans (Nat.add_le_add_left hshare _)
  · exact Nat.le_add_right ..

theorem accrue_wallet (amount : Nat) (r : Recipient) : (accrue amount r).wallet = r.wallet := by
  simp only [accrue]
  split <;> rfl

theorem accrue_ratioBps (amount : Nat) (r : Recipient) :
    (accrue amount r).ratioBps = r.ratioBps := by
  simp only [accrue]
  split <;> rfl

theorem owed_accrue_le (amount : Nat) (l : List Recipient) :
    owed (l.map (accrue amount)) ≤
      owed l + (Apportion.floors amount 10000 (l.map (·.ratioBps))).sum := by
  induction l with
  | nil => exact Nat.le_refl _
  | cons r rest ih =>
    have hround := accrue_le amount r
    simp only [owed, Apportion.floors, List.map_cons, List.sum_cons] at ih ⊢
    omega

namespace Valid

/-- The wallets, their shares and the index are not touched. -/
theorem amounts (h : Valid s)
    (hwallets : s'.recipients.map (·.wallet) = s.recipients.map (·.wallet))
    (hratios : s'.recipients.map (·.ratioBps) = s.recipients.map (·.ratioBps))
    (hindexOf : s'.indexOf = s.indexOf) (htotal : s'.totalShares = s.totalShares)
    (hsolvent : owed s'.recipients ≤ s'.balance) (hbounded : s'.balance < wordBound) :
    Valid s' where
  indexed := by rw [hwallets, hindexOf]; exact h.indexed
  shares := by rw [htotal, hratios]; exact h.shares
  whole := by rw [htotal]; exact h.whole
  solvent := hsolvent
  bounded := hbounded

/-- A distribution accrues no more than has come in. -/
theorem credited {amount : Nat} (h : Valid s) (hroom : s.balance + amount < wordBound) :
    Valid (shared { s with balance := s.balance + amount } amount) := by
  have hfloors : (Apportion.floors amount 10000 (s.recipients.map (·.ratioBps))).sum ≤ amount :=
    Apportion.sum_floors_le (by decide) (h.shares ▸ h.whole)
  have howed := owed_accrue_le amount s.recipients
  have hsolvent := h.solvent
  apply h.amounts
  · simp only [shared, List.map_map]
    exact List.map_congr_left fun r _ => accrue_wallet amount r
  · simp only [shared, List.map_map]
    exact List.map_congr_left fun r _ => accrue_ratioBps amount r
  · rfl
  · rfl
  · simp only [shared]
    omega
  · exact hroom

theorem added (h : Valid s) (hfresh : s.indexOf recipient = 0)
    (hwhole : s.totalShares + ratioBps ≤ 10000) :
    Valid { s with
      recipients := s.recipients ++ [⟨recipient, ratioBps, 0⟩]
      indexOf := Function.update s.indexOf recipient (s.recipients.length + 1)
      totalShares := s.totalShares + ratioBps
      events := s.events ++ [.recipientAdded recipient ratioBps] } where
  indexed := by
    have hpush := h.indexed.push hfresh
    rw [List.length_map] at hpush
    simp only [List.map_append, List.map_cons, List.map_nil]
    exact hpush
  shares := by
    simp only [List.map_append, List.map_cons, List.map_nil, List.sum_append, List.sum_cons,
      List.sum_nil, Nat.add_zero, h.shares]
  whole := hwhole
  solvent := by
    have hsolvent := h.solvent
    simp only [owed_split]
    simp only [owed, List.map_nil, List.sum_nil] at hsolvent ⊢
    omega
  bounded := h.bounded

theorem removed (h : Valid s) (hr : s.recipients[i]? = some r)
    (hlast : s.recipients.getLast? = some last) :
    Valid (removed s i r last) where
  indexed := by
    have hkey : (s.recipients.map (·.wallet))[i]? = some r.wallet := by
      rw [List.getElem?_map, hr, Option.map_some]
    have hend : (s.recipients.map (·.wallet)).getLast? = some last.wallet := by
      rw [List.getLast?_map, hlast, Option.map_some]
    simp only [EvmRevenuePool.removed, map_swapPop]
    exact h.indexed.swapPop hkey hend
  shares := by
    have hperm := ((perm_swapPop hr).map (·.ratioBps)).sum_eq
    rw [List.map_cons, List.sum_cons] at hperm
    simp only [EvmRevenuePool.removed, h.shares, hperm, Nat.add_sub_cancel_left]
  whole := (Nat.sub_le ..).trans h.whole
  solvent := by
    have hsolvent := h.solvent
    have hsplit := owed_swapPop hr
    simp only [EvmRevenuePool.removed]
    omega
  bounded := h.bounded

theorem removedPaid (h : Valid s) (hr : s.recipients[i]? = some r)
    (hlast : s.recipients.getLast? = some last) :
    Valid (paid { EvmRevenuePool.removed s i r last with
      recipients := (swapPop s.recipients i).modify i zero } r.wallet r.accumulated) := by
  have hsolvent := h.solvent
  have hsplit := owed_swapPop hr
  have hle := owed_zero_le (swapPop s.recipients i) i
  apply (h.removed hr hlast).amounts
  · exact map_modify (f := zero) (fun _ => rfl) ..
  · exact map_modify (f := zero) (fun _ => rfl) ..
  · rfl
  · rfl
  · simp only [paid, EvmRevenuePool.removed]
    omega
  · exact Nat.lt_of_le_of_lt (Nat.sub_le ..) h.bounded

theorem updated (h : Valid s) (hr : s.recipients[i]? = some r)
    (hwhole : s.totalShares - r.ratioBps + newRatioBps ≤ 10000) {es : List Event} :
    Valid { s with
      recipients := s.recipients.modify i (setRatio newRatioBps)
      totalShares := s.totalShares - r.ratioBps + newRatioBps
      events := es } where
  indexed := by
    simp only [map_modify (f := setRatio newRatioBps) (g := (·.wallet)) fun _ => rfl]
    exact h.indexed
  shares := by
    obtain ⟨p, q, hsplit, hmodify⟩ := modify_split (setRatio newRatioBps) hr
    have hshares := h.shares
    rw [hsplit] at hshares
    simp only [List.map_append, List.map_cons, List.sum_append, List.sum_cons] at hshares
    simp only [hmodify, List.map_append, List.map_cons, List.sum_append, List.sum_cons, setRatio]
    omega
  whole := hwhole
  solvent := by
    simp only [owed, map_modify (f := setRatio newRatioBps) (g := (·.accumulated)) fun _ => rfl]
    exact h.solvent
  bounded := h.bounded

theorem claimed (h : Valid s) (hr : s.recipients[i]? = some r) :
    Valid (paid { s with recipients := s.recipients.modify i zero } r.wallet r.accumulated) := by
  have hsolvent := h.solvent
  have hsplit := owed_zero hr
  apply h.amounts
  · exact map_modify (f := zero) (fun _ => rfl) ..
  · exact map_modify (f := zero) (fun _ => rfl) ..
  · rfl
  · rfl
  · simp only [paid]
    omega
  · exact Nat.lt_of_le_of_lt (Nat.sub_le ..) h.bounded

end Valid

theorem Step.valid {f : Function} (h : Step msg s f o s') (hv : Valid s) : Valid s' := by
  cases h with
  | added _ _ hfresh hwhole => exact hv.added hfresh hwhole
  | removed _ hr hlast _ =>
    have hremoved := hv.removed hr hlast
    exact ⟨hremoved.indexed, hremoved.shares, hremoved.whole, hremoved.solvent, hremoved.bounded⟩
  | removedPaid _ hr hlast _ _ => exact hv.removedPaid hr hlast
  | updated _ hr _ hwhole => exact hv.updated hr hwhole
  | distributed _ hroom => exact hv.credited hroom
  | claimed hr _ _ => exact hv.claimed hr
  | thresholdSet => exact ⟨hv.indexed, hv.shares, hv.whole, hv.solvent, hv.bounded⟩
  | ownershipTransferred => exact ⟨hv.indexed, hv.shares, hv.whole, hv.solvent, hv.bounded⟩
  | forced hroom =>
    exact ⟨hv.indexed, hv.shares, hv.whole, hv.solvent.trans (Nat.le_add_right ..), hroom⟩

/-! ## Runs -/

variable {self : Address} {frames : List (State × Rest)} {acts : List (Act Call)}

theorem deploy_valid {owner : Address} (h : deploy owner = .ok s) : Valid s := by
  rw [deploy] at h
  split at h
  · contradiction
  · cases h
    exact ⟨indexed_nil, rfl, Nat.zero_le _, Nat.le_refl _, Nat.two_pow_pos 256⟩

theorem received_cases {amount : Nat} {u : Unit}
    (h : received self recipient amount msg s = .ok (u, s')) :
    s' = s ∨ s.balance + amount < wordBound ∧
      s' = shared { s with balance := s.balance + amount } amount := by
  rw [received] at h
  split at h
  · simp only [guard_bind_ok credit_ok, distributeValue_ok] at h
    exact .inr ⟨h.1, h.2.2.symm⟩
  · exact .inl (pure_ok.mp h).2.symm

/-- When a payment has returned, nothing has changed but the events, unless the contract has
paid itself: then the amount has been distributed. -/
theorem resume_cases {rest : Rest} (h : (contract self).resume rest s = .ok s') :
    ∃ t es, s' = { t with events := es } ∧ (t = s ∨ ∃ amount, s.balance + amount < wordBound ∧
      t = shared { s with balance := s.balance + amount } amount) := by
  simp only [contract] at h
  cases hfinish : finish self rest ⟨self, 0, 0⟩ s with
  | error e =>
    rw [hfinish] at h
    contradiction
  | ok p =>
    obtain ⟨u, s''⟩ := p
    rw [hfinish] at h
    cases h
    cases rest with
    | claimed recipient amount =>
      simp only [finish, bind_ok, emit_ok] at hfinish
      obtain ⟨_, t, hreceived, rfl⟩ := hfinish
      exact ⟨t, _, rfl, (received_cases hreceived).imp_right fun h => ⟨_, h⟩⟩
    | removed recipient ratio accrued =>
      simp only [finish, bind_ok, emit_ok] at hfinish
      obtain ⟨_, t, hreceived, _, _, rfl, rfl⟩ := hfinish
      exact ⟨t, _, rfl, (received_cases hreceived).imp_right fun h => ⟨_, h⟩⟩

theorem resume_valid {rest : Rest} (hv : Valid s) (h : (contract self).resume rest s = .ok s') :
    Valid s' := by
  obtain ⟨t, es, rfl, ht⟩ := resume_cases h
  have hvalid : Valid t := by
    obtain rfl | ⟨_, hroom, rfl⟩ := ht
    · exact hv
    · exact hv.credited hroom
  exact ⟨hvalid.indexed, hvalid.shares, hvalid.whole, hvalid.solvent, hvalid.bounded⟩

theorem keeps_valid (self : Address) :
    Keeps (contract self) (fun _ _ => True) (fun s _ => Valid s) where
  finish _ hv henter := (step_of_ok hv henter).valid hv
  wait _ hv henter := (step_of_ok hv henter).valid hv
  resume hv _ hresume := resume_valid hv hresume

theorem valid_run {owner : Address} (h : deploy owner = .ok s) (self : Address)
    (acts : List (Act Call)) :
    Holds (fun s _ => Valid s) (run (machine (contract self)) ⟨s, []⟩ acts).state
      (run (machine (contract self)) ⟨s, []⟩ acts).frames :=
  holds_run_any (g := ⟨s, []⟩) (keeps_valid self) (deploy_valid h) acts

/-- In every reachable state each listed wallet has the index of its place, every other wallet
has none, the wallets are distinct, the shares add up to at most the whole, and the balance
covers what has been accumulated. -/
theorem pool_consistent {owner : Address} (h : deploy owner = .ok s) (self : Address)
    (acts : List (Act Call)) {s' : State}
    (hrun : (run (machine (contract self)) ⟨s, []⟩ acts).state = s') :
    (∀ i r, s'.recipients[i]? = some r → s'.indexOf r.wallet = i + 1) ∧
      (∀ a, (∀ r ∈ s'.recipients, r.wallet ≠ a) → s'.indexOf a = 0) ∧
      (s'.recipients.map (·.wallet)).Nodup ∧
      s'.totalShares = (s'.recipients.map (·.ratioBps)).sum ∧
      s'.totalShares ≤ 10000 ∧
      (s'.recipients.map (·.accumulated)).sum ≤ s'.balance := by
  have hv : Valid s' := hrun ▸ (valid_run h self acts).here
  have hunlisted : ∀ a, (∀ r ∈ s'.recipients, r.wallet ≠ a) → s'.indexOf a = 0 := by
    intro a ha
    apply hv.indexed.unlisted
    intro hmem
    obtain ⟨r, hr, he⟩ := List.mem_map.mp hmem
    exact ha r hr he
  exact ⟨fun i r hr => hv.pos hr, hunlisted, hv.indexed.nodup, hv.shares, hv.whole, hv.solvent⟩

/-- Just deployed by the owner 1. -/
def newPool : State :=
  { owner := ⟨1⟩, recipients := [], indexOf := fun _ => 0, totalShares := 0,
    minDistributionThreshold := 0, balance := 0, payments := [], events := [] }

theorem deploy_newPool : deploy ⟨1⟩ = .ok newPool := rfl

/-- The recipients 2 and 3 with half of the shares each, and 10000 distributed. -/
def sharedEqually : List (Act Call) :=
  [.call ⟨⟨⟨1⟩, 0, 0⟩, .addRecipient ⟨2⟩ 5000⟩,
    .call ⟨⟨⟨1⟩, 0, 0⟩, .addRecipient ⟨3⟩ 5000⟩,
    .call ⟨⟨⟨4⟩, 10000, 0⟩, .distribute⟩]

theorem pool_consistent_sharedEqually :
    let s := (run (machine (contract ⟨9⟩)) ⟨newPool, []⟩ sharedEqually).state
    (∀ i r, s.recipients[i]? = some r → s.indexOf r.wallet = i + 1) ∧
      (∀ a, (∀ r ∈ s.recipients, r.wallet ≠ a) → s.indexOf a = 0) ∧
      (s.recipients.map (·.wallet)).Nodup ∧
      s.totalShares = (s.recipients.map (·.ratioBps)).sum ∧
      s.totalShares ≤ 10000 ∧
      (s.recipients.map (·.accumulated)).sum ≤ s.balance :=
  pool_consistent deploy_newPool ⟨9⟩ sharedEqually rfl

end EvmRevenuePool
