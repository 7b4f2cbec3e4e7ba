import AgenticPay.EvmSplitter

/-!
# What a split pays

The recipients are read from the store one by one, and a wallet that is paid can
have changed those that come after it. Each one that is due, as its turn finds
it, is paid its floored share, whatever the others are paid; how much that comes to
is a matter of their basis points, whose total nothing in the settings checks.
-/
namespace EvmSplitter

open Evm Body Transaction

/-! ## The specification -/

/-- What is left of a payment when the platform has taken its fee. -/
def distributableOf (platformFeeBps value : Nat) : Nat := value - value * platformFeeBps / 10000

def Recipient.share (distributable : Nat) (r : Recipient) : Nat := distributable * r.bps / 10000

/-- An active recipient, with a share, which is not below its threshold. -/
def Recipient.Due (distributable : Nat) (r : Recipient) : Prop :=
  ¬ (r.active = false ∨ r.bps = 0) ∧ ¬ r.share distributable < r.minThreshold

instance (distributable : Nat) (r : Recipient) : Decidable (r.Due distributable) :=
  inferInstanceAs (Decidable (_ ∧ _))

/-- The recipients, each as its turn finds it. -/
def turns (self : Address) (distributable : Nat) (answers : Nat → Answer) :
    List Nat → Store → List Recipient
  | [], _ => []
  | i :: rest, t =>
    match t.recipients[i]? with
    | none => []
    | some r =>
      r :: turns self distributable answers rest
        (if r.Due distributable then (heard self r.wallet (answers i)).store t else t)

def due (distributable : Nat) (rs : List Recipient) : List Recipient :=
  rs.filter fun r => decide (r.Due distributable)

/-- What the due recipients have together is at most the whole, but for what flooring takes off. -/
def WithinWhole (distributable : Nat) (rs : List Recipient) : Prop :=
  distributable * ((due distributable rs).map (·.bps)).sum ≤
    10000 * distributable + ((due distributable rs).map fun r => distributable * r.bps % 10000).sum

instance (distributable : Nat) (rs : List Recipient) : Decidable (WithinWhole distributable rs) :=
  Nat.decLe _ _

/-- What has been paid between two states. -/
def paidBetween (s s' : State) : List (Address × Nat) := s'.payments.drop s.payments.length

/-- A split that pays out of the payment alone, and each recipient its share. -/
structure Fair (distributable : Nat) (rs : List Recipient) (s s' : State) : Prop where
  within : ((paidBetween s s').map (·.2)).sum ≤ distributable
  kept : s.balance ≤ s'.balance
  shares : paidBetween s s' =
    (due distributable rs).map fun r => (r.wallet, r.share distributable)

/-! ## The shares together -/

variable {distributable : Nat} {rs : List Recipient}

theorem due_cons (r : Recipient) (rs : List Recipient) :
    due distributable (r :: rs) =
      if r.Due distributable then r :: due distributable rs else due distributable rs := by
  by_cases h : r.Due distributable
  · rw [if_pos h, due, List.filter_cons_of_pos (by simpa using h), due]
  · rw [if_neg h, due, List.filter_cons_of_neg (by simpa using h), due]

def sharesOf (distributable : Nat) (rs : List Recipient) : Nat :=
  ((due distributable rs).map (·.share distributable)).sum

theorem withinWhole_iff :
    WithinWhole distributable rs ↔ sharesOf distributable rs ≤ distributable := by
  have hsplit := Apportion.floors_add_remainders distributable 10000
    ((due distributable rs).map (·.bps))
  have hshares : (Apportion.floors distributable 10000 ((due distributable rs).map (·.bps))).sum =
      sharesOf distributable rs := by
    rw [Apportion.floors, List.map_map]
    rfl
  rw [hshares, List.map_map] at hsplit
  have hdust : ((due distributable rs).map
      ((fun weight => distributable * weight % 10000) ∘ (·.bps))).sum =
      ((due distributable rs).map fun r => distributable * r.bps % 10000).sum := rfl
  rw [hdust] at hsplit
  rw [WithinWhole]
  omega

/-- Basis points of a whole in all are always within it. -/
theorem withinWhole_of_bps (h : ((due distributable rs).map (·.bps)).sum ≤ 10000) :
    WithinWhole distributable rs := by
  have hle := Nat.mul_le_mul_left distributable h
  rw [WithinWhole]
  omega

/-- While no wallet calls back, the turns find the recipients that are stored. -/
theorem turns_quiet {self : Address} {answers : Nat → Answer} (t : Store)
    (hquiet : ∀ i, answers i = .accepted []) :
    turns self distributable answers (List.range t.recipients.length) t = t.recipients := by
  have hsame : ∀ (r : Recipient) i, (if r.Due distributable
      then (heard self r.wallet (answers i)).store t else t) = t := by
    intro r i
    rw [hquiet, heard, ite_self]
    exact ite_self t
  have hfrom : ∀ n k, k + n = t.recipients.length →
      turns self distributable answers (List.range' k n) t = t.recipients.drop k := by
    intro n
    induction n with
    | zero =>
      intro k hk
      rw [List.range'_zero, turns, List.drop_eq_nil_of_le (by omega)]
    | succ n ih =>
      intro k hk
      have hlt : k < t.recipients.length := by omega
      rw [List.range'_succ, turns, List.getElem?_eq_getElem hlt]
      simp only
      rw [hsame, ih (k + 1) (by omega), List.drop_eq_getElem_cons hlt]
  rw [List.range_eq_range', hfrom _ 0 (by omega), List.drop_zero]

/-! ## What a call has done -/

variable {self : Address} {msg : Message} {s s' : State} {a : Answer} {answers : Nat → Answer}

theorem balance_le_reentry (c : Reentry) (b : Nat) : b ≤ c.balance b := by
  cases c with
  | setting _ _ => exact Nat.le_refl b
  | receive value =>
    rw [Reentry.balance]
    split
    · exact Nat.le_add_right b value
    · exact Nat.le_refl b

/-- A wallet that is paid can only add to the balance. -/
theorem balance_le_answer (a : Answer) (b : Nat) : b ≤ a.balance b := by
  cases a with
  | failed => exact Nat.le_refl b
  | accepted calls =>
    rw [Answer.balance]
    induction calls generalizing b with
    | nil => exact Nat.le_refl b
    | cons c calls ih =>
      rw [List.foldl_cons]
      exact Nat.le_trans (balance_le_reentry c b) (ih _)

theorem le_debited {dest : Address} {amount balance : Nat} :
    balance ≤ debited self dest amount balance + amount := by
  rw [debited]
  split <;> omega

/-- What has happened between two states: the payments made, and what the balance has lost. -/
structure Paid (s s' : State) (ps : List (Address × Nat)) : Prop where
  payments : s'.payments = s.payments ++ ps
  balance : s.balance ≤ s'.balance + (ps.map (·.2)).sum

theorem Paid.refl (s : State) : Paid s s [] := ⟨(List.append_nil _).symm, Nat.le_add_right _ _⟩

theorem Paid.trans {s t u : State} {ps qs : List (Address × Nat)} (h : Paid s t ps)
    (h' : Paid t u qs) : Paid s u (ps ++ qs) where
  payments := by rw [h'.payments, h.payments, List.append_assoc]
  balance := by
    have h₁ := h.balance
    have h₂ := h'.balance
    rw [List.map_append, List.sum_append]
    omega

theorem pay_ok {dest : Address} {amount : Nat} {u : Unit}
    (h : pay self dest amount a msg s = .ok (u, s')) :
    Paid s s' [(dest, amount)] ∧ s'.toStore = (heard self dest a).store s.toStore := by
  simp only [pay, read_bind, revertIf_bind_ok, write_bind, write_ok] at h
  obtain ⟨hok, rfl⟩ := h
  have hle : s.balance ≤
      (heard self dest a).balance (debited self dest amount s.balance) + amount :=
    Nat.le_trans le_debited (Nat.add_le_add_right (balance_le_answer _ _) amount)
  exact ⟨⟨rfl, by simpa using hle⟩, rfl⟩

/-- A round of the loop pays the recipient it reads, or passes it over. -/
theorem splitRound_ok {i n n' : Nat}
    (h : splitRound self distributable a i n msg s = .ok (n', s')) :
    ∃ r, s.recipients[i]? = some r ∧
      Paid s s' (if r.Due distributable then [(r.wallet, r.share distributable)] else []) ∧
      s'.toStore =
        if r.Due distributable then (heard self r.wallet a).store s.toStore else s.toStore := by
  rw [splitRound, bind_ok] at h
  obtain ⟨r, t, hread, h⟩ := h
  have hr : s.recipients[i]? = some r ∧ s = t := by
    rw [recipientAt, read_bind] at hread
    cases hget : s.recipients[i]? with
    | none => simp [hget] at hread
    | some r' => simpa [hget] using hread
  obtain ⟨hget, rfl⟩ := hr
  refine ⟨r, hget, ?_⟩
  by_cases hskip : r.active = false ∨ r.bps = 0
  · rw [if_pos hskip, pure_ok] at h
    obtain ⟨_, rfl⟩ := h
    have hdue : ¬ r.Due distributable := fun hd => hd.1 hskip
    rw [if_neg hdue, if_neg hdue]
    exact ⟨Paid.refl s, rfl⟩
  · rw [if_neg hskip, mulWord_bind_ok] at h
    obtain ⟨_, h⟩ := h
    by_cases hbelow : r.share distributable < r.minThreshold
    · have hdue : ¬ r.Due distributable := fun hd => hd.2 hbelow
      rw [if_neg hdue, if_neg hdue]
      rw [Recipient.share] at hbelow
      simp only [if_pos hbelow, pure_ok] at h
      obtain ⟨_, rfl⟩ := h
      exact ⟨Paid.refl s, rfl⟩
    · have hdue : r.Due distributable := ⟨hskip, hbelow⟩
      rw [if_pos hdue, if_pos hdue]
      rw [Recipient.share] at hbelow
      simp only [if_neg hbelow] at h
      rw [addWord_bind_ok, bind_ok] at h
      obtain ⟨_, _, t, hpay, h⟩ := h
      obtain ⟨_, rfl⟩ := pure_ok.mp h
      exact pay_ok hpay

/-- The rounds pay the recipients that are due in their turns. -/
theorem splitRounds_ok {l : List Nat} {n n' : Nat}
    (h : splitRounds self distributable answers l n msg s = .ok (n', s')) :
    Paid s s' ((due distributable (turns self distributable answers l s.toStore)).map
      fun r => (r.wallet, r.share distributable)) := by
  induction l generalizing n s with
  | nil =>
    rw [splitRounds, pure_ok] at h
    obtain ⟨_, rfl⟩ := h
    exact Paid.refl s
  | cons i rest ih =>
    rw [splitRounds, bind_ok] at h
    obtain ⟨m, t, hround, hrest⟩ := h
    obtain ⟨r, hget, hpaid, hstore⟩ := splitRound_ok hround
    have hthen := hpaid.trans (ih hrest)
    rw [turns, hget]
    simp only
    rw [due_cons, ← hstore]
    by_cases hdue : r.Due distributable
    · rw [if_pos hdue, List.map_cons]
      rwa [if_pos hdue] at hthen
    · rw [if_neg hdue]
      rwa [if_neg hdue] at hthen

/-- The amount of a payment, less the fee, is split. -/
theorem splitValue_ok {u : Unit} (h : splitValue self answers msg s = .ok (u, s')) :
    Paid s s' ((due (distributableOf s.platformFeeBps msg.value)
      (turns self (distributableOf s.platformFeeBps msg.value) answers
        (List.range s.recipients.length) s.toStore)).map
      fun r => (r.wallet, r.share (distributableOf s.platformFeeBps msg.value))) := by
  rw [splitValue, message_bind, revertIf_bind_ok] at h
  simp only [read_bind, mulWord_bind_ok, subWord_bind_ok] at h
  obtain ⟨_, _, _, h⟩ := h
  rw [bind_ok] at h
  obtain ⟨n, t, hrounds, hemit⟩ := h
  have hpaid := splitRounds_ok hrounds
  have hlast : s' = { t with toStore := s'.toStore } := by
    simp only [onStore, emit, write] at hemit
    obtain ⟨_, rfl⟩ := Prod.mk.inj (Except.ok.inj hemit)
    rfl
  rw [hlast]
  exact ⟨hpaid.payments, hpaid.balance⟩

/-- A split pays the recipients that are due in their turns out of what it has taken in. -/
theorem splitPayment_ok {u : Unit} (h : splitPayment self answers msg s = .ok (u, s')) :
    Paid { s with balance := s.balance + msg.value } s'
      ((due (distributableOf s.platformFeeBps msg.value)
        (turns self (distributableOf s.platformFeeBps msg.value) answers
          (List.range s.recipients.length) s.toStore)).map
        fun r => (r.wallet, r.share (distributableOf s.platformFeeBps msg.value))) := by
  rw [splitPayment, message_bind, bind_ok] at h
  obtain ⟨_, s₁, hcredit, h⟩ := h
  rw [bind_ok] at h
  obtain ⟨_, s₂, henter, h⟩ := h
  rw [bind_ok] at h
  obtain ⟨_, s₃, hsplit, hleave⟩ := h
  rw [credit, read_bind, creditWord_bind_ok, write_ok] at hcredit
  obtain ⟨_, rfl⟩ := hcredit
  rw [enterGuard, read_bind, revertIf_bind_ok, write_ok] at henter
  obtain ⟨_, rfl⟩ := henter
  rw [leaveGuard, write_ok] at hleave
  have hpaid := splitValue_ok hsplit
  rw [← hleave]
  exact ⟨hpaid.payments, hpaid.balance⟩

/-- An owner that gives `bps` to each of two recipients, and ether that comes in after that. -/
def configured (bps : Nat) : List (Message × Function) :=
  [(⟨⟨1⟩, 0, 0⟩, .setting (.initializeContract ⟨1⟩ 1000)),
    (⟨⟨1⟩, 0, 0⟩, .setting (.setRecipient 0 ⟨2⟩ bps 0 true)),
    (⟨⟨1⟩, 0, 0⟩, .setting (.setRecipient 1 ⟨3⟩ bps 100 true)),
    (⟨⟨4⟩, 5000, 0⟩, .receive)]

/-- The state after two recipients of `bps` each have been paid out of 1000. -/
def paidTwice (bps : Nat) : State :=
  let s := run (system ⟨9⟩) deployed (configured bps)
  let share := 900 * bps / 10000
  { s with
    balance := 6000 - 2 * share
    payments := [(⟨2⟩, share), (⟨3⟩, share)]
    events := s.events ++ [.paymentSplit 1000 100 (2 * share)] }

end EvmSplitter
