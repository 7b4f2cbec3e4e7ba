import AgenticPay.EvmErc20Gas
import Mathlib.Data.List.Induction

/-!
# The supply of the gas-tuned token

In every run the arithmetic without checks is exact: a call does what it is to do, or it reverts. A
batch does what its transfers do one by one, except that it destroys what the sender sends to
itself, for the balance that was read at the start is written at the end. That is all that the
balances fall short of the supply.
-/
namespace EvmErc20Gas

open Evm Body Holdings Transaction

variable {m : Message} {s s' t : State} {f : Function}
  {source dest sender owner spender a : Address} {amount n : Nat}
  {entries : List (Address × Nat)} {u : Unit}

/-- In a sane state, a call returns exactly if the token as it is meant allows it. -/
theorem system_ok (h : Sane s) :
    system (m, f) s = .ok (u, s') ↔ m.value = 0 ∧ Does m s f s' := by
  cases f with
  | transfer dest amount =>
    simp only [system, Function.body, transfer, bind_ok, nonPayable_ok, message_ok,
      transferTokens_ok h, pure_ok, and_assoc, exists_and_left, exists_eq_left', exists_const]
    refine and_congr_right fun _ => ?_
    constructor
    · rintro ⟨hdest, hheld, -, rfl⟩
      exact .transfer hdest hheld
    · intro hdoes
      cases hdoes with
      | transfer hdest held => exact ⟨hdest, held, trivial, rfl⟩
  | transferFrom source dest amount =>
    have hused : Sane (s.used source m.sender amount) := by
      constructor
      · rw [used_balanceOf, used_totalSupply]
        exact h.sums
      · rw [used_totalSupply]
        exact h.supply
    simp only [system, Function.body, transferFrom, bind_ok, nonPayable_ok, message_ok,
      useAllowance_ok, pure_ok, and_assoc, exists_and_left, exists_eq_left', exists_const,
      transferTokens_ok hused, used_balanceOf]
    refine and_congr_right fun _ => ?_
    constructor
    · rintro ⟨hallowed, hdest, hheld, -, rfl⟩
      exact .transferFrom hallowed hdest hheld
    · intro hdoes
      cases hdoes with
      | transferFrom allowed hdest held => exact ⟨allowed, hdest, held, trivial, rfl⟩
  | batchTransfer tos amounts =>
    simp only [system, Function.body, bind_ok, batchTransfer_ok h, pure_ok, and_assoc]
    constructor
    · rintro ⟨_, _, hvalue, hlength, hlong, hdest, hheld, -, rfl, -, rfl⟩
      exact ⟨hvalue, .batchTransfer hlength hlong hdest hheld⟩
    · rintro ⟨hvalue, hdoes⟩
      cases hdoes with
      | batchTransfer length encoded hdest held =>
        exact ⟨true, _, hvalue, length, encoded, hdest, held, rfl, rfl, trivial, rfl⟩
  | approve spender amount =>
    simp only [system, Function.body, approve, setAllowance, emit, bind_ok, nonPayable_ok,
      message_ok, write_ok, pure_ok, and_assoc, exists_and_left, exists_eq_left', exists_const]
    refine and_congr_right fun _ => ?_
    constructor
    · rintro ⟨-, rfl⟩
      exact .approve
    · intro hdoes
      cases hdoes with
      | approve => exact ⟨trivial, rfl⟩
  | mint dest amount =>
    refine (mint_ok h).trans (and_congr_right fun _ => ?_)
    constructor
    · rintro ⟨hdest, hfits, rfl⟩
      exact .mint hdest hfits
    · intro hdoes
      cases hdoes with
      | mint hdest fits => exact ⟨hdest, fits, rfl⟩
  | burn amount =>
    refine (burn_ok h).trans (and_congr_right fun _ => ?_)
    constructor
    · rintro ⟨hheld, rfl⟩
      exact .burn hheld
    · intro hdoes
      cases hdoes with
      | burn held => exact ⟨held, rfl⟩

/-! ## What the balances add up to -/

theorem sums_withBalance (h : Sums s.balanceOf n) {b k : Nat}
    (hk : n + b = k + s.balanceOf a) : Sums (s.withBalance a b).balanceOf k := by
  refine h.change (a := a) (fun c hc => withBalance_other _ _ hc) ?_
  rw [withBalance_self]
  exact hk

theorem sums_moved (h : Sums s.balanceOf n) (hheld : amount ≤ s.balanceOf source) :
    Sums (s.moved source dest amount).balanceOf n := by
  have hle := h.le source
  have hdebited : Sums (s.withBalance source (s.balanceOf source - amount)).balanceOf
      (n - amount) := sums_withBalance h (by omega)
  exact sums_withBalance hdebited (by omega)

theorem sums_credited (h : Sums s.balanceOf n) :
    Sums (s.credited sender entries).balanceOf (n + spent entries) := by
  induction entries generalizing s n with
  | nil => exact h
  | cons e rest ih =>
    obtain ⟨dest, amount⟩ := e
    rw [spent_cons, ← Nat.add_assoc]
    refine ih (sums_withBalance h ?_)
    show n + (s.balanceOf dest + amount) = n + amount + s.balanceOf dest
    omega

theorem sums_batched (h : Sums s.balanceOf n) (hheld : spent entries ≤ s.balanceOf sender) :
    Sums (s.batched sender entries).balanceOf (n - sentTo sender entries) := by
  have hle := h.le sender
  have hsent := sentTo_le_spent sender entries
  refine sums_withBalance (sums_credited h) ?_
  rw [credited_balanceOf]
  omega

/-- What a batch sends to the sender itself. -/
def lostBy (m : Message) : Function → Nat
  | .batchTransfer tos amounts => sentTo m.sender (tos.zip amounts)
  | .transfer _ _ => 0
  | .transferFrom _ _ _ => 0
  | .approve _ _ => 0
  | .mint _ _ => 0
  | .burn _ => 0

/-- The supply minus what is held grows by what is lost. -/
theorem Does.accounts (hdoes : Does m s f s') (h : Sums s.balanceOf n)
    (hsupply : n ≤ s.totalSupply) :
    ∃ k, Sums s'.balanceOf k ∧ k + lostBy m f + s.totalSupply = n + s'.totalSupply := by
  cases hdoes with
  | transfer hdest held => exact ⟨n, sums_moved h held, rfl⟩
  | @transferFrom source dest amount allowed hdest held =>
    have hused : Sums (s.used source m.sender amount).balanceOf n := by rwa [used_balanceOf]
    refine ⟨n, sums_moved hused (by rwa [used_balanceOf]), ?_⟩
    show n + 0 + s.totalSupply = n + (s.used source m.sender amount).totalSupply
    rw [used_totalSupply]
    rfl
  | @batchTransfer tos amounts length encoded hdest held =>
    refine ⟨_, sums_batched h held, ?_⟩
    have hsent := sentTo_le_spent m.sender (tos.zip amounts)
    have hle := h.le m.sender
    show n - sentTo m.sender (tos.zip amounts) + sentTo m.sender (tos.zip amounts) +
      s.totalSupply = n + (s.credited m.sender (tos.zip amounts)).totalSupply
    rw [credited_totalSupply]
    omega
  | approve => exact ⟨n, h, rfl⟩
  | @mint dest amount hdest fits =>
    refine ⟨n + amount, sums_withBalance h (by omega), ?_⟩
    show n + amount + 0 + s.totalSupply = n + (s.totalSupply + amount)
    omega
  | @burn amount held =>
    have hle := h.le m.sender
    refine ⟨n - amount, sums_withBalance h (by omega), ?_⟩
    show n - amount + 0 + s.totalSupply = n + (s.totalSupply - amount)
    omega

theorem Does.supply_le (hdoes : Does m s f s') (h : s.totalSupply ≤ maxSupply) :
    s'.totalSupply ≤ maxSupply := by
  cases hdoes with
  | transfer hdest held => exact h
  | @transferFrom source dest amount allowed hdest held =>
    show (s.used source m.sender amount).totalSupply ≤ maxSupply
    rwa [used_totalSupply]
  | batchTransfer length encoded hdest held =>
    show (s.credited m.sender _).totalSupply ≤ maxSupply
    rwa [credited_totalSupply]
  | approve => exact h
  | mint hdest fits => exact fits
  | burn held => exact (Nat.sub_le _ _).trans h

theorem Does.sane (hdoes : Does m s f s') (h : Sane s) : Sane s' where
  sums := by
    obtain ⟨n, hsums, hn⟩ := h.sums
    obtain ⟨k, hsums', hk⟩ := hdoes.accounts hsums hn
    exact ⟨k, hsums', by omega⟩
  supply := hdoes.supply_le h.supply

theorem sane_commit (h : Sane s) (c : Message × Function) : Sane (commit system s c) :=
  commit_preserves (fun _ _ hcall => ((system_ok h).mp hcall).2.sane h) h

theorem sane_run (timestamp digits : Nat) (cs : List (Message × Function)) :
    Sane (run system (deployed timestamp digits) cs) :=
  run_preserves (I := Sane) (fun _ c h => sane_commit h c) (sane_deployed timestamp digits) cs

/-- After any calls, the next one does what the token is meant to do or reverts: no operation
without a check ever wraps around. -/
theorem calls_exact (timestamp digits : Nat) (cs : List (Message × Function)) (m : Message)
    (f : Function) (s' : State) :
    system (m, f) (run system (deployed timestamp digits) cs) = .ok ((), s') ↔
      m.value = 0 ∧ Does m (run system (deployed timestamp digits) cs) f s' :=
  system_ok (sane_run timestamp digits cs)

/-- A quantity of the calls that return. -/
def onReturn (q : Message × Function → Nat) (s : State) (c : Message × Function) : Int :=
  match system c s with
  | .ok _ => q c
  | .error _ => 0

theorem onReturn_ok {q : Message × Function → Nat} {c : Message × Function} {r : Unit × State}
    (h : system c s = .ok r) : onReturn q s c = q c := by
  simp only [onReturn, h]

theorem onReturn_error {q : Message × Function → Nat} {c : Message × Function} {r : Revert Error}
    (h : system c s = .error r) : onReturn q s c = 0 := by
  simp only [onReturn, h]

theorem onReturn_nonneg (q : Message × Function → Nat) (s : State) (c : Message × Function) :
    0 ≤ onReturn q s c := by
  rw [onReturn]
  split
  · exact Int.natCast_nonneg _
  · exact Int.le_refl 0

def lost : State → Message × Function → Int := onReturn fun c => lostBy c.1 c.2

theorem commit_accounts (h : Sane s) (c : Message × Function) (hsums : Sums s.balanceOf n)
    (hn : n ≤ s.totalSupply) :
    ∃ k, Sums (commit system s c).balanceOf k ∧
      (k : Int) + lost s c + s.totalSupply = n + (commit system s c).totalSupply := by
  cases hcall : system c s with
  | ok r =>
    obtain ⟨u, s'⟩ := r
    rw [commit_of_ok hcall]
    obtain ⟨-, hdoes⟩ := (system_ok h).mp hcall
    obtain ⟨k, hk, heq⟩ := hdoes.accounts hsums hn
    refine ⟨k, hk, ?_⟩
    rw [lost, onReturn_ok hcall]
    omega
  | error r =>
    rw [commit_of_error hcall]
    refine ⟨n, hsums, ?_⟩
    rw [lost, onReturn_error hcall]
    omega

/-- In every run from the deployment, the balances add up to the supply less what batches have sent
to their own senders, and the supply stays below its bound. -/
theorem supply_accounted (timestamp digits : Nat) (cs : List (Message × Function)) :
    ∃ held, Sums (run system (deployed timestamp digits) cs).balanceOf held ∧
      (held : Int) + total system lost (deployed timestamp digits) cs =
        (run system (deployed timestamp digits) cs).totalSupply ∧
      (run system (deployed timestamp digits) cs).totalSupply ≤ maxSupply := by
  induction cs using List.reverseRecOn with
  | nil => exact ⟨0, sums_zero, rfl, Nat.zero_le _⟩
  | append_singleton cs c ih =>
    obtain ⟨held, hsums, heq, -⟩ := ih
    have hsane := sane_run timestamp digits cs
    have hlost : 0 ≤ total system lost (deployed timestamp digits) cs :=
      total_nonneg (onReturn_nonneg _) _ cs
    obtain ⟨k, hk, hstep⟩ := commit_accounts hsane c hsums (by omega)
    have hnext := sane_commit hsane c
    rw [run_snoc, total_snoc]
    exact ⟨k, hk, by omega, hnext.supply⟩

/-! ## A batch and its transfers one by one -/

/-- The transfers of a batch as calls of their own, up to the first that reverts. -/
def transferEach (m : Message) : List (Address × Nat) → State → Option State
  | [], s => some s
  | (dest, amount) :: rest, s =>
    match system (m, .transfer dest amount) s with
    | .ok (_, t) => transferEach m rest t
    | .error _ => none

/-- All entries have gone out, and the sender is left with an amount. -/
def State.settled (s : State) (sender : Address) (entries : List (Address × Nat)) (left : Nat) :
    State :=
  { s with
    balanceOf := fun a => if a = sender then left else s.balanceOf a + sentTo a entries
    events := s.events ++ entries.map fun e => .transfer sender e.1 e.2 }

theorem batched_eq (s : State) (sender : Address) (entries : List (Address × Nat)) :
    s.batched sender entries = s.settled sender entries (s.balanceOf sender - spent entries) := by
  rw [State.batched, credited_eq]
  refine State.ext rfl rfl ?_ rfl rfl
  funext a
  show _ = if a = sender then _ else _
  split
  next h => rw [h, withBalance_self]
  next h => rw [withBalance_other _ _ h]

theorem settled_withBalance (left added : Nat) :
    (s.settled sender entries left).withBalance sender (left + added) =
      s.settled sender entries (left + added) := by
  refine State.ext rfl rfl ?_ rfl rfl
  funext a
  show Function.update _ sender _ a = if a = sender then _ else _
  by_cases ha : a = sender
  · rw [ha, Function.update_self, if_pos rfl]
  · rw [Function.update_of_ne ha, if_neg ha]
    exact if_neg ha

theorem settled_moved {left : Nat} :
    (s.moved sender dest amount).settled sender entries left =
      s.settled sender ((dest, amount) :: entries) left := by
  refine State.ext rfl rfl ?_ rfl (List.append_assoc _ _ _)
  funext a
  show (if a = sender then left else _) = if a = sender then left else _
  split
  next => rfl
  next h =>
    rw [sentTo_cons, ← Nat.add_assoc]
    congr 1
    show (State.withBalance _ dest _).balanceOf a = _
    by_cases hd : dest = a
    · subst hd
      rw [withBalance_self, withBalance_other _ _ h, if_pos rfl]
    · rw [withBalance_other _ _ (Ne.symm hd), withBalance_other _ _ h, if_neg hd]
      rfl

theorem moved_sender (hheld : amount ≤ s.balanceOf sender) :
    (s.moved sender dest amount).balanceOf sender =
      s.balanceOf sender - amount + if dest = sender then amount else 0 := by
  show (State.withBalance _ dest _).balanceOf sender = _
  by_cases hd : dest = sender
  · subst hd
    rw [withBalance_self, withBalance_self, if_pos rfl]
  · rw [withBalance_other _ _ (Ne.symm hd), withBalance_self, if_neg hd]
    rfl

theorem transferEach_cons_ok (h : Sane s) (hvalue : m.value = 0) (hdest : dest ≠ .zero)
    (hheld : amount ≤ s.balanceOf m.sender) :
    transferEach m ((dest, amount) :: entries) s =
      transferEach m entries (s.moved m.sender dest amount) := by
  have hcall : system (m, .transfer dest amount) s = .ok ((), s.moved m.sender dest amount) :=
    (system_ok h).mpr ⟨hvalue, .transfer hdest hheld⟩
  rw [transferEach, hcall]

/-- Transfers of no more than what is held at the start all go through. -/
theorem transferEach_of_held (h : Sane s) (hvalue : m.value = 0)
    (hdest : ∀ e ∈ entries, e.1 ≠ .zero) (hheld : spent entries ≤ s.balanceOf m.sender) :
    transferEach m entries s = some (s.settled m.sender entries
      (s.balanceOf m.sender - spent entries + sentTo m.sender entries)) := by
  induction entries generalizing s with
  | nil =>
    refine congrArg some (State.ext rfl rfl ?_ rfl (List.append_nil s.events).symm)
    funext a
    show _ = if a = m.sender then _ else _
    split
    next ha => rw [ha]; rfl
    next => rfl
  | cons e rest ih =>
    obtain ⟨dest, amount⟩ := e
    obtain ⟨hfirst, hothers⟩ := List.forall_mem_cons.mp hdest
    rw [spent_cons] at hheld
    have hamount : amount ≤ s.balanceOf m.sender := by omega
    have hmoved : (s.moved m.sender dest amount).balanceOf m.sender = _ := moved_sender hamount
    have hsane : Sane (s.moved m.sender dest amount) :=
      (Does.transfer (m := m) hfirst hamount).sane h
    rw [transferEach_cons_ok h hvalue hfirst hamount, ih hsane hothers (by omega),
      settled_moved, hmoved, sentTo_cons, spent_cons]
    congr 2
    show _ = s.balanceOf m.sender - (amount + spent rest) +
      ((if dest = m.sender then amount else 0) + sentTo m.sender rest)
    omega

/-- Transfers to others that all go through were held at the start. -/
theorem held_of_transferEach (h : Sane s) (hself : sentTo m.sender entries = 0)
    (heach : transferEach m entries s = some t) :
    (∀ e ∈ entries, e.1 ≠ .zero) ∧ spent entries ≤ s.balanceOf m.sender := by
  induction entries generalizing s with
  | nil => exact ⟨List.forall_mem_nil _, Nat.zero_le _⟩
  | cons e rest ih =>
    obtain ⟨dest, amount⟩ := e
    rw [sentTo_cons] at hself
    have hrest : sentTo m.sender rest = 0 := by omega
    rw [transferEach] at heach
    cases hcall : system (m, .transfer dest amount) s with
    | error r => rw [hcall] at heach; contradiction
    | ok r =>
      obtain ⟨u, next⟩ := r
      rw [hcall] at heach
      obtain ⟨-, hdoes⟩ := (system_ok h).mp hcall
      cases hdoes with
      | transfer hdest held =>
        have hmoved : (s.moved m.sender dest amount).balanceOf m.sender = _ := moved_sender held
        obtain ⟨hall, hspent⟩ := ih ((Does.transfer hdest held).sane h) hrest heach
        rw [spent_cons]
        refine ⟨List.forall_mem_cons.mpr ⟨hdest, hall⟩, ?_⟩
        show amount + spent rest ≤ _
        have hzero : (if dest = m.sender then amount else 0) = 0 :=
          Nat.eq_zero_of_add_eq_zero_right hself
        omega

/-- When a batch returns, and with what. -/
theorem batch_returns {tos : List Address} {amounts : List Nat} (h : Sane s) (s' : State)
    (hvalue : m.value = 0) (hlength : tos.length = amounts.length) (hlong : tos.length < 2 ^ 64) :
    system (m, .batchTransfer tos amounts) s = .ok ((), s') ↔
      (∀ e ∈ tos.zip amounts, e.1 ≠ .zero) ∧ spent (tos.zip amounts) ≤ s.balanceOf m.sender ∧
        s' = s.batched m.sender (tos.zip amounts) := by
  rw [system_ok h]
  constructor
  · rintro ⟨-, hdoes⟩
    cases hdoes with
    | batchTransfer length encoded hdest held => exact ⟨hdest, held, rfl⟩
  · rintro ⟨hdest, hheld, rfl⟩
    exact ⟨hvalue, .batchTransfer hlength hlong hdest hheld⟩

/-- What a call of the spender takes from the owner. -/
def takenBy (owner spender : Address) (c : Message × Function) : Nat :=
  match c.2 with
  | .transferFrom source _ amount => if source = owner ∧ c.1.sender = spender then amount else 0
  | _ => 0

/-- What a call of the owner allows the spender. -/
def grantedBy (owner spender : Address) (c : Message × Function) : Nat :=
  match c.2 with
  | .approve p amount => if c.1.sender = owner ∧ p = spender then amount else 0
  | _ => 0

def taken (owner spender : Address) : State → Message × Function → Int :=
  onReturn (takenBy owner spender)

def granted (owner spender : Address) : State → Message × Function → Int :=
  onReturn (grantedBy owner spender)

/-- The call allows the spender so much that no transfer uses it up. -/
def GrantsAll (owner spender : Address) (c : Message × Function) : Prop :=
  c.1.sender = owner ∧ ∃ amount, c.2 = .approve spender amount ∧ unlimited ≤ amount

theorem withAllowance_apply (s : State) (o p owner spender : Address) (k : Nat) :
    (s.withAllowance o p k).allowance owner spender =
      if owner = o ∧ spender = p then k else s.allowance owner spender := by
  show Function.update s.allowance o (Function.update (s.allowance o) p k) owner spender = _
  split
  next h => rw [h.1, h.2, update_update_self]
  next h => exact update_update_other (not_and_or.mp h)

theorem used_apply (s : State) (o p owner spender : Address) (k : Nat) :
    (s.used o p k).allowance owner spender =
      if s.allowance o p ≠ unlimited ∧ owner = o ∧ spender = p then s.allowance o p - k
      else s.allowance owner spender := by
  rw [State.used]
  by_cases h : s.allowance o p = unlimited
  · rw [if_pos h, if_neg fun hc => hc.1 h]
  · rw [if_neg h, withAllowance_apply]
    simp [h]

theorem Does.allowance (hdoes : Does m s f s') (hc : ¬ GrantsAll owner spender (m, f))
    (hle : s.allowance owner spender < unlimited) :
    s'.allowance owner spender < unlimited ∧
      takenBy owner spender (m, f) + s'.allowance owner spender ≤
        s.allowance owner spender + grantedBy owner spender (m, f) := by
  cases hdoes with
  | transfer hdest held => exact ⟨hle, (Nat.zero_add _).le⟩
  | @transferFrom source dest amount allowed hdest held =>
    show (s.used source m.sender amount).allowance owner spender < unlimited ∧
      (if source = owner ∧ m.sender = spender then amount else 0) +
        (s.used source m.sender amount).allowance owner spender ≤ _ + 0
    rw [used_apply]
    by_cases hown : source = owner ∧ m.sender = spender
    · obtain ⟨rfl, rfl⟩ := hown
      have hamount := allowed.resolve_left (Nat.ne_of_lt hle)
      simp only [Nat.ne_of_lt hle, ne_eq, not_false_eq_true, and_self, if_true]
      omega
    · rw [if_neg fun hc => hown ⟨hc.2.1.symm, hc.2.2.symm⟩, if_neg hown]
      exact ⟨hle, (Nat.zero_add _).le⟩
  | batchTransfer length encoded hdest held =>
    rw [State.batched, credited_eq]
    exact ⟨hle, (Nat.zero_add _).le⟩
  | @approve p amount =>
    show (s.withAllowance m.sender p amount).allowance owner spender < unlimited ∧
      0 + (s.withAllowance m.sender p amount).allowance owner spender ≤
        _ + if m.sender = owner ∧ p = spender then amount else 0
    rw [withAllowance_apply]
    by_cases hown : m.sender = owner ∧ p = spender
    · obtain ⟨rfl, rfl⟩ := hown
      have hamount : amount < unlimited := by
        by_contra hlarge
        exact hc ⟨rfl, amount, rfl, Nat.le_of_not_lt hlarge⟩
      simp only [and_self, if_true]
      omega
    · rw [if_neg fun hc => hown ⟨hc.1.symm, hc.2.symm⟩, if_neg hown]
      exact ⟨hle, (Nat.zero_add _).le⟩
  | mint hdest fits => exact ⟨hle, (Nat.zero_add _).le⟩
  | burn held => exact ⟨hle, (Nat.zero_add _).le⟩

theorem commit_allowance (h : Sane s) {c : Message × Function}
    (hc : ¬ GrantsAll owner spender c) (hle : s.allowance owner spender < unlimited) :
    (commit system s c).allowance owner spender < unlimited ∧
      taken owner spender s c + (commit system s c).allowance owner spender ≤
        s.allowance owner spender + granted owner spender s c := by
  cases hcall : system c s with
  | ok r =>
    obtain ⟨u, s'⟩ := r
    rw [commit_of_ok hcall, taken, granted, onReturn_ok hcall, onReturn_ok hcall]
    obtain ⟨hle', hsum⟩ := ((system_ok h).mp hcall).2.allowance hc hle
    exact ⟨hle', by exact_mod_cast hsum⟩
  | error r =>
    rw [commit_of_error hcall, taken, granted, onReturn_error hcall, onReturn_error hcall]
    exact ⟨hle, by omega⟩

/-- In every run in which the owner never allows the spender everything, what the spender has taken
and may still take is no more than the owner has allowed. -/
theorem taken_le_granted (timestamp digits : Nat) (cs : List (Message × Function))
    (owner spender : Address) (hcs : ∀ c ∈ cs, ¬ GrantsAll owner spender c) :
    total system (taken owner spender) (deployed timestamp digits) cs +
        ((run system (deployed timestamp digits) cs).allowance owner spender : Int) ≤
      total system (granted owner spender) (deployed timestamp digits) cs := by
  have hinv : (run system (deployed timestamp digits) cs).allowance owner spender < unlimited ∧
      total system (taken owner spender) (deployed timestamp digits) cs +
          ((run system (deployed timestamp digits) cs).allowance owner spender : Int) ≤
        total system (granted owner spender) (deployed timestamp digits) cs := by
    induction cs using List.reverseRecOn with
    | nil => exact ⟨show 0 < unlimited by decide, Int.le_refl 0⟩
    | append_singleton cs c ih =>
      obtain ⟨hle, hsum⟩ := ih fun d hd => hcs d (List.mem_append_left _ hd)
      have hc := hcs c (List.mem_append_right _ (List.mem_singleton_self c))
      obtain ⟨hle', hstep⟩ := commit_allowance (sane_run timestamp digits cs) hc hle
      rw [run_snoc, total_snoc, total_snoc]
      exact ⟨hle', by omega⟩
  exact hinv.2

/-- An owner allows five, and the spender takes three of it. -/
theorem taken_le_granted_three :
    let cs : List (Message × Function) := [(⟨⟨1⟩, 0, 0⟩, .mint ⟨1⟩ 10),
      (⟨⟨1⟩, 0, 0⟩, .approve ⟨2⟩ 5), (⟨⟨2⟩, 0, 0⟩, .transferFrom ⟨1⟩ ⟨3⟩ 3)]
    total system (taken ⟨1⟩ ⟨2⟩) (deployed 0 18) cs +
        ((run system (deployed 0 18) cs).allowance ⟨1⟩ ⟨2⟩ : Int) ≤
      total system (granted ⟨1⟩ ⟨2⟩) (deployed 0 18) cs := by
  refine taken_le_granted 0 18 _ ⟨1⟩ ⟨2⟩ ?_
  rintro c hc ⟨-, amount, hamount, hlarge⟩
  simp only [List.mem_cons, List.not_mem_nil, or_false] at hc
  obtain rfl | rfl | rfl := hc
  · cases hamount
  · cases hamount
    exact absurd hlarge (by decide)
  · cases hamount

end EvmErc20Gas
