import AgenticPay.RevenuePool

/-!
# Recipients and shares of a revenue pool

The list of recipients beside `TotalShares`, and what is accumulated beside the
balance. `distribute` shares out the whole balance, whether or not it has been
credited before; `remove_recipient` takes a recipient of ratio zero for absent.
-/
namespace RevenuePool

open Soroban Contract Transaction KeyedMap Apportion

variable {decrease : Decrease} {env : Env} {w w' : World} {i : Submission Call}
  {l : List Recipient} {r : Recipient}

/-! ## The list of recipients -/

def ratios (l : List Recipient) : List Nat := l.map (·.ratioBps)

/-- `l` are the recipients, each wallet once, and the total of their ratios is stored. -/
structure Listed (w : World) (l : List Recipient) : Prop where
  stored : w.storage.recipients = some l
  distinct : (l.map (·.wallet)).Nodup
  shares : w.storage.totalShares = some (ratios l).sum
  whole : (ratios l).sum ≤ 10000

/-- The other entries of a list with distinct wallets have other wallets. -/
theorem split_distinct {pre post : List Recipient}
    (h : ((pre ++ r :: post).map (·.wallet)).Nodup) :
    (∀ s ∈ pre, s.wallet ≠ r.wallet) ∧ ∀ s ∈ post, s.wallet ≠ r.wallet := by
  rw [List.map_append, List.map_cons, List.nodup_append, List.nodup_cons] at h
  obtain ⟨_, ⟨hpost, _⟩, hpre⟩ := h
  constructor
  · intro s hs
    exact hpre _ (List.mem_map_of_mem hs) _ List.mem_cons_self
  · intro s hs he
    exact hpost (he ▸ List.mem_map_of_mem hs)

/-- The loop of `remove_recipient` passes over other wallets. -/
theorem removeLoop_append {wallet : Address} {pre : List Recipient}
    (h : ∀ s ∈ pre, s.wallet ≠ wallet) (rest : List Recipient) (ratio : Nat)
    (kept : List Recipient) :
    removeLoop wallet (pre ++ rest) ratio kept = removeLoop wallet rest ratio (kept ++ pre) := by
  induction pre generalizing kept with
  | nil => simp
  | cons s pre ih =>
    rw [List.cons_append, removeLoop, if_neg (h s List.mem_cons_self),
      ih fun t ht => h t (List.mem_cons_of_mem s ht), List.append_assoc, List.singleton_append]

theorem removeLoop_absent {wallet : Address} (h : ∀ r ∈ l, r.wallet ≠ wallet) (ratio : Nat)
    (kept : List Recipient) : removeLoop wallet l ratio kept = (ratio, kept ++ l) := by
  have hall := removeLoop_append h [] ratio kept
  rwa [List.append_nil] at hall

/-- It takes out the one entry of the wallet, and finds its ratio. -/
theorem removeLoop_split {pre post : List Recipient}
    (h : ((pre ++ r :: post).map (·.wallet)).Nodup) (ratio : Nat) (kept : List Recipient) :
    removeLoop r.wallet (pre ++ r :: post) ratio kept = (r.ratioBps, kept ++ (pre ++ post)) := by
  obtain ⟨hpre, hpost⟩ := split_distinct h
  rw [removeLoop_append hpre, removeLoop, if_pos rfl, removeLoop_absent hpost, List.append_assoc]

/-- The loop of `update_ratio` passes over other wallets. -/
theorem updateLoop_append {wallet : Address} {newRatio : Nat} {pre : List Recipient}
    (h : ∀ s ∈ pre, s.wallet ≠ wallet) (rest : List Recipient) (old : Nat) (found : Bool)
    (kept : List Recipient) :
    updateLoop wallet newRatio (pre ++ rest) old found kept =
      updateLoop wallet newRatio rest old found (kept ++ pre) := by
  induction pre generalizing kept with
  | nil => simp
  | cons s pre ih =>
    rw [List.cons_append, updateLoop, if_neg (h s List.mem_cons_self),
      ih fun t ht => h t (List.mem_cons_of_mem s ht), List.append_assoc, List.singleton_append]

theorem updateLoop_absent {wallet : Address} {newRatio : Nat} (h : ∀ r ∈ l, r.wallet ≠ wallet)
    (old : Nat) (found : Bool) (kept : List Recipient) :
    updateLoop wallet newRatio l old found kept = (old, found, kept ++ l) := by
  have hall : updateLoop wallet newRatio (l ++ []) old found kept = _ :=
    updateLoop_append h [] old found kept
  rwa [List.append_nil] at hall

/-- It changes the ratio of the one entry of the wallet. -/
theorem updateLoop_split {pre post : List Recipient} {newRatio : Nat}
    (h : ((pre ++ r :: post).map (·.wallet)).Nodup) (old : Nat) (found : Bool)
    (kept : List Recipient) :
    updateLoop r.wallet newRatio (pre ++ r :: post) old found kept =
      (r.ratioBps, true, kept ++ (pre ++ { r with ratioBps := newRatio } :: post)) := by
  obtain ⟨hpre, hpost⟩ := split_distinct h
  rw [updateLoop_append hpre, updateLoop, if_pos rfl, updateLoop_absent hpost]
  simp

/-- A wallet is absent from the list, or splits it at its entry. -/
theorem split_of_wallet (l : List Recipient) (wallet : Address) :
    (∀ r ∈ l, r.wallet ≠ wallet) ∨ ∃ pre r post, l = pre ++ r :: post ∧ r.wallet = wallet := by
  by_cases h : ∃ r ∈ l, r.wallet = wallet
  · obtain ⟨r, hr, hwallet⟩ := h
    obtain ⟨pre, post, rfl⟩ := List.append_of_mem hr
    exact .inr ⟨pre, r, post, rfl, hwallet⟩
  · exact .inl fun r hr hwallet => h ⟨r, hr, hwallet⟩

/-- What an accepted call does to the list. -/
inductive Relists (env : Env) (w : World) : Call → List Recipient → List Recipient → Prop
  | kept {call l} : Relists env w call l l
  | added {wallet ratioBps l} (owned : Owned env w) (fresh : ∀ r ∈ l, r.wallet ≠ wallet) :
      Relists env w (.addRecipient wallet ratioBps) l (l ++ [Recipient.mk wallet ratioBps])
  | removed {pre r post} (owned : Owned env w) :
      Relists env w (.removeRecipient r.wallet) (pre ++ r :: post) (pre ++ post)
  | updated {pre r post newRatioBps} (owned : Owned env w) :
      Relists env w (.updateRatio r.wallet newRatioBps) (pre ++ r :: post)
        (pre ++ { r with ratioBps := newRatioBps } :: post)

theorem Step.relists {call : Call} (h : Step decrease env w call w') (hl : Listed w l) :
    ∃ l', Relists env w call l l' ∧ Listed w' l' := by
  cases h with
  | @recipientAdded wallet ratioBps l₁ total owned listed shares whole fresh =>
    obtain rfl : l₁ = l := Option.some.inj (listed.symm.trans hl.stored)
    obtain rfl : total = (ratios l₁).sum := Option.some.inj (shares.symm.trans hl.shares)
    refine ⟨_, .added owned fresh, rfl, ?_, ?_, ?_⟩
    · rw [List.map_append, List.nodup_append]
      refine ⟨hl.distinct, by simp, ?_⟩
      intro a ha b hb
      obtain ⟨r, hr, rfl⟩ := List.mem_map.mp ha
      obtain rfl : b = wallet := by simpa using hb
      exact fresh r hr
    · simp [ratios]
    · simpa [ratios] using whole
  | @recipientRemoved wallet l₁ total removed s owned listed shares loop found covered paid =>
    obtain rfl : l₁ = l := Option.some.inj (listed.symm.trans hl.stored)
    obtain rfl : total = (ratios l₁).sum := Option.some.inj (shares.symm.trans hl.shares)
    rcases split_of_wallet l₁ wallet with habsent | ⟨pre, r, post, rfl, rfl⟩
    · rw [removeLoop_absent habsent] at loop
      exact absurd (by rw [← loop]) found
    · rw [removeLoop_split hl.distinct] at loop
      subst loop
      refine ⟨_, .removed owned, rfl, ?_, ?_, ?_⟩
      · exact hl.distinct.sublist (by simp)
      · simp [ratios]
        omega
      · have hwhole := hl.whole
        simp [ratios] at hwhole ⊢
        omega
  | @ratioUpdated wallet newRatioBps l₁ total updated owned listed shares loop found covered
      whole =>
    obtain rfl : l₁ = l := Option.some.inj (listed.symm.trans hl.stored)
    obtain rfl : total = (ratios l₁).sum := Option.some.inj (shares.symm.trans hl.shares)
    rcases split_of_wallet l₁ wallet with habsent | ⟨pre, r, post, rfl, rfl⟩
    · rw [updateLoop_absent habsent] at loop
      subst loop
      contradiction
    · rw [updateLoop_split hl.distinct] at loop
      subst loop
      refine ⟨_, .updated owned, rfl, ?_, ?_, ?_⟩
      · simpa using hl.distinct
      · simp [ratios]
        omega
      · simp [ratios] at whole ⊢
        omega
  | _ => exact ⟨l, .kept, hl.stored, hl.distinct, hl.shares, hl.whole⟩

theorem commit_relists (decrease : Decrease) (hl : Listed w l) (i : Submission Call) :
    ∃ l', Relists i.env w i.call l l' ∧ Listed (commit (contract decrease) w i) l' := by
  rcases commit_step decrease w i with hstep | hsame
  · exact hstep.relists hl
  · rw [hsame]
    exact ⟨l, .kept, hl⟩

/-! ## Credits and the balance -/

/-- The sum of `Accumulated` over all addresses. -/
def unclaimed (w : World) : Int := total w.storage.accumulated

/-- What a distribution of `amount` does not credit: the shares below `MinDist`, and what
rounding leaves. -/
def leftOver (amount minDist : Int) (l : List Recipient) : Int :=
  withheld minDist (shares amount (ratios l)) + dust amount (ratios l)

/-- No credit is negative, and no more is credited than there is. -/
structure Covered (w : World) : Prop where
  nonneg : ∀ a v, w.storage.accumulated.lookup a = some v → 0 ≤ v
  covered : unclaimed w ≤ w.storage.balance

theorem Covered.accumulatedOf_nonneg (h : Covered w) (a : Address) :
    0 ≤ w.storage.accumulatedOf a :=
  getD_nonneg h.nonneg a

theorem Covered.balance_nonneg (h : Covered w) : 0 ≤ w.storage.balance :=
  (total_nonneg h.nonneg).trans h.covered

theorem Covered.accumulatedOf_le (h : Covered w) (a : Address) :
    w.storage.accumulatedOf a ≤ w.storage.balance :=
  (getD_le_total h.nonneg a).trans h.covered

/-- Both halves after an entry is set. -/
theorem Covered.insert (h : Covered w) (a : Address) {v b : Int} (hv : 0 ≤ v)
    (hb : unclaimed w - w.storage.accumulatedOf a + v ≤ b) {w' : World}
    (hacc : w'.storage.accumulated = w.storage.accumulated.insert a v)
    (hbal : w'.storage.balance = b) : Covered w' := by
  constructor
  · rw [hacc]
    exact insert_nonneg h.nonneg hv
  · rw [unclaimed, hacc, hbal, total_insert]
    exact hb

theorem total_creditAll (cs : List (Address × Int)) (m : Map Address Int) :
    total (creditAll cs m) = total m + (cs.map (·.2)).sum := by
  induction cs generalizing m with
  | nil => simp [creditAll]
  | cons c rest ih =>
    rw [creditAll, ih, total_insert, List.map_cons, List.sum_cons]
    omega

theorem creditAll_nonneg {cs : List (Address × Int)} (hcs : ∀ c ∈ cs, 0 ≤ c.2)
    {m : Map Address Int} (hm : ∀ a v, m.lookup a = some v → 0 ≤ v) :
    ∀ a v, (creditAll cs m).lookup a = some v → 0 ≤ v := by
  induction cs generalizing m with
  | nil => exact hm
  | cons c rest ih =>
    have hsum : 0 ≤ (m.lookup c.1).getD 0 + c.2 :=
      Int.add_nonneg (getD_nonneg hm c.1) (hcs c List.mem_cons_self)
    exact ih (fun d hd => hcs d (List.mem_cons_of_mem c hd)) (insert_nonneg hm hsum)

/-- A distribution credits the amount but for what is left over. -/
theorem sum_credits (amount minDist : Int) (h : (ratios l).sum ≠ 0) :
    ((credits amount (ratios l).sum minDist l).map (·.2)).sum =
      amount - leftOver amount minDist l := by
  have hpaid : ((credits amount (ratios l).sum minDist l).map (·.2)).sum =
      paid minDist (shares amount (ratios l)) := by
    simp [credits, paid, shares, ratios, List.filter_map, Function.comp_def]
  have hall := apportioned amount minDist h
  rw [hpaid, leftOver]
  omega

/-- What is relied on of the token: it lowers the balance by the amount, and it does so
whenever the balance holds it. -/
structure PaysOut (decrease : Decrease) : Prop where
  lowers : ∀ b x b', decrease b x = .ok b' → b' = b - x
  pays : ∀ b x, 0 ≤ x → x ≤ b → ∃ b', decrease b x = .ok b'

/-- A `distribute` that gets through although more is unclaimed than it leaves over. -/
def Overdraws (w : World) (i : Submission Call) : Prop :=
  i.call = .distribute ∧ ∃ l, w.storage.recipients = some l ∧ (ratios l).sum ≠ 0 ∧
    w.storage.balance ≠ 0 ∧
    Fits w.storage.balance (ratios l).sum (w.storage.minDist.getD 0) l w.storage.accumulated ∧
    leftOver w.storage.balance (w.storage.minDist.getD 0) l < unclaimed w

/-- With nothing unclaimed, no distribution overdraws. -/
theorem Covered.not_overdraws (h : Covered w) (hnone : unclaimed w = 0) : ¬ Overdraws w i := by
  rintro ⟨-, l, -, -, -, -, hover⟩
  have hwithheld : 0 ≤ withheld (w.storage.minDist.getD 0)
      (shares w.storage.balance (ratios l)) :=
    withheld_nonneg (shares_nonneg h.balance_nonneg)
  have hdust : 0 ≤ dust w.storage.balance (ratios l) := dust_nonneg h.balance_nonneg
  rw [leftOver] at hover
  omega

theorem Step.covered (h : Step decrease i.env w i.call w') (hpays : PaysOut decrease)
    (hl : Listed w l) (hc : Covered w) (hdraw : ¬ Overdraws w i) : Covered w' := by
  unfold Overdraws at hdraw
  generalize i.call = call at h hdraw
  have hpos := hc.accumulatedOf_nonneg
  have hcov := hc.covered
  cases h with
  | @recipientAdded wallet _ _ _ owned listed shares whole fresh =>
    have hwallet := hpos wallet
    exact hc.insert wallet (b := w.storage.balance) le_rfl (by omega) rfl rfl
  | @recipientRemoved wallet _ _ _ s owned listed shares loop found covered paid =>
    rcases paid with ⟨_, rfl⟩ | ⟨_, balance, hdec, rfl⟩
    · exact ⟨hc.nonneg, hc.covered⟩
    · have hlow := hpays.lowers _ _ _ hdec
      exact hc.insert wallet (b := balance) le_rfl (by omega) rfl rfl
  | @distributed l₁ total funded listed shares live fits =>
    obtain rfl : l₁ = l := Option.some.inj (listed.symm.trans hl.stored)
    obtain rfl : total = (ratios l₁).sum := Option.some.inj (shares.symm.trans hl.shares)
    have hkept : unclaimed w ≤ leftOver w.storage.balance (w.storage.minDist.getD 0) l₁ :=
      Int.not_lt.mp fun hlt => hdraw ⟨rfl, l₁, listed, live, funded, fits, hlt⟩
    have hsum := sum_credits w.storage.balance (w.storage.minDist.getD 0) live
    constructor
    · refine creditAll_nonneg (fun c hmem => ?_) hc.nonneg
      obtain ⟨r, hr, rfl⟩ := List.mem_map.mp (List.mem_of_mem_filter hmem)
      exact Int.tdiv_nonneg (Int.mul_nonneg hc.balance_nonneg (Int.natCast_nonneg _))
        (Int.natCast_nonneg _)
    · simp only [unclaimed] at hkept ⊢
      rw [total_creditAll, hsum]
      omega
  | @claimed caller balance enough paid =>
    have hlow := hpays.lowers _ _ _ paid
    exact hc.insert caller (b := balance) le_rfl (by omega) rfl rfl
  | deposited _ =>
    refine ⟨hc.nonneg, hc.covered.trans ?_⟩
    simp
  | _ => exact ⟨hc.nonneg, hc.covered⟩

/-- A distribution that overdraws credits more than there is. -/
theorem unclaimed_of_overdraws (decrease : Decrease) (hl : Listed w l) (h : Overdraws w i) :
    (commit (contract decrease) w i).storage.balance <
      unclaimed (commit (contract decrease) w i) := by
  obtain ⟨hcall, l₁, hlisted, hlive, hfunded, hfits, hover⟩ := h
  obtain rfl : l₁ = l := Option.some.inj (hlisted.symm.trans hl.stored)
  have hret : distribute i.env w = .ok ((), _) :=
    (distribute_ok (u := ())).mpr
      (.inr ⟨hfunded, l₁, hlisted, _, hl.shares, .inr ⟨hlive, hfits, rfl⟩⟩)
  rw [contract, commit_returning (by rw [hcall]; rfl) hret]
  simp only [unclaimed] at hover ⊢
  rw [total_creditAll, sum_credits w.storage.balance (w.storage.minDist.getD 0) hlive]
  omega

/-- The recipients and the credits of a pool are in order. -/
def Sound (w : World) : Prop := (∃ l, Listed w l) ∧ Covered w

theorem Sound.commit (hpays : PaysOut decrease) (hs : Sound w) (hdraw : ¬ Overdraws w i) :
    Sound (commit (contract decrease) w i) := by
  obtain ⟨⟨l, hl⟩, hc⟩ := hs
  obtain ⟨l', _, hl'⟩ := commit_relists decrease hl i
  refine ⟨⟨l', hl'⟩, ?_⟩
  rcases commit_step decrease w i with hstep | hsame
  · exact hstep.covered hpays hl hc hdraw
  · rwa [hsame]

/-- The state the constructor leaves of a contract just created. -/
def Deployed (w : World) : Prop := ∃ admin env, construct admin env undeployed = .ok ((), w)

theorem Deployed.listed (h : Deployed w) : Listed w [] := by
  obtain ⟨admin, env, h⟩ := h
  simp [construct] at h
  subst h
  exact ⟨rfl, List.nodup_nil, rfl, Nat.zero_le _⟩

theorem Deployed.covered (h : Deployed w) : Covered w := by
  obtain ⟨admin, env, h⟩ := h
  simp [construct] at h
  subst h
  exact ⟨fun _ _ hv => by contradiction, le_rfl⟩

theorem listed_run (decrease : Decrease) (h : Deployed w) (cs : List (Submission Call)) :
    ∃ l, Listed (run (contract decrease) w cs) l := by
  refine run_preserves (I := fun v => ∃ l, Listed v l) ?_ ⟨[], h.listed⟩ cs
  rintro v i ⟨l, hl⟩
  obtain ⟨l', _, hl'⟩ := commit_relists decrease hl i
  exact ⟨l', hl'⟩

theorem sound_run (hpays : PaysOut decrease) (h : Deployed w) {cs : List (Submission Call)}
    (hdraws : Along (contract decrease) (fun v i => ¬ Overdraws v i) w cs) :
    Sound (run (contract decrease) w cs) :=
  run_invariant (fun _ _ hv hi => hv.commit hpays hi) ⟨⟨[], h.listed⟩, h.covered⟩ hdraws

/-- Every credit of a sound pool that reaches the threshold is paid to its claimant. -/
theorem Sound.claim_returns (hpays : PaysOut decrease) (hs : Sound w) {caller : Address}
    (henough : w.storage.minDist.getD 0 ≤ w.storage.accumulatedOf caller) (env : Env) :
    ∃ v, claim decrease caller env w = .ok ((), v) ∧
      v.storage.balance = w.storage.balance - w.storage.accumulatedOf caller := by
  obtain ⟨b, hb⟩ := hpays.pays _ _ (hs.2.accumulatedOf_nonneg caller) (hs.2.accumulatedOf_le caller)
  exact ⟨_, claim_ok.mpr ⟨henough, b, hb, rfl⟩, hpays.lowers _ _ _ hb⟩

/-- What is unclaimed stays covered by the balance in every state of a run exactly when no
distribution of it overdraws, and then every claim above the threshold is paid. -/
theorem unclaimed_covered_iff (hpays : PaysOut decrease) (hnew : Deployed w)
    (cs : List (Submission Call)) :
    (Along (contract decrease) (fun v i => ¬ Overdraws v i) w cs ↔
      ∀ mid, mid <+: cs → unclaimed (run (contract decrease) w mid) ≤
        (run (contract decrease) w mid).storage.balance) ∧
    (Along (contract decrease) (fun v i => ¬ Overdraws v i) w cs →
      ∀ mid, mid <+: cs → ∀ v, run (contract decrease) w mid = v → ∀ env caller,
        v.storage.accumulatedOf caller ≤ v.storage.balance ∧
        (v.storage.minDist.getD 0 ≤ v.storage.accumulatedOf caller →
          ∃ v', claim decrease caller env v = .ok ((), v') ∧
            v'.storage.balance = v.storage.balance - v.storage.accumulatedOf caller)) := by
  refine ⟨⟨fun hdraws mid hmid => ?_, fun hall => ?_⟩, fun hdraws mid hmid v hv env caller => ?_⟩
  · exact (sound_run hpays hnew (hdraws.initial hmid)).2.covered
  · rw [along_iff_initial]
    intro mid i hmid hover
    obtain ⟨l, hl⟩ := listed_run decrease hnew mid
    have hlt := unclaimed_of_overdraws decrease hl hover
    rw [← run_snoc] at hlt
    have hle := hall _ hmid
    omega
  · subst hv
    have hs := sound_run hpays hnew (hdraws.initial hmid)
    exact ⟨hs.2.accumulatedOf_le caller, fun henough => hs.claim_returns hpays henough env⟩

/-- A token that refuses to pay out more than it holds. -/
def payHeld : Decrease := fun balance x =>
  if 0 ≤ x ∧ x ≤ balance then .ok (balance - x) else .error (.contractError 10)

theorem payHeld_paysOut : PaysOut payHeld := by
  constructor
  · intro b x b' h
    unfold payHeld at h
    split at h
    · exact (Except.ok.inj h).symm
    · contradiction
  · intro b x hx hb
    exact ⟨b - x, if_pos ⟨hx, hb⟩⟩

/-- The pool of the admin `⟨1⟩` after its constructor. -/
def newPool : World where
  storage :=
    { admin := some ⟨1⟩, recipients := some [], totalShares := some 0, minDist := some 0,
      accumulated := ∅, balance := 0 }
  events := []

theorem deployed_newPool : Deployed newPool := ⟨⟨1⟩, { timestamp := 0, auths := [] }, rfl⟩

/-- The recipients `⟨2⟩` and `⟨3⟩`, a deposit, and its distribution. -/
def distributedOnce : List (Submission Call) :=
  [signedBy [⟨1⟩] 1 (.addRecipient ⟨2⟩ 3000), signedBy [⟨1⟩] 2 (.addRecipient ⟨3⟩ 6000),
    signedBy [] 3 (.deposit 100), signedBy [] 4 .distribute]

theorem unclaimed_covered_iff_distributedOnce :
    (Along (contract payHeld) (fun v i => ¬ Overdraws v i) newPool distributedOnce ↔
      ∀ mid, mid <+: distributedOnce → unclaimed (run (contract payHeld) newPool mid) ≤
        (run (contract payHeld) newPool mid).storage.balance) ∧
    (Along (contract payHeld) (fun v i => ¬ Overdraws v i) newPool distributedOnce →
      ∀ mid, mid <+: distributedOnce → ∀ v, run (contract payHeld) newPool mid = v →
        ∀ env caller, v.storage.accumulatedOf caller ≤ v.storage.balance ∧
        (v.storage.minDist.getD 0 ≤ v.storage.accumulatedOf caller →
          ∃ v', claim payHeld caller env v = .ok ((), v') ∧
            v'.storage.balance = v.storage.balance - v.storage.accumulatedOf caller)) :=
  unclaimed_covered_iff payHeld_paysOut deployed_newPool distributedOnce

/-- A second distribution credits the same balance once more. -/
theorem second_distribution_overdraws :
    PaysOut payHeld ∧ Deployed newPool ∧
    unclaimed (run (contract payHeld) newPool distributedOnce) = 99 ∧
    unclaimed (run (contract payHeld) newPool (distributedOnce ++ [signedBy [] 5 .distribute])) =
      198 ∧
    (run (contract payHeld) newPool
      (distributedOnce ++ [signedBy [] 5 .distribute])).storage.balance = 100 :=
  ⟨payHeld_paysOut, deployed_newPool, rfl, rfl, rfl⟩

/-! ## Removing a recipient -/

/-- The removal of `r` returns, and takes exactly its entry off the list. -/
def Removes (decrease : Decrease) (env : Env) (w : World) (l : List Recipient) (r : Recipient) :
    Prop :=
  ∃ v, removeRecipient decrease r.wallet env w = .ok ((), v) ∧
    v.storage.recipients = some (l.erase r)

/-- The token can pay out what the wallet has accumulated, if that is anything. -/
def Payable (decrease : Decrease) (w : World) (wallet : Address) : Prop :=
  w.storage.accumulatedOf wallet ≤ 0 ∨
    ∃ b, decrease w.storage.balance (w.storage.accumulatedOf wallet) = .ok b

/-- The admin lists a new recipient with ratio zero, or sets a listed one to it. -/
def ListsZero (w : World) (i : Submission Call) : Prop :=
  Owned i.env w ∧ ∃ l wallet, w.storage.recipients = some l ∧
    (i.call = .addRecipient wallet 0 ∧ (∀ r ∈ l, r.wallet ≠ wallet) ∨
      i.call = .updateRatio wallet 0 ∧ ∃ r ∈ l, r.wallet = wallet)

theorem Listed.erase_split {pre post : List Recipient} (hl : Listed w (pre ++ r :: post)) :
    (pre ++ r :: post).erase r = pre ++ post := by
  have hnot : r ∉ pre := fun hr => (split_distinct hl.distinct).1 r hr rfl
  rw [List.erase_append_right _ hnot, List.erase_cons_head]

/-- The admin removes a listed recipient exactly if its ratio is not zero and its credit can
be paid out. -/
theorem removes_iff (hl : Listed w l) (hr : r ∈ l) (howned : Owned env w) :
    Removes decrease env w l r ↔ r.ratioBps ≠ 0 ∧ Payable decrease w r.wallet := by
  obtain ⟨pre, post, rfl⟩ := List.append_of_mem hr
  have hloop : removeLoop r.wallet (pre ++ r :: post) 0 [] = (r.ratioBps, pre ++ post) :=
    removeLoop_split hl.distinct 0 []
  rw [Removes, hl.erase_split]
  constructor
  · rintro ⟨v, hv, -⟩
    obtain ⟨_, l₁, hlisted, hfound, total, _, _, s, hpaid, _⟩ := removeRecipient_ok.mp hv
    obtain rfl : l₁ = pre ++ r :: post := Option.some.inj (hlisted.symm.trans hl.stored)
    rw [hloop] at hfound
    refine ⟨hfound, ?_⟩
    rcases hpaid with ⟨hnone, _⟩ | ⟨_, b, hb, _⟩
    · exact .inl hnone
    · exact .inr ⟨b, hb⟩
  · rintro ⟨hratio, hpayable⟩
    have hpaid : ∃ s, PaidOut decrease r.wallet w.storage s := by
      by_cases hpos : 0 < w.storage.accumulatedOf r.wallet
      · obtain hnone | ⟨b, hb⟩ := hpayable
        · omega
        · exact ⟨_, .inr ⟨hpos, b, hb, rfl⟩⟩
      · exact ⟨_, .inl ⟨by omega, rfl⟩⟩
    obtain ⟨s, hs⟩ := hpaid
    have hle : r.ratioBps ≤ (ratios (pre ++ r :: post)).sum := by
      simp [ratios]
      omega
    refine ⟨_, removeRecipient_ok.mpr
      ⟨howned, _, hl.stored, ?_, _, hl.shares, ?_, s, hs, rfl⟩, ?_⟩
    · rwa [hloop]
    · rwa [hloop]
    · rw [hloop]

/-- No call but those of `ListsZero` leaves a recipient with ratio zero. -/
theorem Relists.nonzero {l' : List Recipient} (h : Relists i.env w i.call l l')
    (hl : Listed w l) (hratios : ∀ r ∈ l, r.ratioBps ≠ 0) (hzero : ¬ ListsZero w i) :
    ∀ r ∈ l', r.ratioBps ≠ 0 := by
  unfold ListsZero at hzero
  generalize i.call = call at h hzero
  cases h with
  | kept => exact hratios
  | @added wallet ratioBps _ owned fresh =>
    intro s hs
    rcases List.mem_append.mp hs with hs | hs
    · exact hratios s hs
    · obtain rfl := List.mem_singleton.mp hs
      rintro rfl
      exact hzero ⟨owned, _, wallet, hl.stored, .inl ⟨rfl, fresh⟩⟩
  | removed owned =>
    intro s hs
    exact hratios s (by simp at hs ⊢; tauto)
  | @updated pre r post newRatioBps owned =>
    intro s hs
    rcases List.mem_append.mp hs with hs | hs
    · exact hratios s (List.mem_append_left _ hs)
    · rcases List.mem_cons.mp hs with rfl | hs
      · rintro rfl
        exact hzero ⟨owned, _, r.wallet, hl.stored, .inr ⟨rfl, r, by simp, rfl⟩⟩
      · exact hratios s (List.mem_append_right _ (List.mem_cons_of_mem r hs))

theorem nonzero_run (decrease : Decrease) (hnew : Deployed w) {cs : List (Submission Call)}
    (hzero : Along (contract decrease) (fun v i => ¬ ListsZero v i) w cs) :
    ∃ l, Listed (run (contract decrease) w cs) l ∧ ∀ r ∈ l, r.ratioBps ≠ 0 := by
  refine run_invariant (I := fun v => ∃ l, Listed v l ∧ ∀ r ∈ l, r.ratioBps ≠ 0) ?_
    ⟨[], hnew.listed, by simp⟩ hzero
  rintro v i ⟨l, hl, hratios⟩ hi
  obtain ⟨l', hrelists, hl'⟩ := commit_relists decrease hl i
  exact ⟨l', hl', hrelists.nonzero hl hratios hi⟩

theorem Step.admin_stays {call : Call} (h : Step decrease env w call w')
    (hadmin : w.storage.admin ≠ none) : w'.storage.admin ≠ none := by
  cases h with
  | recipientRemoved _ _ _ _ _ _ paid =>
    rcases paid with ⟨_, rfl⟩ | ⟨_, _, _, rfl⟩ <;> exact hadmin
  | ownershipTransferred _ => exact Option.some_ne_none _
  | _ => exact hadmin

theorem admin_run (decrease : Decrease) (hnew : Deployed w) (cs : List (Submission Call)) :
    (run (contract decrease) w cs).storage.admin ≠ none := by
  refine run_preserves (I := fun v : World => v.storage.admin ≠ none) (fun v i hv => ?_) ?_ cs
  · rcases commit_step decrease v i with hstep | hsame
    · exact hstep.admin_stays hv
    · rwa [hsame]
  · obtain ⟨admin, env, h⟩ := hnew
    simp [construct] at h
    subst h
    exact Option.some_ne_none admin

/-- In every reachable state the wallets are distinct and the total is right, and the admin
there is can remove a listed recipient exactly if its ratio is not zero and its credit can be
paid out; it can remove all of them as long as no call lists a ratio zero or overdraws. -/
theorem recipients_removable_iff (hnew : Deployed w) (cs : List (Submission Call)) :
    (run (contract decrease) w cs).storage.admin ≠ none ∧
    (∃ l, Listed (run (contract decrease) w cs) l ∧
      ∀ r ∈ l, ∀ env, Owned env (run (contract decrease) w cs) →
        (Removes decrease env (run (contract decrease) w cs) l r ↔
          r.ratioBps ≠ 0 ∧ Payable decrease (run (contract decrease) w cs) r.wallet)) ∧
    (PaysOut decrease → Along (contract decrease) (fun v i => ¬ Overdraws v i) w cs →
      Along (contract decrease) (fun v i => ¬ ListsZero v i) w cs →
      ∀ mid, mid <+: cs → ∃ l, Listed (run (contract decrease) w mid) l ∧
        ∀ r ∈ l, ∀ env, Owned env (run (contract decrease) w mid) →
          Removes decrease env (run (contract decrease) w mid) l r) := by
  refine ⟨admin_run decrease hnew cs, ?_, ?_⟩
  · obtain ⟨l, hl⟩ := listed_run decrease hnew cs
    exact ⟨l, hl, fun r hr env howned => removes_iff hl hr howned⟩
  · intro hpays hdraws hzero mid hmid
    obtain ⟨l, hl, hratios⟩ := nonzero_run decrease hnew (hzero.initial hmid)
    have hcov := (sound_run hpays hnew (hdraws.initial hmid)).2
    refine ⟨l, hl, fun r hr env howned => (removes_iff hl hr howned).mpr ⟨hratios r hr, .inr ?_⟩⟩
    exact hpays.pays _ _ (hcov.accumulatedOf_nonneg r.wallet) (hcov.accumulatedOf_le r.wallet)

theorem recipients_removable_iff_distributedOnce :
    (run (contract payHeld) newPool distributedOnce).storage.admin ≠ none ∧
    (∃ l, Listed (run (contract payHeld) newPool distributedOnce) l ∧
      ∀ r ∈ l, ∀ env, Owned env (run (contract payHeld) newPool distributedOnce) →
        (Removes payHeld env (run (contract payHeld) newPool distributedOnce) l r ↔
          r.ratioBps ≠ 0 ∧
            Payable payHeld (run (contract payHeld) newPool distributedOnce) r.wallet)) ∧
    (PaysOut payHeld →
      Along (contract payHeld) (fun v i => ¬ Overdraws v i) newPool distributedOnce →
      Along (contract payHeld) (fun v i => ¬ ListsZero v i) newPool distributedOnce →
      ∀ mid, mid <+: distributedOnce → ∃ l, Listed (run (contract payHeld) newPool mid) l ∧
        ∀ r ∈ l, ∀ env, Owned env (run (contract payHeld) newPool mid) →
          Removes payHeld env (run (contract payHeld) newPool mid) l r) :=
  recipients_removable_iff deployed_newPool distributedOnce

/-- The recipient `⟨2⟩` is listed with ratio zero, and the admin cannot remove it. -/
theorem listed_recipient_not_found :
    Deployed newPool ∧
    ∃ v, run (contract payHeld) newPool [signedBy [⟨1⟩] 1 (.addRecipient ⟨2⟩ 0)] = v ∧
      v.storage.recipients = some [{ wallet := ⟨2⟩, ratioBps := 0 }] ∧
      Owned { timestamp := 2, auths := [⟨1⟩] } v ∧
      removeRecipient payHeld ⟨2⟩ { timestamp := 2, auths := [⟨1⟩] } v =
        .error (.panic "recipient not found") :=
  ⟨deployed_newPool, _, rfl, rfl, ⟨⟨1⟩, rfl, by decide⟩, rfl⟩

end RevenuePool
