import AgenticPay.GsnRelay
import Mathlib.Tactic.Ring

/-!
# What is billed to a sponsorship budget

A nonce is relayed once, and a merchant pays for a wallet at most twice its daily limit within any
day. A budget is overdrawn by no more than one transaction, and one more for each top-up.
-/
namespace GsnRelay

open Records Transaction

variable (host : Host) (config : GasEstimationConfig)

/-! ## Runs of the relay -/

def Call.isRelay : Call → Bool
  | .relay .. => true
  | _ => false

/-- Whether a relay of a request goes through. -/
def goesThrough (req : MetaTransactionRequest) (id : String) (now billedAt : Int) (s : State) :
    Bool :=
  match relay host config req id now billedAt s with
  | .ok (.record r, _) => r.status = .confirmed
  | _ => false

/-- The relays that go through, among the ones that are asked for. -/
def confirmed (asked : MetaTransactionRequest → Int → Bool) (s : State) : Call → Int
  | .relay req id now billedAt =>
    if asked req billedAt && goesThrough host config req id now billedAt s then 1 else 0
  | _ => 0

def confirmedWithin (acts : List Call) (asked : MetaTransactionRequest → Int → Bool) : Int :=
  total (system host config) (confirmed host config asked) empty acts

variable {host config} {m : String} {s : State} {act : Call} {acts : List Call}
  {req : MetaTransactionRequest} {id : String} {now billedAt dearest slack : Int}
  {asked : MetaTransactionRequest → Int → Bool} {b : SponsorshipBudget}

theorem commit_relay (asked : MetaTransactionRequest → Int → Bool) (req : MetaTransactionRequest)
    (id : String) (now billedAt : Int) (s : State) :
    (shouldFallbackToUserGas req.merchantId s = false ∧
        Confirms host config req now billedAt s
          (commit (system host config) s (.relay req id now billedAt)) ∧
        confirmed host config asked s (.relay req id now billedAt) =
          if asked req billedAt then 1 else 0) ∨
      Declines host req now s (commit (system host config) s (.relay req id now billedAt)) ∧
        confirmed host config asked s (.relay req id now billedAt) = 0 := by
  cases h : relay host config req id now billedAt s with
  | error trap =>
    have hcommit : commit (system host config) s (.relay req id now billedAt) = s := by
      rw [commit, system, h]
    rw [hcommit]
    exact .inr ⟨⟨rfl, rfl, .inl rfl⟩, by simp [confirmed, goesThrough, h]⟩
  | ok r =>
    obtain ⟨response, s'⟩ := r
    have hcommit : commit (system host config) s (.relay req id now billedAt) = s' := by
      rw [commit, system, h]
    rw [hcommit]
    obtain ⟨hopen, hconfirms, r, rfl, hr⟩ | ⟨hdeclines, hr⟩ := relay_cases h
    · exact .inl ⟨hopen, hconfirms, by simp [confirmed, goesThrough, h, hr]⟩
    · refine .inr ⟨hdeclines, ?_⟩
      cases response with
      | record r => simp [confirmed, goesThrough, h, hr r rfl]
      | fieldsRequired => simp [confirmed, goesThrough, h]
      | userPaysGas => simp [confirmed, goesThrough, h]
      | budget => simp [confirmed, goesThrough, h]

theorem commit_topUpBudget (merchantId : String) (additionalWei : Int) (s : State) :
    commit (system host config) s (.topUpBudget merchantId additionalWei) = s ∨
      ∃ budget, s.budgets.get merchantId = some budget ∧
        commit (system host config) s (.topUpBudget merchantId additionalWei) =
          { s with budgets := s.budgets.set (budget.topUp additionalWei) } := by
  rw [commit, system, topUpBudget]
  cases s.budgets.get merchantId with
  | none => exact .inl rfl
  | some budget => exact .inr ⟨budget, rfl, rfl⟩

theorem commit_updateBudgetPolicy (merchantId : String) (updates : PolicyUpdates) (s : State) :
    commit (system host config) s (.updateBudgetPolicy merchantId updates) = s ∨
      ∃ budget, s.budgets.get merchantId = some budget ∧
        commit (system host config) s (.updateBudgetPolicy merchantId updates) =
          { s with budgets := s.budgets.set (budget.policy updates) } := by
  rw [commit, system, updateBudgetPolicy]
  cases s.budgets.get merchantId with
  | none => exact .inl rfl
  | some budget => exact .inr ⟨budget, rfl, rfl⟩

theorem Call.relay_or_other (act : Call) :
    (∃ req id now billedAt, act = .relay req id now billedAt) ∨ act.isRelay = false := by
  cases act with
  | relay req id now billedAt => exact .inl ⟨req, id, now, billedAt, rfl⟩
  | createBudget | topUpBudget | updateBudgetPolicy => exact .inr rfl

/-- Only a relay touches the nonces and the usage. -/
theorem commit_other (asked : MetaTransactionRequest → Int → Bool) (s : State)
    (h : act.isRelay = false) :
    (commit (system host config) s act).nonceStore = s.nonceStore ∧
      (commit (system host config) s act).walletDailyUsage = s.walletDailyUsage ∧
      confirmed host config asked s act = 0 := by
  cases act with
  | relay req id now billedAt => contradiction
  | createBudget merchantId depositWei gasCapPerTx rateLimitPerDay => exact ⟨rfl, rfl, rfl⟩
  | topUpBudget merchantId additionalWei =>
    obtain hsame | ⟨budget, -, hset⟩ :=
      commit_topUpBudget merchantId additionalWei s
    · rw [hsame]
      exact ⟨rfl, rfl, rfl⟩
    · rw [hset]
      exact ⟨rfl, rfl, rfl⟩
  | updateBudgetPolicy merchantId updates =>
    obtain hsame | ⟨budget, -, hset⟩ :=
      commit_updateBudgetPolicy merchantId updates s
    · rw [hsame]
      exact ⟨rfl, rfl, rfl⟩
    · rw [hset]
      exact ⟨rfl, rfl, rfl⟩

/-! ## Nonces -/

def withNonce (host : Host) (key : String × Int × String) (req : MetaTransactionRequest)
    (_ : Int) : Bool :=
  nonceKey host req.source req.chainId req.nonce = key

/-- In every run a nonce of a wallet on a chain is relayed once if it is used, and else not. -/
theorem relayed_once (acts : List Call) (key : String × Int × String) :
    confirmedWithin host config acts (withNonce host key) =
      if key ∈ (run (system host config) empty acts).nonceStore then 1 else 0 := by
  induction acts using List.reverseRecOn with
  | nil => rfl
  | append_singleton acts act ih =>
    rw [confirmedWithin, total_snoc, ← confirmedWithin, ih, run_snoc]
    generalize run (system host config) empty acts = s
    obtain ⟨req, id, now, billedAt, rfl⟩ | hother := act.relay_or_other
    · obtain ⟨-, hconfirms, hcount⟩ | ⟨hdeclines, hcount⟩ :=
        commit_relay (withNonce host key) req id now billedAt s
      · rw [hcount, hconfirms.nonces]
        by_cases hkey : nonceKey host req.source req.chainId req.nonce = key
        · have hfresh := hconfirms.fresh
          rw [hkey] at hfresh
          simp [withNonce, hkey, hfresh]
        · simp [withNonce, hkey, Ne.symm hkey]
      · rw [hcount, hdeclines.nonces, Int.add_zero]
    · obtain ⟨hnonces, -, hcount⟩ := commit_other (withNonce host key) s hother
      rw [hcount, hnonces, Int.add_zero]

/-! ## What is overdrawn -/

/-- A budget may be overdrawn by one cost beyond what it has been let off. What it has available is
what is left of it, unless it has been let off what it was overdrawn by. -/
structure Fits (slack dearest : Int) (b : SponsorshipBudget) : Prop where
  within : b.spentWei ≤ b.totalDepositedWei + slack + dearest
  available : b.availableWei = max 0 (b.totalDepositedWei - b.spentWei) ∨
    b.spentWei ≤ b.totalDepositedWei + slack

theorem Fits.fresh (hslack : 0 ≤ slack) (hdearest : 0 ≤ dearest) {depositWei : Int}
    (hdeposit : 0 ≤ depositWei) (merchantId : String) (gasCapPerTx rateLimitPerDay : Int) :
    Fits slack dearest
      ⟨merchantId, depositWei, 0, depositWei, gasCapPerTx, rateLimitPerDay, true⟩ := by
  refine ⟨?_, .inr ?_⟩
  · show 0 ≤ depositWei + slack + dearest
    omega
  · show 0 ≤ depositWei + slack
    omega

/-- Only what is not exhausted is billed. -/
theorem Fits.bill (h : Fits slack dearest b) (hslack : 0 ≤ slack) (hopen : b.availableWei ≠ 0)
    {gasCostWei : Int} (hgas : gasCostWei ≤ dearest) : Fits slack dearest (b.bill gasCostWei) := by
  have hspent : b.spentWei ≤ b.totalDepositedWei + slack := by
    obtain havailable | hwithin := h.available
    · rw [havailable] at hopen
      omega
    · exact hwithin
  refine ⟨?_, .inl ?_⟩
  · show b.spentWei + gasCostWei ≤ b.totalDepositedWei + slack + dearest
    omega
  · show (if b.totalDepositedWei - (b.spentWei + gasCostWei) > 0 then
      b.totalDepositedWei - (b.spentWei + gasCostWei) else 0) =
        max 0 (b.totalDepositedWei - (b.spentWei + gasCostWei))
    split_ifs <;> omega

theorem Fits.topUp (h : Fits slack dearest b) {additionalWei : Int}
    (hadditional : 0 ≤ additionalWei) (hdearest : 0 ≤ dearest) :
    Fits (slack + dearest) dearest (b.topUp additionalWei) := by
  have hspent : b.spentWei ≤ b.totalDepositedWei + additionalWei + (slack + dearest) := by
    have hwithin := h.within
    omega
  refine ⟨?_, .inr hspent⟩
  show b.spentWei ≤ b.totalDepositedWei + additionalWei + (slack + dearest) + dearest
  omega

theorem Fits.mono (h : Fits slack dearest b) {more : Int} (hmore : 0 ≤ more) :
    Fits (slack + more) dearest b := by
  have hwithin := h.within
  exact ⟨by omega, h.available.imp_right fun hspent => by omega⟩

theorem Fits.policy (h : Fits slack dearest b) (updates : PolicyUpdates) :
    Fits slack dearest (b.policy updates) := ⟨h.within, h.available⟩

def Call.cost (host : Host) (config : GasEstimationConfig) : Call → Int
  | .relay req _ _ _ => estimatedCostWei host (estimatedUnits req.gas) config
  | _ => 0

/-- What is paid in by a call. -/
def Call.deposit : Call → Int
  | .createBudget _ depositWei _ _ => depositWei
  | .topUpBudget _ additionalWei => additionalWei
  | _ => 0

def Call.topsUp (merchantId : String) : Call → Bool
  | .topUpBudget m _ => m = merchantId
  | _ => false

def topUps (merchantId : String) (acts : List Call) : Nat := acts.countP (Call.topsUp merchantId)

/-- The budget of a merchant after a budget has been set. -/
theorem holds_set {P : SponsorshipBudget → Prop} {budgets : Table SponsorshipBudget.merchantId}
    {budget : SponsorshipBudget} (hset : m = budget.merchantId → P budget)
    (h : ∀ b, budgets.get m = some b → P b) : ∀ b, (budgets.set budget).get m = some b → P b := by
  intro b hb
  rw [Table.get_set] at hb
  split_ifs at hb with hm
  · obtain rfl := Option.some.inj hb
    exact hset hm
  · exact h b hb

/-- What each call makes of the budget of a merchant. -/
theorem holds_commit {P Q : SponsorshipBudget → Prop} (hsame : ∀ b, P b → Q b)
    (hcreate : ∀ depositWei gasCap rate, act = .createBudget m depositWei gasCap rate →
      Q ⟨m, depositWei, 0, depositWei, gasCap, rate, true⟩)
    (hbill : ∀ b, b.availableWei ≠ 0 → P b → Q (b.bill (act.cost host config)))
    (htopUp : ∀ b additionalWei, act = .topUpBudget m additionalWei → P b →
      Q (b.topUp additionalWei))
    (hpolicy : ∀ b updates, act = .updateBudgetPolicy m updates → P b → Q (b.policy updates))
    (h : ∀ b, s.budgets.get m = some b → P b) :
    ∀ b, (commit (system host config) s act).budgets.get m = some b → Q b := by
  have hkept : ∀ b, s.budgets.get m = some b → Q b := fun b hb => hsame b (h b hb)
  cases act with
  | relay req id now billedAt =>
    obtain ⟨hopen, hconfirms, -⟩ | ⟨hdeclines, -⟩ :=
      commit_relay (fun _ _ => true) req id now billedAt s
    · obtain ⟨budget, hbudget, -, hset⟩ := hconfirms.billed
      have hkey : budget.merchantId = req.merchantId := Table.key_of_get hbudget
      rw [hset]
      refine holds_set (fun hm => ?_) hkept
      have hm : m = req.merchantId := hm.trans hkey
      rw [shouldFallbackToUserGas, hbudget] at hopen
      have havailable : budget.availableWei ≠ 0 := by
        intro hnone
        simp [hnone] at hopen
      exact hbill budget havailable (h budget (hm ▸ hbudget))
    · rw [hdeclines.budgets]
      exact hkept
  | createBudget merchantId depositWei gasCapPerTx rateLimitPerDay =>
    refine holds_set (fun hm => ?_) hkept
    obtain rfl : m = merchantId := hm
    exact hcreate depositWei gasCapPerTx rateLimitPerDay rfl
  | topUpBudget merchantId additionalWei =>
    obtain hsame | ⟨budget, hbudget, hset⟩ := commit_topUpBudget merchantId additionalWei s
    · rw [hsame]
      exact hkept
    · have hkey : budget.merchantId = merchantId := Table.key_of_get hbudget
      rw [hset]
      refine holds_set (fun hm => ?_) hkept
      obtain rfl : m = merchantId := hm.trans hkey
      exact htopUp budget additionalWei rfl (h budget hbudget)
  | updateBudgetPolicy merchantId updates =>
    obtain hsame | ⟨budget, hbudget, hset⟩ := commit_updateBudgetPolicy merchantId updates s
    · rw [hsame]
      exact hkept
    · have hkey : budget.merchantId = merchantId := Table.key_of_get hbudget
      rw [hset]
      refine holds_set (fun hm => ?_) hkept
      obtain rfl : m = merchantId := hm.trans hkey
      exact hpolicy budget updates rfl (h budget hbudget)

/-- What a top-up of the merchant lets its budget off. -/
def letOff (m : String) (dearest : Int) (act : Call) : Int := if act.topsUp m then dearest else 0

theorem fits_commit (hslack : 0 ≤ slack) (hdearest : 0 ≤ dearest) (hdeposit : 0 ≤ act.deposit)
    (hcost : act.cost host config ≤ dearest)
    (h : ∀ b, s.budgets.get m = some b → Fits slack dearest b) :
    ∀ b, (commit (system host config) s act).budgets.get m = some b →
      Fits (slack + letOff m dearest act) dearest b := by
  have hletOff : 0 ≤ letOff m dearest act := by
    rw [letOff]
    split_ifs <;> omega
  refine holds_commit (fun b hb => hb.mono hletOff) ?_ ?_ ?_ ?_ h
  · rintro depositWei gasCap rate rfl
    exact Fits.fresh (by omega) hdearest hdeposit _ _ _
  · exact fun b havailable hb => (hb.bill hslack havailable hcost).mono hletOff
  · rintro b additionalWei rfl hb
    have htops : (Call.topUpBudget m additionalWei).topsUp m = true := decide_eq_true rfl
    rw [letOff, if_pos htops]
    exact hb.topUp hdeposit hdearest
  · exact fun b updates _ hb => (hb.policy updates).mono hletOff

theorem fits_run (hdearest : 0 ≤ dearest) (acts : List Call)
    (hdeposit : ∀ act ∈ acts, 0 ≤ act.deposit)
    (hcost : ∀ act ∈ acts, act.cost host config ≤ dearest) :
    ∀ b, (run (system host config) empty acts).budgets.get m = some b →
      Fits (topUps m acts * dearest) dearest b := by
  induction acts using List.reverseRecOn with
  | nil => exact nofun
  | append_singleton acts act ih =>
    rw [List.forall_mem_append, List.forall_mem_singleton] at hdeposit hcost
    have hslack : 0 ≤ (topUps m acts : Int) * dearest := Int.mul_nonneg (by omega) hdearest
    have hmore : (topUps m (acts ++ [act]) : Int) * dearest =
        topUps m acts * dearest + letOff m dearest act := by
      rw [topUps, List.countP_append, ← topUps, List.countP_singleton, letOff]
      split_ifs <;> simp [Int.add_mul]
    rw [run_snoc, hmore]
    exact fits_commit hslack hdearest hdeposit.2 hcost.2 (ih hdeposit.1 hcost.1)

def plainHost : Host := ⟨fun text => text, fun wei => wei⟩

def hexSignature : String := "0x" ++ String.ofList (List.replicate 130 'a')

def relayAt (nonce : String) (now : Int) : Call :=
  .relay ⟨"0xu", "0xc", some 10, nonce, 90000, hexSignature, 1, "shop"⟩ nonce now now

/-- A budget of two transactions a day that is topped up twice. -/
def busyDays : List Call :=
  [.createBudget "shop" 11 21000 2, relayAt "0x1" 0, relayAt "0x2" 86400000,
    .topUpBudget "shop" 1, relayAt "0x3" 86400001, .topUpBudget "shop" 1,
    relayAt "0x4" 86400001]

/-- Where nothing negative is paid in and no transaction costs more than a bound, a merchant's
budget is overdrawn by no more than the bound, and once more for each time it is topped up. -/
theorem overdrawn_bounded (acts : List Call) (merchantId : String) (dearest : Nat)
    (hdeposit : ∀ act ∈ acts, 0 ≤ act.deposit)
    (hcost : ∀ act ∈ acts, act.cost host config ≤ dearest) :
    ∀ b, (run (system host config) empty acts).budgets.get merchantId = some b →
      b.spentWei ≤ b.totalDepositedWei + (topUps merchantId acts + 1) * dearest := by
  intro b hb
  have hwithin := (fits_run (Int.natCast_nonneg dearest) acts hdeposit hcost b hb).within
  rw [Int.add_mul, Int.one_mul]
  omega

/-- The busy shop owes 27 more than it has paid, of the 30 that three transactions cost. -/
theorem overdrawn_bounded_busyDays :
    ((run (system plainHost ⟨1, 0⟩) empty busyDays).budgets.get "shop").map
        (fun b => (b.spentWei, b.totalDepositedWei)) = some (40, 13) ∧
      ∀ b, (run (system plainHost ⟨1, 0⟩) empty busyDays).budgets.get "shop" = some b →
        b.spentWei ≤ b.totalDepositedWei + (topUps "shop" busyDays + 1) * (10 : Nat) :=
  ⟨by decide +kernel, overdrawn_bounded busyDays "shop" 10 (by decide) (by decide)⟩

/-! ## What is relayed in a day -/

/-- The usage of a wallet after `n` of its transactions have been relayed within a start's day. -/
structure Metered (limit start latest : Int) (entry : Option Usage) (n : Int) : Prop where
  early : latest < start → n = 0
  unused : entry = none → n = 0
  total : n ≤ 2 * limit
  started : ∀ u, entry = some u → u.windowStart ≤ latest
  counted : ∀ u, entry = some u → 0 ≤ u.count ∧ u.count ≤ limit
  first : ∀ u, entry = some u → u.windowStart < start → n ≤ u.count
  second : ∀ u, entry = some u → u.windowStart ≤ start + 86400000 → n ≤ limit + u.count

variable {limit start latest n : Int} {entry : Option Usage}

theorem Metered.mono (h : Metered limit start latest entry n) {later : Int}
    (hle : latest ≤ later) : Metered limit start later entry n :=
  { h with
    early := fun hlt => h.early (by omega)
    started := fun u hu => (h.started u hu).trans hle }

/-- A usage that is looked up stands for the same transactions. -/
theorem Metered.lookup (h : Metered limit start latest entry n) (hlimit : 0 ≤ limit)
    (hle : latest ≤ now) : Metered limit start now (some (currentUsage entry now)) n := by
  have hfresh (hn : now < start → n = 0) (hmore : now ≤ start + 86400000 → n ≤ limit) :
      Metered limit start now (some ⟨0, now⟩) n := by
    refine ⟨hn, nofun, h.total, ?_, ?_, ?_, ?_⟩ <;> rintro u ⟨⟩
    · exact Int.le_refl now
    · exact ⟨Int.le_refl 0, hlimit⟩
    · exact fun hlt => (hn hlt).le
    · intro hle
      exact (hmore hle).trans (Int.add_zero limit).ge
  have hearly : now < start → n = 0 := fun hlt => h.early (by omega)
  cases entry with
  | none =>
    have hn := h.unused rfl
    exact hfresh hearly fun _ => by omega
  | some u =>
    rw [currentUsage]
    split_ifs with hold
    · refine hfresh hearly fun hnow => ?_
      have hfirst := h.first u rfl (by omega)
      have hcounted := h.counted u rfl
      omega
    · exact h.mono hle

/-- A transaction that is billed at a time counts in the usage that is looked up then. -/
theorem Metered.count (h : Metered limit start latest entry n) {u : Usage} (hu : entry = some u)
    (hfree : u.count < limit) :
    Metered limit start latest (some u.counted)
      (n + if start ≤ latest ∧ latest ≤ start + 86400000 then 1 else 0) := by
  have hstarted := h.started u hu
  have hcounted := h.counted u hu
  have hfirst := h.first u hu
  have hsecond := h.second u hu
  have hearly := h.early
  have htotal := h.total
  refine ⟨?_, nofun, ?_, ?_, ?_, ?_, ?_⟩
  · intro hlt
    rw [h.early hlt, if_neg (by omega)]
    rfl
  · split_ifs <;> omega
  all_goals
    rintro v hv
    obtain rfl := Option.some.inj hv
  · exact hstarted
  · show 0 ≤ u.count + 1 ∧ u.count + 1 ≤ limit
    omega
  · show u.windowStart < start → _ ≤ u.count + 1
    split_ifs <;> omega
  · show u.windowStart ≤ start + 86400000 → _ ≤ limit + (u.count + 1)
    split_ifs <;> omega

/-- The relays for a wallet that are billed to a merchant within a day of a start. -/
def withinDay (host : Host) (m wallet : String) (start : Int) (req : MetaTransactionRequest)
    (billedAt : Int) : Bool :=
  (req.merchantId, host.toLowerCase req.source) = (m, wallet) &&
    start ≤ billedAt && billedAt ≤ start + 86400000

def Call.times : Call → List Int
  | .relay _ _ now billedAt => [now, billedAt]
  | _ => []

/-- The daily limit that a call sets for a merchant. -/
def Call.dailyLimit (m : String) : Call → Option Int
  | .createBudget merchantId _ _ rateLimitPerDay =>
    if merchantId = m then some rateLimitPerDay else none
  | .updateBudgetPolicy merchantId updates =>
    if merchantId = m then updates.rateLimitPerDay else none
  | _ => none

theorem limit_run (host : Host) (config : GasEstimationConfig) (acts : List Call)
    (hlimit : ∀ act ∈ acts, ∀ l ∈ act.dailyLimit m, l ≤ limit) :
    ∀ b, (run (system host config) empty acts).budgets.get m = some b →
      b.rateLimitPerDay ≤ limit := by
  induction acts using List.reverseRecOn with
  | nil => exact nofun
  | append_singleton acts act ih =>
    rw [List.forall_mem_append, List.forall_mem_singleton] at hlimit
    rw [run_snoc]
    refine holds_commit (fun b hb => hb) ?_ (fun b _ hb => hb) (fun b _ _ hb => hb) ?_
      (ih hlimit.1)
    · rintro depositWei gasCap rate rfl
      exact hlimit.2 rate (if_pos rfl)
    · rintro b updates rfl hb
      show updates.rateLimitPerDay.getD b.rateLimitPerDay ≤ limit
      cases hrate : updates.rateLimitPerDay with
      | none => exact hb
      | some rate => exact hlimit.2 rate ((if_pos rfl).trans hrate)

theorem Metered.relay {wallet : String} {s' : State}
    (h : Metered limit start latest (s.walletDailyUsage (m, wallet)) n) (hlimit : 0 ≤ limit)
    (hnow : latest ≤ now) (hbilled : now ≤ billedAt)
    (hbudget : ∀ b, s.budgets.get m = some b → b.rateLimitPerDay ≤ limit)
    (hconfirms : Confirms host config req now billedAt s s') :
    Metered limit start billedAt (s'.walletDailyUsage (m, wallet))
      (n + if withinDay host m wallet start req billedAt then 1 else 0) := by
  rw [hconfirms.used, Function.update_apply]
  by_cases hpair : (req.merchantId, host.toLowerCase req.source) = (m, wallet)
  · rw [if_pos hpair.symm]
    obtain ⟨budget, hget, hrate, -⟩ := hconfirms.billed
    obtain ⟨rfl, rfl⟩ := Prod.mk.inj hpair
    have hlooked := h.lookup hlimit hnow
    have hle := hbudget budget hget
    rw [usageOf] at hrate ⊢
    have hcounted := hlooked.counted _ rfl
    have hfree : (currentUsage (some (currentUsage
        (s.walletDailyUsage (req.merchantId, host.toLowerCase req.source)) now)) billedAt).count <
          limit := by
      generalize currentUsage _ now = u at hrate hcounted
      rw [currentUsage]
      split_ifs
      · show 0 < limit
        omega
      · omega
    have hcount := (hlooked.lookup hlimit hbilled).count rfl hfree
    have hwithin : (withinDay host req.merchantId (host.toLowerCase req.source) start req billedAt =
        true) ↔ start ≤ billedAt ∧ billedAt ≤ start + 86400000 := by
      simp [withinDay]
    rw [if_congr hwithin rfl rfl]
    exact hcount
  · rw [if_neg (Ne.symm hpair), withinDay, decide_eq_false hpair, Bool.false_and, Bool.false_and,
      if_neg Bool.false_ne_true, Int.add_zero]
    exact h.mono (hnow.trans hbilled)

theorem metered_run {wallet : String} (hlimit : 0 ≤ limit) (acts : List Call)
    (hlimits : ∀ act ∈ acts, ∀ l ∈ act.dailyLimit m, l ≤ limit)
    (hclock : (acts.flatMap Call.times).Pairwise (· ≤ ·)) :
    ∀ latest, (∀ time ∈ acts.flatMap Call.times, time ≤ latest) →
      Metered limit start latest
        ((run (system host config) empty acts).walletDailyUsage (m, wallet))
        (confirmedWithin host config acts (withinDay host m wallet start)) := by
  induction acts using List.reverseRecOn with
  | nil =>
    intro latest _
    refine ⟨fun _ => rfl, fun _ => rfl, ?_, nofun, nofun, nofun, nofun⟩
    show 0 ≤ 2 * limit
    omega
  | append_singleton acts act ih =>
    intro latest hlatest
    rw [List.flatMap_append, List.flatMap_singleton] at hclock hlatest
    rw [List.forall_mem_append] at hlatest
    obtain ⟨hbefore, hact, hthen⟩ := List.pairwise_append.mp hclock
    have hrest := ih (fun a ha => hlimits a (List.mem_append_left _ ha)) hbefore
    have hbudget := limit_run host config acts
      fun a ha => hlimits a (List.mem_append_left _ ha)
    rw [confirmedWithin, total_snoc, ← confirmedWithin, run_snoc]
    generalize run (system host config) empty acts = s at hrest hbudget
    obtain ⟨req, id, now, billedAt, rfl⟩ | hother := act.relay_or_other
    · have hnow : ∀ time ∈ acts.flatMap Call.times, time ≤ now :=
        fun time htime => hthen time htime now List.mem_cons_self
      have hbilled : now ≤ billedAt := by simpa [Call.times] using hact
      have hlast : billedAt ≤ latest := hlatest.2 billedAt (by simp [Call.times])
      have hmetered := hrest now hnow
      obtain ⟨-, hconfirms, hcount⟩ | ⟨hdeclines, hcount⟩ :=
        commit_relay (withinDay host m wallet start) req id now billedAt s
      · rw [hcount]
        exact (hmetered.relay hlimit le_rfl hbilled hbudget hconfirms).mono hlast
      · rw [hcount, Int.add_zero]
        refine Metered.mono ?_ (hbilled.trans hlast)
        obtain hsame | hlooked := hdeclines.usage
        · rw [hsame]
          exact hmetered
        · rw [hlooked, Function.update_apply]
          split_ifs with hpair
          · rw [usageOf, ← hpair]
            exact hmetered.lookup hlimit le_rfl
          · exact hmetered
    · obtain ⟨-, husage, hcount⟩ := commit_other (withinDay host m wallet start) s hother
      rw [hcount, husage, Int.add_zero]
      exact hrest latest hlatest.1

end GsnRelay
