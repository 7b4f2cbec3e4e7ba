import AgenticPay.Apportion
import AgenticPay.Records
import AgenticPay.Soroban

/-!
# The revenue pool contract

The recipients with their ratios, what each address has accumulated, and the
entry points. The token side is the host's: how it lowers the balance of the
contract is a parameter, and a deposit is a step of its own.
-/
namespace RevenuePool

open Soroban Contract Transaction KeyedMap Apportion

structure Recipient where
  wallet : Address
  ratioBps : Nat
  deriving DecidableEq, Repr

/-- The instance storage, and beside it the token balance of the contract. -/
structure Storage where
  admin : Option Address
  recipients : Option (List Recipient)
  totalShares : Option Nat
  minDist : Option Int
  accumulated : Map Address Int
  balance : Int

inductive Event where
  | recipientAdded (wallet : Address)
  | recipientRemoved (wallet : Address)
  | ratioUpdated (wallet : Address) (newRatioBps : Nat)
  | distributed (wallet : Address) (share : Int)
  | claimed (caller : Address) (accumulated : Int)
  | minDistUpdated (threshold : Int)
  | ownershipTransferred (newAdmin : Address)
  deriving DecidableEq, Repr

abbrev World := Soroban.World Storage Event

abbrev Entry (α : Type) := Contract Storage Event α

/-- The token side of `env.balance().decrease(x)`: from the balance and `x`, the balance
it leaves. -/
abbrev Decrease := Int → Int → Except Trap Int

/-- Nothing stored, and an empty balance. -/
def undeployed : World where
  storage :=
    { admin := none, recipients := none, totalShares := none, minDist := none, accumulated := ∅,
      balance := 0 }
  events := []

/-- `get(&DataKey::Accumulated(wallet)).unwrap_or(0)`. -/
def Storage.accumulatedOf (s : Storage) (wallet : Address) : Int :=
  (s.accumulated.lookup wallet).getD 0

/-- `set(&DataKey::Accumulated(wallet), &value)`. -/
def Storage.putAccumulated (s : Storage) (wallet : Address) (value : Int) : Storage :=
  { s with accumulated := s.accumulated.insert wallet value }

def unwrap {α : Type} (value : Option α) : Entry α :=
  expect value "called `Option::unwrap()` on a `None` value"

def decreaseBalance (decrease : Decrease) (x : Int) : Entry Unit := fun _ w =>
  match decrease w.storage.balance x with
  | .ok balance => .ok ((), { w with storage := { w.storage with balance } })
  | .error t => .error t

/-- The constructor of the contract, which the host runs once, at deployment. -/
def construct (admin : Address) : Entry Unit := do
  write ({ · with admin := some admin })
  write ({ · with recipients := some [] })
  write ({ · with totalShares := some 0 })
  write ({ · with minDist := some 0 })

def requireAdmin : Entry Unit := do
  let stored ← read (·.admin)
  let admin ← unwrap stored
  requireAuth admin

def addRecipient (wallet : Address) (ratioBps : Nat) : Entry Unit := do
  requireAdmin
  let storedTotal ← read (·.totalShares)
  let total ← unwrap storedTotal
  let newTotal ← addU32 total ratioBps
  assert (¬ newTotal > 10000) "total shares exceed 10000"
  let stored ← read (·.recipients)
  let recipients ← unwrap stored
  assert (∀ r ∈ recipients, r.wallet ≠ wallet) "recipient already exists"
  write ({ · with recipients := some (recipients ++ [{ wallet, ratioBps }]) })
  write ({ · with totalShares := some newTotal })
  write (·.putAccumulated wallet 0)
  publish (.recipientAdded wallet)

/-- The loop of `remove_recipient`, with `removed_ratio` and `new_recipients` so far. -/
def removeLoop (wallet : Address) : List Recipient → Nat → List Recipient → Nat × List Recipient
  | [], removedRatio, newRecipients => (removedRatio, newRecipients)
  | r :: rest, removedRatio, newRecipients =>
    if r.wallet = wallet then removeLoop wallet rest r.ratioBps newRecipients
    else removeLoop wallet rest removedRatio (newRecipients ++ [r])

def removeRecipient (decrease : Decrease) (wallet : Address) : Entry Unit := do
  requireAdmin
  let stored ← read (·.recipients)
  let recipients ← unwrap stored
  let (removedRatio, newRecipients) := removeLoop wallet recipients 0 []
  assert (¬ removedRatio = 0) "recipient not found"
  let storedTotal ← read (·.totalShares)
  let total ← unwrap storedTotal
  let newTotal ← subU32 total removedRatio
  write ({ · with totalShares := some newTotal })
  let accumulated ← read (·.accumulatedOf wallet)
  if accumulated > 0 then do
    write (·.putAccumulated wallet 0)
    decreaseBalance decrease accumulated
  else pure ()
  write ({ · with recipients := some newRecipients })
  publish (.recipientRemoved wallet)

/-- The loop of `update_ratio`, with `old_ratio`, `found` and `new_recipients` so far. -/
def updateLoop (wallet : Address) (newRatioBps : Nat) :
    List Recipient → Nat → Bool → List Recipient → Nat × Bool × List Recipient
  | [], oldRatio, found, newRecipients => (oldRatio, found, newRecipients)
  | r :: rest, oldRatio, found, newRecipients =>
    if r.wallet = wallet then
      updateLoop wallet newRatioBps rest r.ratioBps true
        (newRecipients ++ [{ wallet, ratioBps := newRatioBps }])
    else updateLoop wallet newRatioBps rest oldRatio found (newRecipients ++ [r])

def updateRatio (wallet : Address) (newRatioBps : Nat) : Entry Unit := do
  requireAdmin
  let stored ← read (·.recipients)
  let recipients ← unwrap stored
  let storedTotal ← read (·.totalShares)
  let total ← unwrap storedTotal
  let (oldRatio, found, newRecipients) := updateLoop wallet newRatioBps recipients 0 false []
  assert (found = true) "recipient not found"
  let rest ← subU32 total oldRatio
  let newTotal ← addU32 rest newRatioBps
  assert (¬ newTotal > 10000) "total shares exceed 10000"
  write ({ · with totalShares := some newTotal })
  write ({ · with recipients := some newRecipients })
  publish (.ratioUpdated wallet newRatioBps)

/-- The loop of `distribute` over the recipients. -/
def distributeLoop (amount : Int) (total : Nat) (minDist : Int) : List Recipient → Entry Unit
  | [] => pure ()
  | r :: rest => do
    let product ← mulI128 amount r.ratioBps
    let share := product.tdiv total
    if share ≥ minDist then do
      let accumulated ← read (·.accumulatedOf r.wallet)
      let sum ← addI128 accumulated share
      write (·.putAccumulated r.wallet sum)
      publish (.distributed r.wallet share)
    else pure ()
    distributeLoop amount total minDist rest

def distribute : Entry Unit := do
  let amount ← read (·.balance)
  if amount = 0 then pure ()
  else do
    let stored ← read (·.recipients)
    let recipients ← unwrap stored
    let storedTotal ← read (·.totalShares)
    let total ← unwrap storedTotal
    if total = 0 then pure ()
    else do
      let minDist ← read (·.minDist.getD 0)
      distributeLoop amount total minDist recipients

/-- `claim`, where `env.current_contract()` is `caller`. -/
def claim (decrease : Decrease) (caller : Address) : Entry Unit := do
  let accumulated ← read (·.accumulatedOf caller)
  let minDist ← read (·.minDist.getD 0)
  assert (¬ accumulated < minDist) "below minimum distribution threshold"
  write (·.putAccumulated caller 0)
  decreaseBalance decrease accumulated
  publish (.claimed caller accumulated)

def getRecipients : Entry (List Recipient) := do
  let stored ← read (·.recipients)
  unwrap stored

def getAccumulated (wallet : Address) : Entry Int := read (·.accumulatedOf wallet)

def setMinDistributionThreshold (threshold : Int) : Entry Unit := do
  requireAdmin
  write ({ · with minDist := some threshold })
  publish (.minDistUpdated threshold)

def transferOwnership (newAdmin : Address) : Entry Unit := do
  requireAdmin
  write ({ · with admin := some newAdmin })
  publish (.ownershipTransferred newAdmin)

/-- No entry point: somebody pays `amount` into the contract. -/
def deposit (amount : Nat) : Entry Unit := do
  let balance ← read (·.balance)
  let sum ← addI128 balance amount
  write ({ · with balance := sum })

inductive Call where
  | addRecipient (wallet : Address) (ratioBps : Nat)
  | removeRecipient (wallet : Address)
  | updateRatio (wallet : Address) (newRatioBps : Nat)
  | distribute
  | claim (caller : Address)
  | getRecipients
  | getAccumulated (wallet : Address)
  | setMinDistributionThreshold (threshold : Int)
  | transferOwnership (newAdmin : Address)
  | deposit (amount : Nat)
  deriving DecidableEq, Repr

inductive Ret where
  | unit
  | amount (n : Int)
  | recipients (l : List Recipient)
  deriving DecidableEq, Repr

variable (decrease : Decrease)

def invoke : Call → Entry Ret
  | .addRecipient wallet ratioBps => returning (fun _ => .unit) (addRecipient wallet ratioBps)
  | .removeRecipient wallet => returning (fun _ => .unit) (removeRecipient decrease wallet)
  | .updateRatio wallet newRatioBps =>
    returning (fun _ => .unit) (updateRatio wallet newRatioBps)
  | .distribute => returning (fun _ => .unit) distribute
  | .claim caller => returning (fun _ => .unit) (claim decrease caller)
  | .getRecipients => returning .recipients getRecipients
  | .getAccumulated wallet => returning .amount (getAccumulated wallet)
  | .setMinDistributionThreshold threshold =>
    returning (fun _ => .unit) (setMinDistributionThreshold threshold)
  | .transferOwnership newAdmin => returning (fun _ => .unit) (transferOwnership newAdmin)
  | .deposit amount => returning (fun _ => .unit) (deposit amount)

/-- The deployed contract on a host with this token. -/
def contract : System (Submission Call) World Trap Ret := system (invoke decrease)

/-! ## What a returned call has done -/

def Call.isView : Call → Bool
  | .getRecipients | .getAccumulated _ => true
  | _ => false

/-- The admin has authorized the call. -/
def Owned (env : Env) (w : World) : Prop :=
  ∃ admin, w.storage.admin = some admin ∧ admin ∈ env.auths

abbrev FitsI128 (n : Int) : Prop := -i128Bound ≤ n ∧ n < i128Bound

/-- The shares a distribution credits, in the order of the recipients. -/
def credits (amount : Int) (total : Nat) (minDist : Int) (l : List Recipient) :
    List (Address × Int) :=
  (l.map fun r => (r.wallet, share amount total r.ratioBps)).filter (minDist ≤ ·.2)

def creditAll : List (Address × Int) → Map Address Int → Map Address Int
  | [], m => m
  | c :: rest, m => creditAll rest (m.insert c.1 ((m.lookup c.1).getD 0 + c.2))

/-- No sum on the way leaves the `i128`. -/
def Room : List (Address × Int) → Map Address Int → Prop
  | [], _ => True
  | c :: rest, m =>
    FitsI128 ((m.lookup c.1).getD 0 + c.2) ∧
      Room rest (m.insert c.1 ((m.lookup c.1).getD 0 + c.2))

/-- No product and no sum of the distribution leaves the `i128`. -/
def Fits (amount : Int) (total : Nat) (minDist : Int) (l : List Recipient)
    (m : Map Address Int) : Prop :=
  (∀ r ∈ l, FitsI128 (amount * r.ratioBps)) ∧ Room (credits amount total minDist l) m

/-- What `remove_recipient` does with the credit of the wallet it removes. -/
def PaidOut (wallet : Address) (s s' : Storage) : Prop :=
  s.accumulatedOf wallet ≤ 0 ∧ s' = s ∨
    0 < s.accumulatedOf wallet ∧ ∃ balance,
      decrease s.balance (s.accumulatedOf wallet) = .ok balance ∧
      s' = { s.putAccumulated wallet 0 with balance }

/-- What an accepted call has checked, and the world it leaves. -/
inductive Step (env : Env) (w : World) : Call → World → Prop
  | viewed {call} (isView : call.isView = true) : Step env w call w
  | recipientAdded {wallet ratioBps l total} (owned : Owned env w)
      (listed : w.storage.recipients = some l) (shares : w.storage.totalShares = some total)
      (whole : total + ratioBps ≤ 10000) (fresh : ∀ r ∈ l, r.wallet ≠ wallet) :
      Step env w (.addRecipient wallet ratioBps)
        ⟨{ w.storage.putAccumulated wallet 0 with
            recipients := some (l ++ [{ wallet, ratioBps }]),
            totalShares := some (total + ratioBps) },
          w.events ++ [.recipientAdded wallet]⟩
  | recipientRemoved {wallet l total removed s} (owned : Owned env w)
      (listed : w.storage.recipients = some l) (shares : w.storage.totalShares = some total)
      (loop : removeLoop wallet l 0 [] = removed) (found : removed.1 ≠ 0)
      (covered : removed.1 ≤ total) (paid : PaidOut decrease wallet w.storage s) :
      Step env w (.removeRecipient wallet)
        ⟨{ s with recipients := some removed.2, totalShares := some (total - removed.1) },
          w.events ++ [.recipientRemoved wallet]⟩
  | ratioUpdated {wallet newRatioBps l total updated} (owned : Owned env w)
      (listed : w.storage.recipients = some l) (shares : w.storage.totalShares = some total)
      (loop : updateLoop wallet newRatioBps l 0 false [] = updated) (found : updated.2.1 = true)
      (covered : updated.1 ≤ total) (whole : total - updated.1 + newRatioBps ≤ 10000) :
      Step env w (.updateRatio wallet newRatioBps)
        ⟨{ w.storage with
            recipients := some updated.2.2,
            totalShares := some (total - updated.1 + newRatioBps) },
          w.events ++ [.ratioUpdated wallet newRatioBps]⟩
  | idled (idle : w.storage.balance = 0 ∨ w.storage.totalShares = some 0) :
      Step env w .distribute w
  | distributed {l total} (funded : w.storage.balance ≠ 0)
      (listed : w.storage.recipients = some l) (shares : w.storage.totalShares = some total)
      (live : total ≠ 0)
      (fits : Fits w.storage.balance total (w.storage.minDist.getD 0) l w.storage.accumulated) :
      Step env w .distribute
        ⟨{ w.storage with
            accumulated := creditAll
              (credits w.storage.balance total (w.storage.minDist.getD 0) l)
              w.storage.accumulated },
          w.events ++ (credits w.storage.balance total (w.storage.minDist.getD 0) l).map
            fun c => .distributed c.1 c.2⟩
  | claimed {caller balance}
      (enough : w.storage.minDist.getD 0 ≤ w.storage.accumulatedOf caller)
      (paid : decrease w.storage.balance (w.storage.accumulatedOf caller) = .ok balance) :
      Step env w (.claim caller)
        ⟨{ w.storage.putAccumulated caller 0 with balance },
          w.events ++ [.claimed caller (w.storage.accumulatedOf caller)]⟩
  | thresholdSet {threshold} (owned : Owned env w) :
      Step env w (.setMinDistributionThreshold threshold)
        ⟨{ w.storage with minDist := some threshold }, w.events ++ [.minDistUpdated threshold]⟩
  | ownershipTransferred {newAdmin} (owned : Owned env w) :
      Step env w (.transferOwnership newAdmin)
        ⟨{ w.storage with admin := some newAdmin }, w.events ++ [.ownershipTransferred newAdmin]⟩
  | deposited {amount : Nat} (fits : FitsI128 (w.storage.balance + amount)) :
      Step env w (.deposit amount)
        { w with storage := { w.storage with balance := w.storage.balance + amount } }

section Returns

variable {decrease} {env : Env} {w w' : World} {u : Unit}

@[simp] theorem unwrap_ok {α : Type} {value : Option α} {a : α} :
    (unwrap value : Entry α) env w = .ok (a, w') ↔ value = some a ∧ w = w' := by
  simp [unwrap]

@[simp] theorem requireAdmin_ok :
    requireAdmin env w = .ok (u, w') ↔ Owned env w ∧ w = w' := by
  simp only [requireAdmin, Owned, bind_ok, read_ok, unwrap_ok, requireAuth_ok]
  constructor
  · rintro ⟨_, _, ⟨rfl, rfl⟩, admin, _, ⟨hadmin, rfl⟩, hsigned, rfl⟩
    exact ⟨⟨admin, hadmin, hsigned⟩, rfl⟩
  · rintro ⟨⟨admin, hadmin, hsigned⟩, rfl⟩
    exact ⟨_, _, ⟨rfl, rfl⟩, admin, _, ⟨hadmin, rfl⟩, hsigned, rfl⟩

@[simp] theorem decreaseBalance_ok {x : Int} :
    decreaseBalance decrease x env w = .ok (u, w') ↔
      ∃ balance, decrease w.storage.balance x = .ok balance ∧
        ({ w with storage := { w.storage with balance } } : World) = w' := by
  rw [decreaseBalance]
  cases decrease w.storage.balance x <;> simp

theorem addRecipient_ok {wallet : Address} {ratioBps : Nat} :
    addRecipient wallet ratioBps env w = .ok (u, w') ↔
      Owned env w ∧ ∃ total, w.storage.totalShares = some total ∧ total + ratioBps ≤ 10000 ∧
        ∃ l, w.storage.recipients = some l ∧ (∀ r ∈ l, r.wallet ≠ wallet) ∧
          (⟨{ w.storage.putAccumulated wallet 0 with
              recipients := some (l ++ [{ wallet, ratioBps }]),
              totalShares := some (total + ratioBps) },
            w.events ++ [.recipientAdded wallet]⟩ : World) = w' := by
  simp [addRecipient, Storage.putAccumulated, u32Bound, and_assoc]
  refine fun _ => exists_congr fun total => and_congr_right fun _ => ?_
  constructor
  · exact fun h => h.2
  · exact fun h => ⟨by omega, h⟩

theorem removeRecipient_ok {wallet : Address} :
    removeRecipient decrease wallet env w = .ok (u, w') ↔
      Owned env w ∧ ∃ l, w.storage.recipients = some l ∧ (removeLoop wallet l 0 []).1 ≠ 0 ∧
        ∃ total, w.storage.totalShares = some total ∧ (removeLoop wallet l 0 []).1 ≤ total ∧
        ∃ s, PaidOut decrease wallet w.storage s ∧
          (⟨{ s with
              recipients := some (removeLoop wallet l 0 []).2,
              totalShares := some (total - (removeLoop wallet l 0 []).1) },
            w.events ++ [.recipientRemoved wallet]⟩ : World) = w' := by
  simp [removeRecipient, PaidOut, Storage.putAccumulated, Storage.accumulatedOf, and_assoc]
  refine fun _ => exists_congr fun l => and_congr_right fun _ => and_congr_right fun _ =>
    exists_congr fun total => and_congr_right fun _ => and_congr_right fun _ => ?_
  constructor
  · rintro (⟨hpos, balance, hdec, hw⟩ | ⟨hnone, hw⟩)
    · exact ⟨_, .inr ⟨hpos, balance, hdec, rfl⟩, hw⟩
    · exact ⟨_, .inl ⟨hnone, rfl⟩, hw⟩
  · rintro ⟨_, ⟨hnone, rfl⟩ | ⟨hpos, balance, hdec, rfl⟩, hw⟩
    · exact .inr ⟨hnone, hw⟩
    · exact .inl ⟨hpos, balance, hdec, hw⟩

theorem updateRatio_ok {wallet : Address} {newRatioBps : Nat} :
    updateRatio wallet newRatioBps env w = .ok (u, w') ↔
      Owned env w ∧ ∃ l, w.storage.recipients = some l ∧
        ∃ total, w.storage.totalShares = some total ∧
          (updateLoop wallet newRatioBps l 0 false []).2.1 = true ∧
          (updateLoop wallet newRatioBps l 0 false []).1 ≤ total ∧
          total - (updateLoop wallet newRatioBps l 0 false []).1 + newRatioBps ≤ 10000 ∧
          (⟨{ w.storage with
              recipients := some (updateLoop wallet newRatioBps l 0 false []).2.2,
              totalShares := some
                (total - (updateLoop wallet newRatioBps l 0 false []).1 + newRatioBps) },
            w.events ++ [.ratioUpdated wallet newRatioBps]⟩ : World) = w' := by
  simp [updateRatio, u32Bound, and_assoc]
  refine fun _ => exists_congr fun l => and_congr_right fun _ => exists_congr fun total =>
    and_congr_right fun _ => and_congr_right fun _ => and_congr_right fun _ => ?_
  constructor
  · exact fun h => h.2
  · exact fun h => ⟨by omega, h⟩

theorem distributeLoop_ok {amount minDist : Int} {total : Nat} {l : List Recipient} :
    distributeLoop amount total minDist l env w = .ok (u, w') ↔
      Fits amount total minDist l w.storage.accumulated ∧
        (⟨{ w.storage with
            accumulated := creditAll (credits amount total minDist l) w.storage.accumulated },
          w.events ++ (credits amount total minDist l).map
            fun c => .distributed c.1 c.2⟩ : World) = w' := by
  induction l generalizing w with
  | nil => simp [distributeLoop, Fits, Room, credits, creditAll]
  | cons r rest ih =>
    by_cases h : minDist ≤ share amount total r.ratioBps
    · have hcredits : credits amount total minDist (r :: rest) =
          (r.wallet, share amount total r.ratioBps) :: credits amount total minDist rest := by
        simp [credits, h]
      rw [share] at h
      simp [distributeLoop, h, ih, Fits, Room, hcredits, creditAll, share, Int.not_lt.mpr h,
        Storage.putAccumulated, Storage.accumulatedOf, and_assoc]
      intro _ _
      constructor
      · rintro ⟨hlo, hhi, hproducts, hrest⟩
        exact ⟨hproducts, hlo, hhi, hrest⟩
      · rintro ⟨hproducts, hlo, hhi, hrest⟩
        exact ⟨hlo, hhi, hproducts, hrest⟩
    · have hcredits : credits amount total minDist (r :: rest) =
          credits amount total minDist rest := by
        simp [credits, h]
      rw [share] at h
      simp [distributeLoop, h, ih, Fits, hcredits, Int.not_le.mp h, and_assoc]

theorem distribute_ok :
    distribute env w = .ok (u, w') ↔
      w.storage.balance = 0 ∧ w = w' ∨
      w.storage.balance ≠ 0 ∧ ∃ l, w.storage.recipients = some l ∧
        ∃ total, w.storage.totalShares = some total ∧
          (total = 0 ∧ w = w' ∨
            total ≠ 0 ∧
            Fits w.storage.balance total (w.storage.minDist.getD 0) l w.storage.accumulated ∧
            (⟨{ w.storage with
                accumulated := creditAll
                  (credits w.storage.balance total (w.storage.minDist.getD 0) l)
                  w.storage.accumulated },
              w.events ++ (credits w.storage.balance total (w.storage.minDist.getD 0) l).map
                fun c => .distributed c.1 c.2⟩ : World) = w') := by
  simp [distribute, distributeLoop_ok]

theorem claim_ok {caller : Address} :
    claim decrease caller env w = .ok (u, w') ↔
      w.storage.minDist.getD 0 ≤ w.storage.accumulatedOf caller ∧
      ∃ balance, decrease w.storage.balance (w.storage.accumulatedOf caller) = .ok balance ∧
        (⟨{ w.storage.putAccumulated caller 0 with balance },
          w.events ++ [.claimed caller (w.storage.accumulatedOf caller)]⟩ : World) = w' := by
  simp [claim, Storage.putAccumulated]

/-- The inversion of the dispatcher: what returned is one of the listed steps. -/
theorem step_of_ok {call : Call} {r : Ret} (h : invoke decrease call env w = .ok (r, w')) :
    Step decrease env w call w' := by
  cases call with
  | addRecipient wallet ratioBps =>
    obtain ⟨_, ha, rfl⟩ := returning_ok.mp h
    obtain ⟨howned, total, hshares, hwhole, l, hlisted, hfresh, rfl⟩ := addRecipient_ok.mp ha
    exact .recipientAdded howned hlisted hshares hwhole hfresh
  | removeRecipient wallet =>
    obtain ⟨_, ha, rfl⟩ := returning_ok.mp h
    obtain ⟨howned, l, hlisted, hfound, total, hshares, hle, s, hpaid, rfl⟩ :=
      removeRecipient_ok.mp ha
    exact .recipientRemoved howned hlisted hshares rfl hfound hle hpaid
  | updateRatio wallet newRatioBps =>
    obtain ⟨_, ha, rfl⟩ := returning_ok.mp h
    obtain ⟨howned, l, hlisted, total, hshares, hfound, hle, hwhole, rfl⟩ :=
      updateRatio_ok.mp ha
    exact .ratioUpdated howned hlisted hshares rfl hfound hle hwhole
  | distribute =>
    obtain ⟨_, ha, rfl⟩ := returning_ok.mp h
    rcases distribute_ok.mp ha with
      ⟨hempty, rfl⟩ | ⟨hfunded, l, hlisted, total, hshares, ⟨rfl, rfl⟩ | ⟨hlive, hfits, rfl⟩⟩
    · exact .idled (.inl hempty)
    · exact .idled (.inr hshares)
    · exact .distributed hfunded hlisted hshares hlive hfits
  | claim caller =>
    obtain ⟨_, ha, rfl⟩ := returning_ok.mp h
    obtain ⟨henough, balance, hpaid, rfl⟩ := claim_ok.mp ha
    exact .claimed henough hpaid
  | getRecipients =>
    obtain ⟨_, ha, rfl⟩ := returning_ok.mp h
    obtain rfl : w = w' := by simp [getRecipients] at ha; exact ha.2
    exact .viewed rfl
  | getAccumulated wallet =>
    obtain ⟨_, ha, rfl⟩ := returning_ok.mp h
    obtain ⟨_, rfl⟩ := read_ok.mp ha
    exact .viewed rfl
  | setMinDistributionThreshold threshold =>
    obtain ⟨_, ha, rfl⟩ := returning_ok.mp h
    simp [setMinDistributionThreshold] at ha
    obtain ⟨howned, rfl⟩ := ha
    exact .thresholdSet howned
  | transferOwnership newAdmin =>
    obtain ⟨_, ha, rfl⟩ := returning_ok.mp h
    simp [transferOwnership] at ha
    obtain ⟨howned, rfl⟩ := ha
    exact .ownershipTransferred howned
  | deposit amount =>
    obtain ⟨_, ha, rfl⟩ := returning_ok.mp h
    simp [deposit, and_assoc] at ha
    obtain ⟨hlo, hhi, rfl⟩ := ha
    exact .deposited ⟨hlo, hhi⟩

/-- Every committed submission is a listed step, or trapped and changed nothing. -/
theorem commit_step (decrease : Decrease) (w : World) (i : Submission Call) :
    Step decrease i.env w i.call (commit (contract decrease) w i) ∨
      commit (contract decrease) w i = w := by
  obtain ⟨r, hr⟩ | he := system_cases (invoke decrease) w i
  · exact .inl (step_of_ok hr)
  · exact .inr he

end Returns

end RevenuePool
