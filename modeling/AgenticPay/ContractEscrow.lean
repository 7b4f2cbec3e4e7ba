import Mathlib
import AgenticPay.Holdings
import AgenticPay.ContractLifecycle

/-!
# Escrow and receipts

The contract keeps one number per project, its deposit. Read next to the history
of calls, that number is what a custody account holds: everything the client paid
in, less everything an approval, a resolution or an expiry paid out. A receipt is
written once per project, over the whole of what was paid in.
-/
namespace AgenticPayContract

open Soroban Contract Transaction Registry Custody

/-- What an action pays into the escrow. -/
def paysIn : Option Action → Int
  | some (.fund amount) => amount
  | _ => 0

/-- What an action pays out of the escrow of the project it is performed on. -/
def paysOut : Option Action → Option Project → Int
  | some .approve, some p => p.deposited
  | some (.resolve _), some p => p.deposited
  | some .expire, some p => p.deposited
  | _, _ => 0

/-- The amount the invocation funds the project `pid` with; zero unless it is an
accepted `fund_project`. -/
def funded (pid : Nat) (w : World) (i : Invocation) : Int := paysIn (acted pid w i)

/-- The deposit of `pid` the invocation sets to zero; zero unless it is an accepted
`approve_work` or `resolve_dispute`, or a `check_deadline` that cancels. -/
def released (pid : Nat) (w : World) (i : Invocation) : Int :=
  paysOut (acted pid w i) (w.storage.project pid)

/-- Work has been paid for in full and not been handed over. -/
def Project.Working (p : Project) : Prop :=
  p.status = .funded ∨ p.status = .inProgress ∨ p.status = .workSubmitted ∨ p.status = .verified

/-- The account stands for the project: it holds the deposit, nothing is paid out
before the project is closed, and work starts fully paid. -/
structure Kept (p : Project) (acc : Account Int) : Prop where
  held : acc.held = p.deposited
  intact : ¬ p.Closed → acc.paidOut = 0
  full : p.Working → max p.amount 1 ≤ p.deposited

theorem Project.Fresh.kept {p : Project} (h : p.Fresh) : Kept p .opened where
  held := h.2.symm
  intact := fun _ => rfl
  full := by
    intro hw
    unfold Project.Working at hw
    simp [h.1] at hw

theorem Project.Working.not_closed {p : Project} (h : p.Working) : ¬ p.Closed := by
  unfold Project.Working at h
  unfold Project.Closed Project.Finished
  rcases h with h | h | h | h <;> simp [h]

/-- Each move of the project is the corresponding posting to its account. -/
theorem Project.Moves.kept {p p' : Project} {a : Action} {acc : Account Int}
    (h : p.Moves a p') (hk : Kept p acc) :
    ∃ acc', Kept p' acc' ∧ acc'.paidIn = acc.paidIn + paysIn (some a) ∧
      acc'.paidOut = acc.paidOut + paysOut (some a) (some p) := by
  have hheld := hk.held
  cases h with
  | @fund amount status positive =>
    have hopen : ¬ p.Closed := by simp [Project.Closed, Project.Finished, status]
    refine ⟨acc.deposit amount positive.le, ⟨?_, fun _ => hk.intact hopen, ?_⟩, rfl,
      by simp [paysOut]⟩
    · simp [Project.fund, hheld]
    · intro hw
      have hnonneg := acc.covered
      by_cases hfull : p.amount ≤ p.deposited + amount
      · simp only [Project.fund]
        omega
      · simp [Project.Working, Project.fund, hfull, status] at hw
  | submit status =>
    have hworking : p.Working := by
      rcases status with status | status
      · exact .inl status
      · exact .inr (.inl status)
    exact ⟨acc, ⟨hheld, fun _ => hk.intact hworking.not_closed, fun _ => hk.full hworking⟩,
      by simp [paysIn], by simp [paysOut]⟩
  | approve status =>
    exact ⟨acc.release, ⟨rfl, fun hopen => absurd (.inl (.inl rfl)) hopen,
        by simp [Project.Working, Project.close]⟩,
      by simp [paysIn], by simp [paysOut, hheld]⟩
  | dispute =>
    exact ⟨acc, ⟨hheld, fun hopen => absurd (.inr rfl) hopen,
        by simp [Project.Working, Project.dispute]⟩,
      by simp [paysIn], by simp [paysOut]⟩
  | @resolve release status =>
    have hclosed : (p.resolve release).Closed :=
      ((Project.Moves.resolve status).closed (.inr status)).1
    exact ⟨acc.release, ⟨rfl, fun hopen => absurd hclosed hopen,
        fun hw => absurd hclosed hw.not_closed⟩,
      by simp [paysIn], by simp [paysOut, hheld]⟩
  | expire live =>
    exact ⟨acc.release, ⟨rfl, fun hopen => absurd (.inl (.inr rfl)) hopen,
        by simp [Project.Working, Project.cancel]⟩,
      by simp [paysIn], by simp [paysOut, hheld]⟩

/-- The account stands for the entry `pid`, also before that project exists. -/
structure Books (pid : Nat) (w : World) (acc : Account Int) : Prop where
  empty : w.storage.project pid = none → acc = .opened
  kept : ∀ p, w.storage.project pid = some p → Kept p acc

theorem Touch.books {pid : Nat} {w w' : World} {act : Option Action} {acc : Account Int}
    (ht : Touch pid w w' act) (hb : Bounded w.storage.project (projectCounter w))
    (h : Books pid w acc) :
    ∃ acc', Books pid w' acc' ∧ acc'.paidIn = acc.paidIn + paysIn act ∧
      acc'.paidOut = acc.paidOut + paysOut act (w.storage.project pid) := by
  cases ht with
  | kept same =>
    refine ⟨acc, ⟨fun hnone => h.empty (same ▸ hnone), fun p hp => h.kept p (same ▸ hp)⟩, ?_, ?_⟩
    · simp [paysIn]
    · simp [paysOut]
  | @created p beyond stored fresh =>
    have hacc := h.empty (hb pid beyond)
    subst hacc
    refine ⟨.opened, ⟨fun hnone => ?_, fun q hq => ?_⟩, ?_, ?_⟩
    · simp [stored] at hnone
    · obtain rfl := Option.some.inj (stored.symm.trans hq)
      exact fresh.kept
    · simp [paysIn]
    · simp [paysOut]
  | @moved a p p' found stored moves =>
    obtain ⟨acc', hk, hin, hout⟩ := moves.kept (h.kept p found)
    refine ⟨acc', ⟨fun hnone => ?_, fun q hq => ?_⟩, hin, ?_⟩
    · simp [stored] at hnone
    · obtain rfl := Option.some.inj (stored.symm.trans hq)
      exact hk
    · rw [found]
      exact hout

/-- The refinement: over the calls of a run, each project is a custody account of
what was funded and released. -/
theorem run_books {w : World} (hw : Initialized w) (pid : Nat) {is : List Invocation}
    (hi : NoInitialize is) :
    ∃ acc, Books pid (run contract w is) acc ∧
      acc.paidIn = total contract (funded pid) w is ∧
      acc.paidOut = total contract (released pid) w is := by
  refine (run_history
    (I := fun cs v => Registered v ∧ ∃ acc, Books pid v acc ∧
      acc.paidIn = total contract (funded pid) w cs ∧
      acc.paidOut = total contract (released pid) w cs)
    ⟨hw.registered, ?_⟩ (fun cs i hv hn => ?_) is (along_forall.mpr hi)).2
  · obtain ⟨admin, rfl⟩ := hw.storage
    exact ⟨.opened, ⟨fun _ => rfl, fun p hp => by contradiction⟩, rfl, rfl⟩
  · obtain ⟨hreg, acc, hb, hin, hout⟩ := hv
    refine ⟨commit_registered hreg (fun hyes => by simp [hn] at hyes), ?_⟩
    obtain ⟨acc', hb', hin', hout'⟩ :=
      (commit_touch pid (run contract w cs) i).books hreg.projects hb
    rw [total_snoc, total_snoc, ← hin, ← hout]
    exact ⟨acc', hb', hin', hout'⟩

/-- After one initialization, whatever is called in whatever order: the deposit of
a project is never negative, and what was funded is what is still deposited and
what approvals, resolutions and expiries have released. -/
theorem escrow_balances {w : World} (hw : Initialized w) {is : List Invocation}
    (hi : NoInitialize is) {pid : Nat} {p : Project}
    (hp : (run contract w is).storage.project pid = some p) :
    0 ≤ p.deposited ∧
    total contract (funded pid) w is = p.deposited + total contract (released pid) w is := by
  obtain ⟨acc, hb, hin, hout⟩ := run_books hw pid hi
  have hheld := (hb.kept p hp).held
  rw [← hin, ← hout, ← hheld]
  exact ⟨acc.covered, acc.balanced⟩

theorem escrow_balances_delivered :
    ∃ p, (run contract started delivered).storage.project 1 = some p ∧ 0 ≤ p.deposited ∧
      total contract (funded 1) started delivered =
        p.deposited + total contract (released 1) started delivered :=
  ⟨_, rfl, escrow_balances initialized_started (show NoInitialize delivered by decide) rfl⟩

example : total contract (funded 1) started delivered = 110 := by decide

/-! ## Receipts -/

/-- What a step does to the receipts: nothing, or it writes the receipt of a project
whose work it approves and closes. -/
inductive Issue (w w' : World) (call : Call) (r : Ret) : Prop
  | nothing (same : w'.storage.receipt = w.storage.receipt)
  | receipt {pid p timestamp} (act : actionOn pid call r = some .approve)
      (found : w.storage.project pid = some p)
      (status : p.status = .workSubmitted ∨ p.status = .verified)
      (closed : w'.storage.project pid = some p.close)
      (stored : w'.storage.receipt = Function.update w.storage.receipt (receiptCounter w + 1)
        (some (p.receipt pid (receiptCounter w + 1) timestamp)))

theorem Step.issue {env : Env} {w w' : World} {call : Call} {r : Ret}
    (h : Step env w call r w') : Issue w w' call r := by
  cases h with
  | approveWork _ found _ status _ =>
    exact .receipt (if_pos rfl) found status (Function.update_self ..) rfl
  | _ => exact .nothing rfl

/-- The receipt is about an existing closed project, between its parties, over
`paid`, which is at least the agreed amount and at least one. -/
def Receipt.Covers (rc : Receipt) (w : World) (paid : Int) : Prop :=
  ∃ p, w.storage.project rc.projectId = some p ∧ p.Closed ∧ rc.sender = p.client ∧
    rc.recipient = p.freelancer ∧ rc.amount = paid ∧ max p.amount 1 ≤ rc.amount

/-- Every receipt covers all that was paid for its project, and no project has two. -/
structure Receipted (w : World) (paid : Nat → Int) : Prop where
  covers : ∀ id rc, w.storage.receipt id = some rc → rc.Covers w (paid rc.projectId)
  unique : ∀ id id' rc rc', w.storage.receipt id = some rc → w.storage.receipt id' = some rc' →
    rc.projectId = rc'.projectId → id = id'

/-- Nothing is paid for a closed project any more, so its receipt keeps covering it. -/
theorem Receipt.Covers.touch {rc : Receipt} {w w' : World} {paid : Int} {act : Option Action}
    (h : rc.Covers w paid) (hb : Bounded w.storage.project (projectCounter w))
    (ht : Touch rc.projectId w w' act) : rc.Covers w' (paid + paysIn act) := by
  obtain ⟨p, hp, hclosed, hsender, hrecipient, hamount, hle⟩ := h
  cases ht with
  | kept same =>
    exact ⟨p, same.trans hp, hclosed, hsender, hrecipient, by simp [paysIn, hamount], hle⟩
  | created beyond _ _ => exact absurd (hb.le hp) (Nat.not_le.mpr beyond)
  | @moved a p₀ p' found stored moves =>
    obtain rfl := Option.some.inj (found.symm.trans hp)
    obtain ⟨hclient, hfreelancer, hagreed⟩ := moves.parties
    obtain ⟨hclosed', hact⟩ := moves.closed hclosed
    have hnothing : paysIn (some a) = 0 := by
      rcases hact with ⟨rfl, _⟩ | ⟨_, rfl, _⟩ <;> rfl
    rw [hnothing, add_zero]
    exact ⟨p', stored, hclosed', hsender.trans hclient.symm, hrecipient.trans hfreelancer.symm,
      hamount, hagreed ▸ hle⟩

theorem Step.receipted {env : Env} {w w' : World} {call : Call} {r : Ret} {paid : Nat → Int}
    (h : Step env w call r w') (hreg : Registered w)
    (hbooks : ∀ pid, ∃ acc, Books pid w acc ∧ acc.paidIn = paid pid) (hw : Receipted w paid) :
    Receipted w' (fun pid => paid pid + paysIn (actionOn pid call r)) := by
  have hold : ∀ id rc, w.storage.receipt id = some rc →
      rc.Covers w' (paid rc.projectId + paysIn (actionOn rc.projectId call r)) :=
    fun id rc hrc => (hw.covers id rc hrc).touch hreg.projects (h.touch rc.projectId)
  cases h.issue with
  | nothing same =>
    rw [← same] at hold
    exact ⟨hold, fun id id' rc rc' hrc hrc' => hw.unique id id' rc rc' (same ▸ hrc) (same ▸ hrc')⟩
  | @receipt pid p timestamp act found status closed stored =>
    obtain ⟨acc, hb, hpaid⟩ := hbooks pid
    have hk := hb.kept p found
    have hworking : p.Working := .inr (.inr status)
    have hdeposit : p.deposited = paid pid := by
      rw [← hk.held, acc.held_eq (hk.intact hworking.not_closed), hpaid]
    have hfirst : ∀ id rc, w.storage.receipt id = some rc → rc.projectId ≠ pid := by
      intro id rc hrc hpid
      obtain ⟨q, hq, hclosed, _⟩ := hw.covers id rc hrc
      rw [hpid, found] at hq
      obtain rfl := Option.some.inj hq
      exact hworking.not_closed hclosed
    refine ⟨fun id rc hrc => ?_, fun id id' rc rc' hrc hrc' hsame => ?_⟩
    · rw [stored] at hrc
      by_cases he : id = receiptCounter w + 1
      · rw [he, Function.update_self] at hrc
        obtain rfl := Option.some.inj hrc
        refine ⟨p.close, closed, .inl (.inl rfl), rfl, rfl, ?_, hk.full hworking⟩
        simp [Project.receipt, act, paysIn, hdeposit]
      · rw [Function.update_of_ne he] at hrc
        exact hold id rc hrc
    · rw [stored] at hrc hrc'
      by_cases he : id = receiptCounter w + 1 <;> by_cases he' : id' = receiptCounter w + 1
      · rw [he, he']
      · rw [he, Function.update_self] at hrc
        rw [Function.update_of_ne he'] at hrc'
        obtain rfl := Option.some.inj hrc
        exact absurd hsame.symm (hfirst id' rc' hrc')
      · rw [he', Function.update_self] at hrc'
        rw [Function.update_of_ne he] at hrc
        obtain rfl := Option.some.inj hrc'
        exact absurd hsame (hfirst id rc hrc)
      · rw [Function.update_of_ne he] at hrc
        rw [Function.update_of_ne he'] at hrc'
        exact hw.unique id id' rc rc' hrc hrc' hsame

theorem run_receipted {w : World} (hw : Initialized w) {is : List Invocation}
    (hi : NoInitialize is) :
    Receipted (run contract w is) (fun pid => total contract (funded pid) w is) := by
  induction is using List.reverseRecOn with
  | nil =>
    obtain ⟨admin, rfl⟩ := hw.storage
    exact ⟨fun id rc hrc => by contradiction, fun id id' rc rc' hrc => by contradiction⟩
  | append_singleton cs i ih =>
    have hcs : NoInitialize cs := fun j hj => hi j (List.mem_append_left [i] hj)
    have hprev := ih hcs
    simp only [run_snoc, total_snoc, funded]
    obtain ⟨r, hr, hstep⟩ | ⟨⟨t, ht⟩, hsame⟩ := commit_step (run contract w cs) i
    · simp only [acted_of_ok hr]
      refine hstep.receipted (run_registered hw.registered hcs) (fun pid => ?_) hprev
      obtain ⟨acc, hb, hin, _⟩ := run_books hw pid hcs
      exact ⟨acc, hb, hin⟩
    · have hnone : ∀ pid, acted pid (run contract w cs) i = none := by
        intro pid
        rw [acted, ht]
      simp only [hsame, hnone, paysIn, add_zero]
      exact hprev

/-- After one initialization: a stored receipt names an existing project and its two
parties, over everything that was ever funded for it, which is at least the agreed
amount and at least one; and no two receipts name the same project. -/
theorem receipts_cover {w : World} (hw : Initialized w) {is : List Invocation}
    (hi : NoInitialize is) :
    (∀ id rc, (run contract w is).storage.receipt id = some rc →
      ∃ p, (run contract w is).storage.project rc.projectId = some p ∧
        rc.sender = p.client ∧ rc.recipient = p.freelancer ∧
        rc.amount = total contract (funded rc.projectId) w is ∧ max p.amount 1 ≤ rc.amount) ∧
    ∀ id id' rc rc', (run contract w is).storage.receipt id = some rc →
      (run contract w is).storage.receipt id' = some rc' → rc.projectId = rc'.projectId →
      id = id' := by
  have hrec := run_receipted hw hi
  refine ⟨fun id rc hrc => ?_, hrec.unique⟩
  obtain ⟨p, hp, _, hsender, hrecipient, hamount, hle⟩ := hrec.covers id rc hrc
  exact ⟨p, hp, hsender, hrecipient, hamount, hle⟩

theorem receipts_cover_delivered :
    ∃ rc p, (run contract started delivered).storage.receipt 1 = some rc ∧
      (run contract started delivered).storage.project rc.projectId = some p ∧
      rc.amount = total contract (funded rc.projectId) started delivered := by
  have hcover := receipts_cover initialized_started (show NoInitialize delivered by decide)
  obtain ⟨p, hp, _, _, hamount, _⟩ := hcover.1 1 _ rfl
  exact ⟨_, p, rfl, hp, hamount⟩

end AgenticPayContract
