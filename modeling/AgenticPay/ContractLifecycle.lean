import AgenticPay.ContractRegistry

/-!
# The life of one project

Six actions can befall a project once it exists, and each entry point performs
its own under its own guard. This file gives the actions and their guards as a
machine on one record, shows that every step of the contract is a move of that
machine or leaves the record alone, and follows a project that is finished. No
guard of `raise_dispute` looks at the status: a finished project can be reopened
by a dispute, and by nothing else.
-/
namespace AgenticPayContract

open Soroban Contract Transaction Registry

inductive Action where
  | fund (amount : Int)
  | submit (githubRepo : String)
  | approve
  | dispute
  | resolve (releaseToFreelancer : Bool)
  | expire
  deriving DecidableEq, Repr

/-- The moves of a project, each under the guard the contract puts on it. -/
inductive Project.Moves (p : Project) : Action → Project → Prop
  | fund {amount} (status : p.status = .created) (positive : 0 < amount) :
      p.Moves (.fund amount) (p.fund amount)
  | submit {githubRepo} (status : p.status = .funded ∨ p.status = .inProgress) :
      p.Moves (.submit githubRepo) (p.submit githubRepo)
  | approve (status : p.status = .workSubmitted ∨ p.status = .verified) : p.Moves .approve p.close
  | dispute : p.Moves .dispute p.dispute
  | resolve {release} (status : p.status = .disputed) :
      p.Moves (.resolve release) (p.resolve release)
  | expire
      (live : ¬ (p.status = .completed ∨ p.status = .cancelled ∨ p.status = .disputed)) :
      p.Moves .expire p.cancel

/-- A project as its creation stores it. -/
def Project.Fresh (p : Project) : Prop := p.status = .created ∧ p.deposited = 0

/-- The action an accepted call performs on the project `pid`. -/
def actionOn (pid : Nat) : Call → Ret → Option Action
  | .fundProject projectId _ amount, _ => if projectId = pid then some (.fund amount) else none
  | .submitWork projectId _ githubRepo, _ =>
    if projectId = pid then some (.submit githubRepo) else none
  | .approveWork projectId _, _ => if projectId = pid then some .approve else none
  | .raiseDispute projectId _, _ => if projectId = pid then some .dispute else none
  | .resolveDispute projectId _ release, _ =>
    if projectId = pid then some (.resolve release) else none
  | .checkDeadline projectId, .bool true => if projectId = pid then some .expire else none
  | _, _ => none

/-- The action the invocation performs on `pid`; none if it traps. -/
def acted (pid : Nat) (w : World) (i : Invocation) : Option Action :=
  match contract i w with
  | .ok (r, _) => actionOn pid i.call r
  | .error _ => none

/-- What happens to the entry `pid` in one step, next to the action performed on it. -/
inductive Touch (pid : Nat) (w w' : World) : Option Action → Prop
  | kept (same : w'.storage.project pid = w.storage.project pid) : Touch pid w w' none
  | created {p} (beyond : projectCounter w < pid) (stored : w'.storage.project pid = some p)
      (fresh : p.Fresh) : Touch pid w w' none
  | moved {a p p'} (found : w.storage.project pid = some p)
      (stored : w'.storage.project pid = some p') (moves : p.Moves a p') :
      Touch pid w w' (some a)

theorem touch_of_update {pid projectId : Nat} {w w' : World} {a : Action} {p p' : Project}
    (found : w.storage.project projectId = some p) (moves : p.Moves a p')
    (hw : w'.storage.project = Function.update w.storage.project projectId (some p')) :
    Touch pid w w' (if projectId = pid then some a else none) := by
  by_cases h : projectId = pid
  · subst h
    rw [if_pos rfl]
    exact .moved found (by rw [hw, Function.update_self]) moves
  · rw [if_neg h]
    exact .kept (by rw [hw, Function.update_of_ne (Ne.symm h)])

/-- The batch loop writes behind the counter it starts from, and only fresh projects. -/
theorem batchTable_cases (client : Address) (timestamp : Nat) (inputs : List ProjectInput)
    (count : Nat) (table : Nat → Option Project) (pid : Nat) :
    batchTable client timestamp inputs count table pid = table pid ∨
    count < pid ∧ ∃ p, batchTable client timestamp inputs count table pid = some p ∧ p.Fresh := by
  induction inputs generalizing count table with
  | nil => exact .inl rfl
  | cons input rest ih =>
    rw [batchTable]
    obtain hkept | ⟨hlt, hnew⟩ := ih (count + 1)
      (Function.update table (count + 1) (some (batchProject client timestamp (count + 1) input)))
    · by_cases he : pid = count + 1
      · subst he
        rw [Function.update_self] at hkept
        exact .inr ⟨Nat.lt_succ_self count, _, hkept, rfl, rfl⟩
      · rw [Function.update_of_ne he] at hkept
        exact .inl hkept
    · exact .inr ⟨by omega, hnew⟩

/-- Every step is, for each project, a move of the lifecycle, its creation, or nothing. -/
theorem Step.touch {env : Env} {w w' : World} {call : Call} {r : Ret}
    (h : Step env w call r w') (pid : Nat) : Touch pid w w' (actionOn pid call r) := by
  cases h with
  | view hv =>
    have hnone : actionOn pid call r = none := by
      cases call <;> first | rfl | contradiction
    rw [hnone]
    exact .kept rfl
  | @createProject _ _ _ _ _ _ id _ hn _ =>
    by_cases he : pid = id
    · subst he
      refine .created ?_ (Function.update_self ..) ⟨rfl, rfl⟩
      rw [hn]
      exact Nat.lt_succ_self _
    · exact .kept (Function.update_of_ne he ..)
  | @batchCreateProjects client projects _ _ =>
    obtain hkept | ⟨hlt, p, hp, hfresh⟩ := batchTable_cases client env.timestamp projects
      (projectCounter w) w.storage.project pid
    · exact .kept hkept
    · exact .created hlt hp hfresh
  | fundProject _ found _ status positive _ =>
    exact touch_of_update found (.fund status positive) rfl
  | submitWork _ found _ status => exact touch_of_update found (.submit status) rfl
  | approveWork _ found _ status _ => exact touch_of_update found (.approve status) rfl
  | raiseDispute _ found _ => exact touch_of_update found .dispute rfl
  | resolveDispute _ _ found status => exact touch_of_update found (.resolve status) rfl
  | overdue _ found late => exact touch_of_update found (.expire late.2.1) rfl
  | _ => exact .kept rfl

theorem acted_of_ok {pid : Nat} {w w' : World} {i : Invocation} {r : Ret}
    (h : contract i w = .ok (r, w')) : acted pid w i = actionOn pid i.call r := by
  rw [acted, h]

/-- The contract refines the lifecycle, project by project. -/
theorem commit_touch (pid : Nat) (w : World) (i : Invocation) :
    Touch pid w (commit contract w i) (acted pid w i) := by
  obtain ⟨r, hr, hstep⟩ | ⟨⟨t, ht⟩, hsame⟩ := commit_step w i
  · rw [acted_of_ok hr]
    exact hstep.touch pid
  · have hnone : acted pid w i = none := by rw [acted, ht]
    rw [hsame, hnone]
    exact .kept rfl

/-! ## Finished projects -/

def Project.Finished (p : Project) : Prop := p.status = .completed ∨ p.status = .cancelled

/-- Work on the project is over: it is finished, or somebody disputes it. -/
def Project.Closed (p : Project) : Prop := p.Finished ∨ p.status = .disputed

def Project.Spent (p : Project) : Prop := p.deposited = 0 ∧ p.Closed

/-- A finished project holds no deposit. -/
def Project.Settled (p : Project) : Prop := p.Finished → p.deposited = 0

namespace Project.Moves

variable {p p' : Project} {a : Action}

theorem settled (h : p.Moves a p') : p'.Settled := by
  intro hfin
  cases h with
  | fund status positive =>
    unfold Finished Project.fund at hfin
    split at hfin <;> simp [status] at hfin
  | submit status => simp [Finished, Project.submit] at hfin
  | approve status => rfl
  | dispute => simp [Finished, Project.dispute] at hfin
  | resolve status => rfl
  | expire live => rfl

/-- A closed project can only be disputed or resolved, and stays closed. -/
theorem closed (h : p.Moves a p') (hc : p.Closed) :
    p'.Closed ∧ (a = .dispute ∧ p' = p.dispute ∨
      ∃ release, a = .resolve release ∧ p' = p.resolve release) := by
  unfold Closed Finished at hc
  cases h with
  | fund status positive => simp [status] at hc
  | submit status => rcases status with status | status <;> simp [status] at hc
  | approve status => rcases status with status | status <;> simp [status] at hc
  | dispute => exact ⟨.inr rfl, .inl ⟨rfl, rfl⟩⟩
  | @resolve release status =>
    refine ⟨.inl ?_, .inr ⟨release, rfl, rfl⟩⟩
    cases release with
    | true => exact .inl rfl
    | false => exact .inr rfl
  | expire live => exact absurd (by tauto) live

theorem spent (h : p.Moves a p') (hs : p.Spent) : p'.Spent := by
  obtain ⟨hc, ⟨_, rfl⟩ | ⟨release, _, rfl⟩⟩ := h.closed hs.2
  · exact ⟨hs.1, hc⟩
  · exact ⟨rfl, hc⟩

/-- The one move out of a finished project. -/
theorem finished (h : p.Moves a p') (hf : p.Finished) : a = .dispute := by
  obtain ⟨_, ⟨ha, _⟩ | ⟨release, rfl, _⟩⟩ := h.closed (.inl hf)
  · exact ha
  · cases h with
    | resolve status => rcases hf with hf | hf <;> simp [hf] at status

/-- No move touches what the parties agreed on. -/
theorem parties (h : p.Moves a p') :
    p'.client = p.client ∧ p'.freelancer = p.freelancer ∧ p'.amount = p.amount := by
  cases h <;> exact ⟨rfl, rfl, rfl⟩

end Project.Moves

namespace Touch

variable {pid : Nat} {w w' : World} {act : Option Action}

theorem settled (ht : Touch pid w w' act)
    (h : ∀ p, w.storage.project pid = some p → p.Settled) :
    ∀ p, w'.storage.project pid = some p → p.Settled := by
  intro p hp
  cases ht with
  | kept same => exact h p (same ▸ hp)
  | created _ stored fresh =>
    obtain rfl := Option.some.inj (stored.symm.trans hp)
    exact fun _ => fresh.2
  | moved _ stored moves =>
    obtain rfl := Option.some.inj (stored.symm.trans hp)
    exact moves.settled

/-- A spent project stays spent, and only a dispute gives a finished one another status. -/
theorem spent (ht : Touch pid w w' act) {p : Project} (hp : w.storage.project pid = some p)
    (hle : pid ≤ projectCounter w) (hs : p.Spent) :
    ∃ q, w'.storage.project pid = some q ∧ q.Spent ∧
      (p.Finished → act ≠ some .dispute → q.status = p.status) := by
  cases ht with
  | kept same => exact ⟨p, same.trans hp, hs, fun _ _ => rfl⟩
  | created beyond _ _ => exact absurd hle (Nat.not_le.mpr beyond)
  | @moved a p₀ q found stored moves =>
    obtain rfl := Option.some.inj (found.symm.trans hp)
    refine ⟨q, stored, moves.spent hs, fun hfin hne => ?_⟩
    exact absurd (congrArg some (moves.finished hfin)) hne

end Touch

/-- No project of the contract is finished with a deposit left. -/
def AllSettled (w : World) : Prop := ∀ pid p, w.storage.project pid = some p → p.Settled

theorem run_allSettled {w : World} (hw : Initialized w) (is : List Invocation) :
    AllSettled (run contract w is) := by
  refine run_preserves (fun v i hv pid => (commit_touch pid v i).settled (hv pid)) ?_ is
  obtain ⟨admin, rfl⟩ := hw.storage
  intro pid p hp
  contradiction

/-- The invocation is a dispute of `pid` that goes through: the caller is the
project's client or freelancer and has signed, and the contract is not paused. -/
def CanDispute (pid : Nat) (w : World) (i : Invocation) : Prop :=
  ∃ caller p, i.call = .raiseDispute pid caller ∧ Entered i.env w caller ∧
    w.storage.project pid = some p ∧ (caller = p.client ∨ caller = p.freelancer)

theorem Step.disputed {env : Env} {w w' : World} {call : Call} {r : Ret} {pid : Nat}
    (h : Step env w call r w') (ha : actionOn pid call r = some .dispute) :
    CanDispute pid w ⟨env, call⟩ := by
  cases h with
  | @raiseDispute projectId caller p entered found party =>
    by_cases he : projectId = pid
    · subst he
      exact ⟨caller, p, rfl, entered, found, party⟩
    · rw [actionOn, if_neg he] at ha
      contradiction
  | view hv => cases call <;> simp [Call.gate, actionOn] at hv ha
  | _ => simp [actionOn] at ha

theorem canDispute_of_acted {pid : Nat} {w : World} {i : Invocation}
    (h : acted pid w i = some .dispute) : CanDispute pid w i := by
  obtain ⟨r, hr, hstep⟩ | ⟨⟨t, ht⟩, _⟩ := commit_step w i
  · exact hstep.disputed ((acted_of_ok hr).symm.trans h)
  · rw [acted, ht] at h
    contradiction

/-- Such a dispute goes through whatever the status of the project is. -/
theorem status_of_canDispute {pid : Nat} {w : World} {i : Invocation} (h : CanDispute pid w i) :
    ((commit contract w i).storage.project pid).map Project.status = some .disputed := by
  obtain ⟨caller, p, hcall, hentered, hfound, hparty⟩ := h
  have hi : invoke i.call = returns (fun _ => .unit) (raiseDispute pid caller) := by
    rw [hcall]; rfl
  rw [commit_of_returns hi ((raiseDispute_ok (u := ())).mpr ⟨hentered, p, hfound, hparty, rfl⟩)]
  simp [leave, Storage.putProject, Project.dispute]

/-- What holds of a spent project in every later state of the run. -/
theorem run_spent {w : World} {pid : Nat} {p : Project} {is : List Invocation}
    (hreg : Registered w) (hp : w.storage.project pid = some p) (hs : p.Spent)
    (hi : NoInitialize is) :
    ∃ q, (run contract w is).storage.project pid = some q ∧ q.Spent := by
  refine (run_invariant
    (I := fun v => Registered v ∧ ∃ q, v.storage.project pid = some q ∧ q.Spent)
    (fun v i hv hn => ?_) ⟨hreg, p, hp, hs⟩ (along_forall.mpr hi)).2
  obtain ⟨hregv, q, hq, hsq⟩ := hv
  obtain ⟨q', hq', hsq', _⟩ := (commit_touch pid v i).spent hq (hregv.projects.le hq) hsq
  exact ⟨commit_registered hregv (fun hyes => by simp [hn] at hyes), q', hq', hsq'⟩

/-- A finished project keeps its status as long as nobody disputes it. -/
theorem run_finished {w : World} {pid : Nat} {p : Project} {is : List Invocation}
    (hreg : Registered w) (hp : w.storage.project pid = some p) (hs : p.Spent)
    (hf : p.Finished) (hi : NoInitialize is)
    (hd : Along contract (fun v i => ¬ CanDispute pid v i) w is) :
    ((run contract w is).storage.project pid).map Project.status = some p.status := by
  have hinv := run_invariant
    (I := fun v => Registered v ∧ ∃ q, v.storage.project pid = some q ∧ q.Spent ∧
      q.status = p.status)
    (fun v i hv hn => ?_) ⟨hreg, p, hp, hs, rfl⟩ ((along_forall.mpr hi).and hd)
  · obtain ⟨_, q, hq, _, hstatus⟩ := hinv
    rw [hq, Option.map_some, hstatus]
  · obtain ⟨hregv, q, hq, hsq, hstatus⟩ := hv
    have hfq : q.Finished := by rw [Project.Finished, hstatus]; exact hf
    obtain ⟨q', hq', hsq', hkeep⟩ := (commit_touch pid v i).spent hq (hregv.projects.le hq) hsq
    have hstatus' := hkeep hfq (fun ha => hn.2 (canDispute_of_acted ha))
    exact ⟨commit_registered hregv (fun hyes => by simp [hn.1] at hyes), q', hq', hsq',
      hstatus'.trans hstatus⟩

/-- After one initialization, a finished project has an empty deposit for the rest
of the run; and its status is kept for the rest of the run exactly when no call of
it is a dispute of the project by one of its parties. -/
theorem finished_project_of_run {w : World} (hw : Initialized w) {pre post : List Invocation}
    (hpre : NoInitialize pre) (hpost : NoInitialize post) {pid : Nat} {p : Project}
    (hp : (run contract w pre).storage.project pid = some p) (hf : p.Finished) :
    (∀ mid, mid <+: post →
      ((run contract (run contract w pre) mid).storage.project pid).map Project.deposited =
        some 0) ∧
    ((∀ mid, mid <+: post →
      ((run contract (run contract w pre) mid).storage.project pid).map Project.status =
        some p.status) ↔
      Along contract (fun v i => ¬ CanDispute pid v i) (run contract w pre) post) := by
  have hreg := run_registered hw.registered hpre
  have hs : p.Spent := ⟨run_allSettled hw pre pid p hp hf, .inl hf⟩
  have hsub : ∀ mid, mid <+: post → NoInitialize mid :=
    fun mid hmid i him => hpost i (hmid.subset him)
  refine ⟨fun mid hmid => ?_, fun hkept => ?_, fun hd mid hmid => ?_⟩
  · obtain ⟨q, hq, hsq⟩ := run_spent hreg hp hs (hsub mid hmid)
    rw [hq, Option.map_some, hsq.1]
  · refine along_iff_initial.mpr fun mid i hmid hdispute => ?_
    have hstatus := hkept (mid ++ [i]) hmid
    rw [run_snoc, status_of_canDispute hdispute] at hstatus
    rcases hf with hf | hf <;> simp [hf] at hstatus
  · exact run_finished hreg hp hs hf (hsub mid hmid) (hd.initial hmid)

/-- One project, funded in two parts, delivered and paid. -/
def delivered : List Invocation :=
  [invokedBy ⟨2⟩ 1 (.createProject ⟨2⟩ ⟨3⟩ 100 "site" "" 0),
    invokedBy ⟨2⟩ 2 (.fundProject 1 ⟨2⟩ 40), invokedBy ⟨2⟩ 3 (.fundProject 1 ⟨2⟩ 70),
    invokedBy ⟨3⟩ 4 (.submitWork 1 ⟨3⟩ "repo"), invokedBy ⟨2⟩ 5 (.approveWork 1 ⟨2⟩)]

theorem finished_project_of_delivered :
    ((run contract (run contract started delivered)
      [invokedBy ⟨4⟩ 9 (.checkDeadline 1)]).storage.project 1).map Project.deposited = some 0 :=
  (finished_project_of_run initialized_started (show NoInitialize delivered by decide)
    (by decide) rfl (.inl rfl)).1 _ List.prefix_rfl

/-- The freelancer disputes the project after it is completed, and it is reopened. -/
theorem delivered_project_reopened :
    ((run contract started delivered).storage.project 1).map Project.status = some .completed ∧
    ((run contract started (delivered ++ [invokedBy ⟨3⟩ 6 (.raiseDispute 1 ⟨3⟩)])).storage.project
      1).map Project.status = some .disputed :=
  ⟨rfl, rfl⟩

end AgenticPayContract
