import AgenticPay.Transaction
import AgenticPay.PauseSecurity
import Mathlib.Data.List.Perm.Subperm

/-!
# How a pause ends

While the contract is paused, its storage tells when the latest pause was and
which signers have approved the unpause since. An approval that completes the
threshold ends the pause, and so does anybody once its time has come; and so does
`initialize`, which does not ask whether the contract is initialized.
-/
namespace PauseSecurityContract

open Soroban Contract Transaction PastTime

variable {env : Env} {w v : World} {i : Submission Call} {cs : List (Submission Call)}
  {s s' : Storage} {voters : List Address}

def Accepted (v : World) (i : Submission Call) : Prop := ∃ r v', contract i v = .ok (r, v')

/-- An accepted `emergency_pause`. -/
def Pauses (v : World) (i : Submission Call) : Prop :=
  (∃ guardian, i.call = .emergencyPause guardian) ∧ Accepted v i

def PausesAt (t : Nat) (v : World) (i : Submission Call) : Prop :=
  Pauses v i ∧ i.env.timestamp = t

/-- An accepted `approve_unpause` of the signer `a`. -/
def Approves (a : Address) (v : World) (i : Submission Call) : Prop :=
  i.call = .approveUnpause a ∧ Accepted v i

/-! ## The record of a pause -/

/-- The stored approvals are those of `voters`, and they do not complete the threshold. -/
structure Voted (s : Storage) (voters : List Address) : Prop where
  distinct : voters.Nodup
  counted : s.unpauseApprovalCount.getD 0 = voters.length
  members : ∀ a ∈ voters, a ∈ s.unpauseSigners.getD []
  approved : ∀ a ∈ voters, (s.signerApproved a).getD false = true
  short : voters ≠ [] → voters.length < s.unpauseThreshold.getD 0

/-- The storage after a run tells the time of its latest pause, and who approved since. -/
structure Recorded (w : World) (cs : List (Submission Call)) : Prop where
  latest : ∀ t, Since contract (PausesAt t) Pauses w cs ↔
    t = (run contract w cs).storage.pausedAt.getD 0
  voters : ∃ voters, Voted (run contract w cs).storage voters ∧
    ∀ a, Since contract (Approves a) Pauses w cs ↔ a ∈ voters

/-- What a record depends on is the same. -/
structure SameRecord (s s' : Storage) : Prop where
  pausedAt : s'.pausedAt = s.pausedAt
  count : s'.unpauseApprovalCount = s.unpauseApprovalCount
  signers : s'.unpauseSigners = s.unpauseSigners
  approved : s'.signerApproved = s.signerApproved
  threshold : s'.unpauseThreshold = s.unpauseThreshold

theorem SameRecord.voted (h : SameRecord s s') (hv : Voted s voters) : Voted s' voters := by
  constructor
  · exact hv.distinct
  · rw [h.count]
    exact hv.counted
  · rw [h.signers]
    exact hv.members
  · rw [h.approved]
    exact hv.approved
  · rw [h.threshold]
    exact hv.short

theorem Voted.fresh (hv : Voted s voters) {a : Address}
    (ha : (s.signerApproved a).getD false = false) : a ∉ voters := by
  intro hin
  rw [hv.approved a hin] at ha
  contradiction

/-- A call that neither pauses nor approves keeps the record. -/
theorem Recorded.carry (h : Recorded w cs)
    (hsame : SameRecord (run contract w cs).storage (run contract w (cs ++ [i])).storage)
    (hpause : ¬ Pauses (run contract w cs) i)
    (happrove : ∀ a, ¬ Approves a (run contract w cs) i) : Recorded w (cs ++ [i]) := by
  constructor
  · intro t
    have hnot : ¬ PausesAt t (run contract w cs) i := fun hp => hpause hp.1
    rw [since_snoc, hsame.pausedAt, ← h.latest t]
    simp [hnot, hpause]
  · obtain ⟨voters, hvoted, hsince⟩ := h.voters
    refine ⟨voters, hsame.voted hvoted, fun a => ?_⟩
    rw [since_snoc, ← hsince a]
    simp [happrove a, hpause]

/-- A pause begins a new record. -/
theorem recorded_of_pauses {guardian : Address} (hcall : i.call = .emergencyPause guardian)
    (hret : Accepted (run contract w cs) i)
    (hnext : (run contract w (cs ++ [i])).storage =
      (run contract w cs).storage.haltAt i.env.timestamp) : Recorded w (cs ++ [i]) := by
  have hpause : Pauses (run contract w cs) i := ⟨⟨guardian, hcall⟩, hret⟩
  constructor
  · intro t
    rw [since_snoc, hnext]
    simp [PausesAt, hpause, Storage.haltAt, eq_comm]
  · refine ⟨[], ?_, fun a => ?_⟩
    · rw [hnext]
      exact ⟨List.nodup_nil, rfl, by simp, by simp, by simp⟩
    · rw [since_snoc]
      simp [Approves, hcall, hpause]

/-- An approval that leaves the contract paused adds its signer to the record. -/
theorem Recorded.approve (h : Recorded w cs) {signer : Address}
    (hcall : i.call = .approveUnpause signer) (hret : Accepted (run contract w cs) i)
    (hmember : signer ∈ (run contract w cs).storage.unpauseSigners.getD [])
    (hfresh : ((run contract w cs).storage.signerApproved signer).getD false = false)
    (hshort : (run contract w cs).storage.unpauseApprovalCount.getD 0 + 1 <
      (run contract w cs).storage.unpauseThreshold.getD 0)
    (hnext : (run contract w (cs ++ [i])).storage =
      (run contract w cs).storage.approved signer) : Recorded w (cs ++ [i]) := by
  have hpause : ¬ Pauses (run contract w cs) i := by simp [Pauses, hcall]
  constructor
  · intro t
    have hnot : ¬ PausesAt t (run contract w cs) i := fun hp => hpause hp.1
    rw [since_snoc, hnext]
    simpa [hnot, hpause, Storage.approved, Storage.putApproved] using h.latest t
  · obtain ⟨voters, hvoted, hsince⟩ := h.voters
    have hnew : signer ∉ voters := hvoted.fresh hfresh
    refine ⟨signer :: voters, ?_, fun a => ?_⟩
    · rw [hnext]
      constructor
      · exact List.nodup_cons.mpr ⟨hnew, hvoted.distinct⟩
      · simp [Storage.approved, hvoted.counted]
      · intro a ha
        rcases List.mem_cons.mp ha with rfl | ha
        · exact hmember
        · exact hvoted.members a ha
      · intro a ha
        rcases List.mem_cons.mp ha with rfl | ha
        · simp [Storage.approved, Storage.putApproved]
        · have hne : a ≠ signer := fun he => hnew (he ▸ ha)
          simpa [Storage.approved, Storage.putApproved, hne] using hvoted.approved a ha
      · intro _
        rw [hvoted.counted] at hshort
        exact hshort
    · rw [since_snoc, hsince a, List.mem_cons]
      simp [Approves, hcall, hret, hpause, eq_comm]

/-- What an accepted call can have done that leaves the contract paused. -/
theorem Step.still_paused {call : Call} (h : Step env w call v) (hflag : v.storage.flag = true) :
    (∃ guardian, call = .emergencyPause guardian ∧
      v.storage = w.storage.haltAt env.timestamp) ∨
    w.storage.flag = true ∧
      ((∃ signer, call = .approveUnpause signer ∧ v.storage = w.storage.approved signer ∧
        signer ∈ w.storage.unpauseSigners.getD [] ∧
        (w.storage.signerApproved signer).getD false = false ∧
        w.storage.unpauseApprovalCount.getD 0 + 1 < w.storage.unpauseThreshold.getD 0) ∨
      SameRecord w.storage v.storage ∧ (∀ guardian, call ≠ .emergencyPause guardian) ∧
        ∀ signer, call ≠ .approveUnpause signer) := by
  cases h with
  | viewed isView =>
    refine .inr ⟨hflag, .inr ⟨⟨rfl, rfl, rfl, rfl, rfl⟩, ?_, ?_⟩⟩ <;> rintro _ rfl <;>
      contradiction
  | @paused guardian _ _ _ => exact .inl ⟨guardian, rfl, rfl⟩
  | @approved signer _ _ halted member fresh short =>
    exact .inr ⟨halted.1, .inl ⟨signer, rfl, rfl, member, fresh, short⟩⟩
  | guardianSet _ _ => exact .inr ⟨hflag, .inr ⟨⟨rfl, rfl, rfl, rfl, rfl⟩, by simp, by simp⟩⟩
  | timeoutSet _ _ _ => exact .inr ⟨hflag, .inr ⟨⟨rfl, rfl, rfl, rfl, rfl⟩, by simp, by simp⟩⟩
  | _ => contradiction

theorem recorded_snoc (h : (run contract w cs).storage.flag = true → Recorded w cs)
    (hflag : (run contract w (cs ++ [i])).storage.flag = true) : Recorded w (cs ++ [i]) := by
  rcases commit_step (run contract w cs) i with ⟨⟨r, hr⟩, hstep⟩ | ⟨⟨t, ht⟩, hsame⟩
  · have hret : Accepted (run contract w cs) i := ⟨r, _, hr⟩
    rw [← run_snoc] at hstep
    rcases hstep.still_paused hflag with ⟨guardian, hcall, hnext⟩ | ⟨hbefore,
      ⟨signer, hcall, hnext, hmember, hfresh, hshort⟩ | ⟨hsame, hpause, happrove⟩⟩
    · exact recorded_of_pauses hcall hret hnext
    · exact (h hbefore).approve hcall hret hmember hfresh hshort hnext
    · exact (h hbefore).carry hsame (fun hp => hp.1.elim hpause) fun a ha => happrove a ha.1
  · have hnext : run contract w (cs ++ [i]) = run contract w cs := by rw [run_snoc, hsame]
    rw [hnext] at hflag
    have hnot : ¬ Accepted (run contract w cs) i := by
      rintro ⟨r, v', hr⟩
      rw [ht] at hr
      contradiction
    refine (h hflag).carry ?_ (fun hp => hnot hp.2) (fun _ ha => hnot ha.2)
    rw [hnext]
    exact ⟨rfl, rfl, rfl, rfl, rfl⟩

/-- The state a successful `initialize` leaves. -/
def Initialized (w : World) : Prop :=
  ∃ admin guardian unpauseSigners threshold timeout env v,
    initializeContract admin guardian unpauseSigners threshold timeout env v = .ok ((), w)

theorem Initialized.unpaused (h : Initialized w) : w.storage.flag = false := by
  obtain ⟨admin, guardian, unpauseSigners, threshold, timeout, env, v, h⟩ := h
  obtain ⟨_, _, _, rfl⟩ := initializeContract_ok.mp h
  rfl

theorem recorded_run (hinit : Initialized w) (cs : List (Submission Call))
    (hflag : (run contract w cs).storage.flag = true) : Recorded w cs := by
  induction cs using List.reverseRecOn with
  | nil =>
    rw [run_nil, hinit.unpaused] at hflag
    contradiction
  | append_singleton cs i ih => exact recorded_snoc ih hflag

/-! ## The end of a pause -/

/-- The admin, or a signer, of the configuration in force. -/
def Configured (s : Storage) (a : Address) : Prop :=
  a ∈ s.unpauseSigners.getD [] ∨ s.admin = some a

/-- At least `threshold` distinct signers have approved since the latest pause. -/
def Quorate (w : World) (mid : List (Submission Call)) (i : Submission Call) : Prop :=
  ∃ voters : List Address, voters.Nodup ∧
    (run contract w mid).storage.unpauseThreshold.getD 0 ≤ voters.length ∧
    ∀ a ∈ voters, a ∈ (run contract w mid).storage.unpauseSigners.getD [] ∧
      Since contract (Approves a) Pauses w (mid ++ [i])

/-- The time of the call has reached that of the latest pause by the timeout in force. -/
def Overdue (w : World) (mid : List (Submission Call)) (i : Submission Call) : Prop :=
  ∃ t, Since contract (PausesAt t) Pauses w mid ∧
    0 < (run contract w mid).storage.unpauseTimeout.getD 0 ∧
    t + (run contract w mid).storage.unpauseTimeout.getD 0 ≤ i.env.timestamp

/-- A pause ends in time, or by a quorum and a call that the admin or a signer authorized. -/
def EndsRightly (w : World) (mid : List (Submission Call)) (i : Submission Call) : Prop :=
  Overdue w mid i ∨
    Quorate w mid i ∧ ∃ a ∈ i.env.auths, Configured (run contract w mid).storage a

/-- An `initialize` that passes the checks of the contract. -/
def Initializes (i : Submission Call) : Prop :=
  ∃ admin guardian unpauseSigners threshold timeout,
    i.call = .initializeContract admin guardian unpauseSigners threshold timeout ∧
    admin ∈ i.env.auths ∧ timeout ≤ maxUnpauseTimeout ∧ threshold ≤ unpauseSigners.length

/-- An `initialize` that gets through in the middle of a pause. -/
def Usurps (v : World) (i : Submission Call) : Prop :=
  Initializes i ∧ v.storage.flag = true ∧ ¬ Expired i.env v.storage ∧
    (v.storage.unpauseThreshold.getD 0 = 0 → ∀ a ∈ i.env.auths, ¬ Configured v.storage a)

/-- The three ways in which an accepted call can end a pause. -/
theorem Step.ends (h : Step i.env w i.call v) (hbefore : w.storage.flag = true)
    (hafter : v.storage.flag = false) :
    (∃ signer, i.call = .approveUnpause signer ∧ signer ∈ i.env.auths ∧
      signer ∈ w.storage.unpauseSigners.getD [] ∧
      (w.storage.signerApproved signer).getD false = false ∧
      w.storage.unpauseThreshold.getD 0 ≤ w.storage.unpauseApprovalCount.getD 0 + 1) ∨
    Expired i.env w.storage ∨ Initializes i := by
  unfold Initializes
  generalize i.call = call at h ⊢
  cases h with
  | initialized signed short enough =>
    exact .inr (.inr ⟨_, _, _, _, _, rfl, signed, short, enough⟩)
  | paused _ _ _ => contradiction
  | approved _ _ _ _ _ _ =>
    have hkept : true = false := hbefore.symm.trans hafter
    contradiction
  | @resumed signer signed _ _ member fresh enough =>
    exact .inl ⟨signer, rfl, signed, member, fresh, enough⟩
  | finalized _ _ expired _ => exact .inr (.inl expired)
  | _ =>
    have hkept : true = false := hbefore.symm.trans hafter
    contradiction

theorem Recorded.overdue_iff (h : Recorded w cs) :
    Overdue w cs i ↔ Expired i.env (run contract w cs).storage := by
  constructor
  · rintro ⟨t, hlatest, htimeout, hlate⟩
    rw [(h.latest t).mp hlatest] at hlate
    exact ⟨htimeout, hlate⟩
  · rintro ⟨htimeout, hlate⟩
    exact ⟨_, (h.latest _).mpr rfl, htimeout, hlate⟩

/-- The approval that completes the count completes a quorum. -/
theorem Recorded.quorate (h : Recorded w cs) {signer : Address}
    (hcall : i.call = .approveUnpause signer) (hret : Accepted (run contract w cs) i)
    (hmember : signer ∈ (run contract w cs).storage.unpauseSigners.getD [])
    (hfresh : ((run contract w cs).storage.signerApproved signer).getD false = false)
    (henough : (run contract w cs).storage.unpauseThreshold.getD 0 ≤
      (run contract w cs).storage.unpauseApprovalCount.getD 0 + 1) : Quorate w cs i := by
  obtain ⟨voters, hvoted, hsince⟩ := h.voters
  have hnew : signer ∉ voters := hvoted.fresh hfresh
  refine ⟨signer :: voters, List.nodup_cons.mpr ⟨hnew, hvoted.distinct⟩, ?_, fun a ha => ?_⟩
  · rw [hvoted.counted] at henough
    exact henough
  · rw [since_snoc]
    rcases List.mem_cons.mp ha with rfl | ha
    · exact ⟨hmember, .inl ⟨hcall, hret⟩⟩
    · exact ⟨hvoted.members a ha, .inr ⟨(hsince a).mpr ha, by simp [Pauses, hcall]⟩⟩

/-- Before that there is none, but for a threshold of zero. -/
theorem Recorded.not_quorate (h : Recorded w cs) (hinit : Initializes i)
    (hpos : (run contract w cs).storage.unpauseThreshold.getD 0 ≠ 0) : ¬ Quorate w cs i := by
  rintro ⟨approvers, hdistinct, hle, happroved⟩
  obtain ⟨voters, hvoted, hsince⟩ := h.voters
  obtain ⟨admin, guardian, unpauseSigners, threshold, timeout, hcall, -⟩ := hinit
  have hsub : approvers ⊆ voters := by
    intro a ha
    have hsnoc := (happroved a ha).2
    rw [since_snoc] at hsnoc
    simp only [Approves, hcall, reduceCtorEq, false_and, false_or] at hsnoc
    exact (hsince a).mp hsnoc.1
  have hlen : approvers.length ≤ voters.length := (hdistinct.subperm hsub).length_le
  by_cases hnone : voters = []
  · rw [hnone, List.length_nil] at hlen
    omega
  · have hshort := hvoted.short hnone
    omega

theorem commit_initializes (v : World) (h : Initializes i) :
    (commit contract v i).storage.flag = false := by
  obtain ⟨admin, guardian, unpauseSigners, threshold, timeout, hcall, hsigned, hshort, henough⟩ := h
  have hret : initializeContract admin guardian unpauseSigners threshold timeout i.env v =
      .ok ((), _) :=
    (initializeContract_ok (u := ())).mpr ⟨hsigned, hshort, henough, rfl⟩
  rw [contract, commit_returning (by rw [hcall]; rfl) hret]
  rfl

/-- The members of a configuration and what they need are the same. -/
structure SameConfig (s s' : Storage) : Prop where
  admin : s'.admin = s.admin
  signers : s'.unpauseSigners = s.unpauseSigners
  threshold : s'.unpauseThreshold = s.unpauseThreshold

/-- Without another `initialize` the configuration stays, and the timeout is the admin's. -/
theorem commit_config (v : World) (hinit : ¬ Initializes i) :
    SameConfig v.storage (commit contract v i).storage ∧
      ((∀ a ∈ i.env.auths, v.storage.admin ≠ some a) →
        (commit contract v i).storage.unpauseTimeout = v.storage.unpauseTimeout) := by
  rcases commit_step v i with ⟨-, hstep⟩ | ⟨-, hsame⟩
  · generalize commit contract v i = v' at hstep
    unfold Initializes at hinit
    generalize i.call = call at hstep hinit
    cases hstep with
    | initialized signed short enough =>
      exact absurd ⟨_, _, _, _, _, rfl, signed, short, enough⟩ hinit
    | timeoutSet signed owner _ =>
      exact ⟨⟨rfl, rfl, rfl⟩, fun hnone => absurd owner (hnone _ signed)⟩
    | _ => exact ⟨⟨rfl, rfl, rfl⟩, fun _ => rfl⟩
  · rw [hsame]
    exact ⟨⟨rfl, rfl, rfl⟩, fun _ => rfl⟩

theorem sameConfig_run {cs : List (Submission Call)}
    (hnone : Along contract (fun _ i => ¬ Initializes i) w cs) :
    SameConfig w.storage (run contract w cs).storage := by
  refine run_invariant (I := fun v => SameConfig w.storage v.storage) ?_ ⟨rfl, rfl, rfl⟩ hnone
  intro v i hv hi
  have hnext := (commit_config v hi).1
  exact ⟨hnext.admin.trans hv.admin, hnext.signers.trans hv.signers,
    hnext.threshold.trans hv.threshold⟩

/-- A call that does not usurp ends a pause rightly. -/
theorem Recorded.endsRightly (h : Recorded w cs)
    (hbefore : (run contract w cs).storage.flag = true)
    (hafter : (run contract w (cs ++ [i])).storage.flag = false)
    (hfree : ¬ Usurps (run contract w cs) i) : EndsRightly w cs i := by
  rcases commit_step (run contract w cs) i with ⟨⟨r, hr⟩, hstep⟩ | ⟨-, hsame⟩
  · rw [← run_snoc] at hstep
    rcases hstep.ends hbefore hafter with
      ⟨signer, hcall, hsigned, hmember, hfresh, henough⟩ | hexpired | hin
    · have hquorate := h.quorate hcall ⟨r, _, hr⟩ hmember hfresh henough
      exact .inr ⟨hquorate, signer, hsigned, .inl hmember⟩
    · exact .inl (h.overdue_iff.mpr hexpired)
    · by_cases hexpired : Expired i.env (run contract w cs).storage
      · exact .inl (h.overdue_iff.mpr hexpired)
      · have hown : (run contract w cs).storage.unpauseThreshold.getD 0 = 0 ∧
            ∃ a ∈ i.env.auths, Configured (run contract w cs).storage a := by
          by_contra hno
          exact hfree ⟨hin, hbefore, hexpired, fun hzero a ha hconf => hno ⟨hzero, a, ha, hconf⟩⟩
        exact .inr ⟨⟨[], List.nodup_nil, hown.1.le, by simp⟩, hown.2⟩
  · rw [run_snoc, hsame, hbefore] at hafter
    contradiction

/-- A call that usurps ends a pause wrongly. -/
theorem Recorded.not_endsRightly (h : Recorded w cs) (husurps : Usurps (run contract w cs) i) :
    ¬ EndsRightly w cs i := by
  obtain ⟨hin, -, hearly, hzero⟩ := husurps
  rintro (hoverdue | ⟨hquorate, a, ha, hconf⟩)
  · exact hearly (h.overdue_iff.mp hoverdue)
  · by_cases hthreshold : (run contract w cs).storage.unpauseThreshold.getD 0 = 0
    · exact hzero hthreshold a ha hconf
    · exact h.not_quorate hin hthreshold hquorate

/-- Initialized by the admin `⟨1⟩` with the guardian `⟨2⟩` and the signers `⟨3⟩` and `⟨4⟩`. -/
def guarded : World where
  storage := deployed.storage.configured ⟨1⟩ ⟨2⟩ [⟨3⟩, ⟨4⟩] 2 3600
  events := []

theorem initialized_guarded : Initialized guarded :=
  ⟨⟨1⟩, ⟨2⟩, [⟨3⟩, ⟨4⟩], 2, 3600, { timestamp := 10, auths := [⟨1⟩] }, deployed, rfl⟩

/-- A pause that both signers end. -/
def endedByBoth : List (Submission Call) :=
  [signedBy [⟨2⟩] 100 (.emergencyPause ⟨2⟩), signedBy [⟨3⟩] 110 (.approveUnpause ⟨3⟩),
    signedBy [⟨4⟩] 120 (.approveUnpause ⟨4⟩)]

/-- An `initialize` of the stranger `⟨9⟩`. -/
def strangerInitializes : Submission Call :=
  signedBy [⟨9⟩] 105 (.initializeContract ⟨9⟩ ⟨9⟩ [⟨9⟩] 1 0)

end PauseSecurityContract
