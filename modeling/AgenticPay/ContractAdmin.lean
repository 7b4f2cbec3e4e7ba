import AgenticPay.ContractRegistry

/-!
# The administrator and the numbering

`initialize` asks for the signature of the admin it is given and of nobody else,
and it can be called again. Apart from that entry point the stored admin never
changes, the breaker is released by the stored admin alone, and ids are handed
out once. The condition under which a call of `initialize` respects all this is
spelled out below, and runs that meet it keep the administration and the ids.
-/
namespace AgenticPayContract

open Soroban Contract Transaction Registry

/-- Where the call changes the stored admin or turns the breaker off, the admin
stored before the call has signed it. -/
def AdminKept (w : World) (i : Invocation) : Prop :=
  ∀ admin, w.storage.admin = some admin →
    (commit contract w i).storage.admin ≠ some admin ∨
      paused w = true ∧ paused (commit contract w i) = false →
    admin ∈ i.env.auths

/-- The projects and receipts the call creates go to keys without an entry. -/
def EntriesKept (w : World) (i : Invocation) : Prop :=
  ∃ es, (commit contract w i).events = w.events ++ es ∧
    (∀ id ∈ createdIds es, w.storage.project id = none) ∧
    ∀ id ∈ issuedIds es, w.storage.receipt id = none

/-- If the call initializes the contract, the admin stored so far has signed it. -/
def InitializedByAdmin (w : World) (i : Invocation) : Prop :=
  ∀ newAdmin, i.call = .initializeContract newAdmin → newAdmin ∈ i.env.auths →
    ∀ admin, w.storage.admin = some admin → admin ∈ i.env.auths

/-- If the call initializes the contract, no project and no receipt has been numbered. -/
def InitializedUnnumbered (w : World) (i : Invocation) : Prop :=
  ∀ newAdmin, i.call = .initializeContract newAdmin → newAdmin ∈ i.env.auths → Unnumbered w

section Steps

variable {env : Env} {w w' : World} {call : Call} {r : Ret}

/-- Apart from `initialize`, a step leaves admin and breaker alone or is signed
by the stored admin. -/
theorem Step.administration (h : Step env w call r w') (hi : call.isInitialize = false) :
    (w'.storage.admin = w.storage.admin ∧ paused w' = paused w) ∨
    ∃ admin, w.storage.admin = some admin ∧ admin ∈ env.auths := by
  cases h with
  | initializeContract _ => contradiction
  | pause hs hadm _ | unpause hs hadm _ => exact .inr ⟨_, hadm, hs⟩
  | _ => exact .inl ⟨rfl, rfl⟩

theorem Step.initialized (h : Step env w call r w') (hi : call.isInitialize = true) :
    ∃ newAdmin, call = .initializeContract newAdmin ∧ newAdmin ∈ env.auths ∧
      w'.storage.admin = some newAdmin := by
  cases h with
  | initializeContract hs => exact ⟨_, rfl, hs, rfl⟩
  | view hv => cases call <;> simp [Call.gate, Call.isInitialize] at hv hi
  | _ => contradiction

end Steps

/-- Any initialization that its own new admin signs goes through. -/
theorem commit_sets_admin {w : World} {i : Invocation} {newAdmin : Address}
    (hcall : i.call = .initializeContract newAdmin) (hsigned : newAdmin ∈ i.env.auths) :
    (commit contract w i).storage.admin = some newAdmin := by
  have hi : invoke i.call = returns (fun _ => .unit) (initializeContract newAdmin) := by
    rw [hcall]; rfl
  rw [commit_of_returns hi ((initializeContract_ok (u := ())).mpr ⟨hsigned, rfl⟩)]
  rfl

/-- Exactly the initializations the stored admin has not signed break the first law. -/
theorem adminKept_iff {w : World} {i : Invocation} :
    AdminKept w i ↔ InitializedByAdmin w i := by
  constructor
  · intro hkept newAdmin hcall hsigned admin hadm
    by_cases he : newAdmin = admin
    · rwa [← he]
    · apply hkept admin hadm
      rw [commit_sets_admin hcall hsigned]
      exact .inl (fun h => he (Option.some.inj h))
  · intro hinit admin hadm hchange
    obtain ⟨r, _, hstep⟩ | ⟨_, hsame⟩ := commit_step w i
    · cases hi : i.call.isInitialize with
      | false =>
        obtain ⟨hkeep, hpaused⟩ | ⟨_, hadm', hsigned⟩ := hstep.administration hi
        · rw [hkeep, hadm, hpaused] at hchange
          simp at hchange
        · rw [hadm] at hadm'
          rwa [Option.some.inj hadm']
      | true =>
        obtain ⟨newAdmin, hcall, hsigned, _⟩ := hstep.initialized hi
        exact hinit newAdmin hcall hsigned admin hadm
    · rw [hsame, hadm] at hchange
      simp at hchange

theorem entriesKept_of_unnumbered {w : World} {i : Invocation} (hw : Registered w)
    (hi : InitializedUnnumbered w i) : EntriesKept w i := by
  obtain ⟨r, _, hstep⟩ | ⟨_, hsame⟩ := commit_step w i
  · have hnum : i.call.isInitialize = true → Unnumbered w := by
      intro hyes
      obtain ⟨newAdmin, hcall, hsigned, _⟩ := hstep.initialized hyes
      exact hi newAdmin hcall hsigned
    obtain ⟨es, hes, hp⟩ := hstep.projects_grow hnum
    obtain ⟨fs, hfs, hr⟩ := hstep.receipts_grow hnum
    obtain rfl : es = fs := List.append_cancel_left (hes.symm.trans hfs)
    exact ⟨es, hes, fun _ hid => hp.fresh hw.projects hid, fun _ hid => hr.fresh hw.receipts hid⟩
  · exact ⟨[], by rw [hsame, List.append_nil], by simp [createdIds], by simp [issuedIds]⟩

theorem commit_registered_of_unnumbered {w : World} {i : Invocation} (hw : Registered w)
    (hi : InitializedUnnumbered w i) : Registered (commit contract w i) := by
  refine commit_preserves (fun r w' hr => ?_) hw
  refine (step_of_ok hr).registered (fun hyes => ?_) hw
  obtain ⟨newAdmin, hcall, hsigned, _⟩ := (step_of_ok hr).initialized hyes
  exact hi newAdmin hcall hsigned

/-- In every run, admin and breaker stay under the stored admin's control exactly
when every initialization is signed by the admin stored before it; and when every
initialization comes before the first project and receipt, no id is handed out
twice and no entry is overwritten by a new one. -/
theorem administration_of_run (is : List Invocation) :
    (Along contract AdminKept deployed is ↔ Along contract InitializedByAdmin deployed is) ∧
    (Along contract InitializedUnnumbered deployed is →
      Along contract EntriesKept deployed is ∧
      (createdIds (run contract deployed is).events).Nodup ∧
      (issuedIds (run contract deployed is).events).Nodup) := by
  refine ⟨⟨Along.imp fun _ _ => adminKept_iff.mp, Along.imp fun _ _ => adminKept_iff.mpr⟩, ?_⟩
  intro hnum
  have hreg : Registered (run contract deployed is) :=
    run_invariant (fun _ _ => commit_registered_of_unnumbered) registered_deployed hnum
  refine ⟨?_, hreg.created.distinct, hreg.issued.distinct⟩
  exact along_of_invariant (fun _ _ => commit_registered_of_unnumbered) registered_deployed hnum
    (fun _ _ => entriesKept_of_unnumbered)

/-- An initialized contract with one project, paused by its admin. -/
def halted : List Invocation :=
  [invokedBy ⟨1⟩ 0 (.initializeContract ⟨1⟩),
    invokedBy ⟨2⟩ 1 (.createProject ⟨2⟩ ⟨3⟩ 100 "site" "" 0), invokedBy ⟨1⟩ 2 (.pause ⟨1⟩)]

theorem administration_of_halted :
    Along contract AdminKept deployed halted ∧
    (createdIds (run contract deployed halted).events).Nodup := by
  have hsigned : Along contract InitializedByAdmin deployed halted := by
    refine ⟨fun _ _ _ _ hadm => ?_, fun _ hcall => ?_, fun _ hcall => ?_, trivial⟩
    · contradiction
    · contradiction
    · contradiction
  have hnum : Along contract InitializedUnnumbered deployed halted := by
    refine ⟨fun _ _ _ => ⟨rfl, rfl⟩, fun _ hcall => ?_, fun _ hcall => ?_, trivial⟩
    · contradiction
    · contradiction
  exact ⟨(administration_of_run halted).1.mpr hsigned, ((administration_of_run halted).2 hnum).2.1⟩

/-- A second `initialize`, signed by an outsider only, replaces the admin and lifts
the pause, and the next project takes over the id of the first one. -/
theorem initialize_again_takes_over :
    (run contract deployed halted).storage.admin = some ⟨1⟩ ∧
    ¬ AdminKept (run contract deployed halted) (invokedBy ⟨9⟩ 3 (.initializeContract ⟨9⟩)) ∧
    ¬ EntriesKept
        (run contract deployed (halted ++ [invokedBy ⟨9⟩ 3 (.initializeContract ⟨9⟩)]))
        (invokedBy ⟨9⟩ 4 (.createProject ⟨9⟩ ⟨9⟩ 1 "" "" 0)) ∧
    ¬ (createdIds (run contract deployed (halted ++
        [invokedBy ⟨9⟩ 3 (.initializeContract ⟨9⟩),
          invokedBy ⟨9⟩ 4 (.createProject ⟨9⟩ ⟨9⟩ 1 "" "" 0)])).events).Nodup := by
  refine ⟨rfl, ?_, ?_, by decide⟩
  · intro hkept
    have hsigned := hkept ⟨1⟩ rfl (.inr ⟨rfl, rfl⟩)
    revert hsigned
    decide
  · rintro ⟨es, hes, hfresh, _⟩
    obtain rfl : [Event.projectCreated 1 ⟨9⟩ ⟨9⟩ 1] = es := List.append_cancel_left hes
    have hnone := hfresh 1 (by decide)
    contradiction

end AgenticPayContract
