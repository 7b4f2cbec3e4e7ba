import AgenticPay.PaymentRequests
import AgenticPay.Registry

/-!
# The life of a payment request

A request is pending until it is paid, expires or is cancelled. What this takes
of the calls of a run is stated call by call: the entry points look at the
deadline and at the caller, and none of the three looks at the status.
-/
namespace PaymentRequestContract

open Soroban Contract Transaction

/-- A call pays pending requests in time, and takes no request out of a final status. -/
structure Orderly (w : World) (i : Submission Call) : Prop where
  payments : ∀ t ∈ (commit contract w i).storage.transfers.drop w.storage.transfers.length,
    ∃ req, w.storage.request t.request = some req ∧ req.status = .pending ∧
      i.env.timestamp ≤ req.expiresAt + req.gracePeriod
  final : ∀ id req, w.storage.request id = some req → req.status ≠ .pending →
    ∃ req', (commit contract w i).storage.request id = some req' ∧ req'.status = req.status

/-- A run whose calls are orderly, and in which each request is paid at most once. -/
structure Lifecycle (cs : List (Submission Call)) : Prop where
  orderly : Along contract Orderly deployed cs
  once : ∀ id, (run contract deployed cs).storage.transfers.countP (·.request = id) ≤ 1

/-- A call that passes the checks of its entry point finds the request in a status from
which the entry point may move it. -/
def StatusChecked (w : World) (i : Submission Call) : Prop :=
  match i.call with
  | .pay refusal payer id => ∀ req, w.storage.request id = some req →
      Payable i.env refusal payer req → req.status = .pending
  | .expireRequest id => ∀ req, w.storage.request id = some req →
      Expirable i.env req → req.status = .pending ∨ req.status = .expired
  | .cancelRequest requester id => ∀ req, w.storage.request id = some req →
      Owned i.env requester req → req.status = .pending ∨ req.status = .cancelled
  | _ => True

/-- The ids not handed out yet have no request. -/
def Fresh (w : World) : Prop := ∀ id, w.storage.next ≤ id → w.storage.request id = none

variable {env : Env} {call : Call} {w w' : World} {i : Submission Call} {req req' : PaymentRequest}
  {id : Nat}

theorem fresh_overwrite (h : Fresh w) (hfound : w.storage.request id = some req)
    (hrequest : w'.storage.request = Function.update w.storage.request id (some req'))
    (hnext : w'.storage.next = w.storage.next) : Fresh w' := by
  intro k hk
  rw [hnext] at hk
  rw [hrequest]
  exact Registry.overwrite_none hfound (h k hk)

theorem fresh_open (h : Fresh w)
    (hrequest : w'.storage.request = Function.update w.storage.request w.storage.next (some req'))
    (hnext : w'.storage.next = w.storage.next + 1) : Fresh w' := by
  intro k hk
  rw [hnext] at hk
  rw [hrequest, Function.update_of_ne (by omega)]
  exact h k (by omega)

theorem fresh_step (h : Fresh w) (hstep : Step env w call w') : Fresh w' := by
  cases hstep with
  | viewed => exact h
  | initialized => exact h
  | graceSet => exact h
  | created => exact fresh_open h rfl rfl
  | paid found => exact fresh_overwrite h found rfl rfl
  | expired found => exact fresh_overwrite h found rfl rfl
  | cancelled found => exact fresh_overwrite h found rfl rfl
  | renewed => exact fresh_open h rfl rfl

theorem fresh_commit (h : Fresh w) : Fresh (commit contract w i) := by
  obtain hstep | he := commit_step w i
  · exact fresh_step h hstep
  · rwa [he]

/-- A request after a write to one that exists is the written one, or as before. -/
theorem request_overwrite {k : Nat} {r : PaymentRequest}
    (hfound : w.storage.request id = some req) (hk : w.storage.request k = some r)
    (hrequest : w'.storage.request = Function.update w.storage.request id (some req'))
    (hstatus : r = req → r.status ≠ .pending → req'.status = r.status)
    (hsettled : r.status ≠ .pending) :
    ∃ r', w'.storage.request k = some r' ∧ r'.status = r.status := by
  rw [hrequest]
  obtain ⟨_, rfl, hnew⟩ | ⟨_, hold⟩ := Registry.overwrite_cases (v := req') hfound hk
  · exact ⟨req', hnew, hstatus rfl hsettled⟩
  · exact ⟨r, hold, rfl⟩

theorem request_open {k : Nat} {r : PaymentRequest} (h : Fresh w)
    (hk : w.storage.request k = some r)
    (hrequest :
      w'.storage.request = Function.update w.storage.request w.storage.next (some req')) :
    w'.storage.request k = some r := by
  have hne : k ≠ w.storage.next := by
    rintro rfl
    rw [h _ le_rfl] at hk
    contradiction
  rw [hrequest, Function.update_of_ne hne, hk]

/-- What a step leaves of a request in a final status, when the statuses are checked. -/
theorem final_step (h : Fresh w) (hcheck : StatusChecked w i) (hstep : Step i.env w i.call w')
    (hk : w.storage.request id = some req) (hsettled : req.status ≠ .pending) :
    ∃ req', w'.storage.request id = some req' ∧ req'.status = req.status := by
  generalize hcall : i.call = call at hstep
  rw [StatusChecked, hcall] at hcheck
  cases hstep with
  | viewed => exact ⟨req, hk, rfl⟩
  | initialized => exact ⟨req, hk, rfl⟩
  | graceSet => exact ⟨req, hk, rfl⟩
  | created => exact ⟨req, request_open h hk rfl, rfl⟩
  | paid found payable =>
    refine request_overwrite found hk rfl ?_ hsettled
    rintro rfl hne
    exact (hne (hcheck _ found payable)).elim
  | expired found expirable =>
    refine request_overwrite found hk rfl ?_ hsettled
    rintro rfl hne
    exact ((hcheck _ found expirable).resolve_left hne).symm
  | cancelled found owned =>
    refine request_overwrite found hk rfl ?_ hsettled
    rintro rfl hne
    exact ((hcheck _ found owned).resolve_left hne).symm
  | renewed => exact ⟨req, request_open h hk rfl, rfl⟩

/-- A step makes no transfer, or it is a payment and makes its own. -/
theorem transfers_step (hstep : Step env w call w') :
    w'.storage.transfers = w.storage.transfers ∨
      ∃ refusal payer id req, call = .pay refusal payer id ∧ w.storage.request id = some req ∧
        Payable env refusal payer req ∧
        w'.storage.request =
          Function.update w.storage.request id
            (some { req with status := .paid, paidAt := env.timestamp }) ∧
        w'.storage.transfers =
          w.storage.transfers ++ [⟨id, req.token, payer, req.requester, req.amount⟩] := by
  cases hstep with
  | viewed => exact .inl rfl
  | initialized => exact .inl rfl
  | graceSet => exact .inl rfl
  | created => exact .inl rfl
  | paid found payable => exact .inr ⟨_, _, _, _, rfl, found, payable, rfl, rfl⟩
  | expired => exact .inl rfl
  | cancelled => exact .inl rfl
  | renewed => exact .inl rfl

theorem orderly_of_checked (h : Fresh w) (hcheck : StatusChecked w i) : Orderly w i := by
  obtain hstep | he := commit_step w i
  · constructor
    · intro t ht
      obtain hsame | ⟨refusal, payer, id, req, hcall, hfound, hpayable, _, hadded⟩ :=
        transfers_step hstep
      · rw [hsame, List.drop_length] at ht
        contradiction
      · rw [hadded, List.drop_left, List.mem_singleton] at ht
        rw [StatusChecked, hcall] at hcheck
        subst ht
        exact ⟨req, hfound, hcheck req hfound hpayable, hpayable.inTime⟩
    · intro id req hk hsettled
      exact final_step h hcheck hstep hk hsettled
  · constructor
    · intro t ht
      rw [he, List.drop_length] at ht
      contradiction
    · intro id req hk _
      rw [he]
      exact ⟨req, hk, rfl⟩

/-- An orderly call that leaves a request in some status found it pending, or in that status. -/
theorem Orderly.left (h : Orderly w i) (hleft : commit contract w i = w')
    (hfound : w.storage.request id = some req) (hrequest : w'.storage.request id = some req') :
    req.status = .pending ∨ req.status = req'.status := by
  by_cases hpending : req.status = .pending
  · exact .inl hpending
  · obtain ⟨r, hr, hstatus⟩ := h.final id req hfound hpending
    rw [hleft, hrequest, Option.some_inj] at hr
    rw [hr]
    exact .inr hstatus.symm

/-- A call that gets through where the status should have stopped it is not orderly. -/
theorem checked_of_orderly (h : Orderly w i) : StatusChecked w i := by
  rw [StatusChecked]
  cases hcall : i.call with
  | pay refusal payer id =>
    intro req hfound hpayable
    have hret := (pay_ok (u := ())).mpr ⟨req, hfound, hpayable, rfl⟩
    have hpaid := h.payments ⟨id, req.token, payer, req.requester, req.amount⟩
    rw [contract, commit_returning (by rw [hcall]; rfl) hret, List.drop_left] at hpaid
    obtain ⟨req', hfound', hpending, _⟩ := hpaid List.mem_cons_self
    rw [hfound, Option.some_inj] at hfound'
    rwa [hfound']
  | expireRequest id =>
    intro req hfound hexpirable
    have hret := (expireRequest_ok (u := ())).mpr ⟨req, hfound, hexpirable, rfl⟩
    exact h.left (commit_returning (by rw [hcall]; rfl) hret) hfound (Function.update_self ..)
  | cancelRequest requester id =>
    intro req hfound howned
    have hret := (cancelRequest_ok (u := ())).mpr ⟨req, hfound, howned, rfl⟩
    exact h.left (commit_returning (by rw [hcall]; rfl) hret) hfound (Function.update_self ..)
  | _ => trivial

theorem orderly_iff (h : Fresh w) : Orderly w i ↔ StatusChecked w i :=
  ⟨checked_of_orderly, orderly_of_checked h⟩

/-! ## Payments of one request -/

/-- The request has not been paid, or it has been paid once and says so. -/
def PaidOnce (id : Nat) (w : World) : Prop :=
  w.storage.transfers.countP (·.request = id) = 0 ∨
    w.storage.transfers.countP (·.request = id) = 1 ∧
      ∃ req, w.storage.request id = some req ∧ req.status = .paid

theorem paidOnce_step (hfresh : Fresh w) (hcheck : StatusChecked w i)
    (hstep : Step i.env w i.call w') (h : PaidOnce id w) : PaidOnce id w' := by
  obtain hsame | ⟨refusal, payer, k, req, hcall, hfound, hpayable, hrequest, hadded⟩ :=
    transfers_step hstep
  · rw [PaidOnce, hsame]
    rcases h with hzero | ⟨hone, req, hreq, hpaid⟩
    · exact .inl hzero
    · obtain ⟨req', hreq', hstatus⟩ := final_step hfresh hcheck hstep hreq (by simp [hpaid])
      exact .inr ⟨hone, req', hreq', hstatus.trans hpaid⟩
  · have hpending : req.status = .pending := by
      rw [StatusChecked, hcall] at hcheck
      exact hcheck req hfound hpayable
    rw [PaidOnce, hadded, List.countP_append]
    by_cases hk : k = id
    · subst hk
      have hzero : w.storage.transfers.countP (·.request = k) = 0 := by
        rcases h with hzero | ⟨_, r, hr, hpaid⟩
        · exact hzero
        · rw [hfound, Option.some_inj] at hr
          rw [← hr, hpending] at hpaid
          contradiction
      have hone : 0 + [(⟨k, req.token, payer, req.requester, req.amount⟩ : Transfer)].countP
          (·.request = k) = 1 := by simp
      rw [hzero]
      exact .inr ⟨hone, _, by rw [hrequest, Function.update_self], rfl⟩
    · have hother : [(⟨k, req.token, payer, req.requester, req.amount⟩ : Transfer)].countP
          (·.request = id) = 0 := by simp [hk]
      rw [hother, Nat.add_zero]
      rcases h with hzero | ⟨hone, r, hr, hpaid⟩
      · exact .inl hzero
      · refine .inr ⟨hone, r, ?_, hpaid⟩
        rw [hrequest, Function.update_of_ne (Ne.symm hk), hr]

theorem paidOnce_commit (hfresh : Fresh w) (hcheck : StatusChecked w i) (h : PaidOnce id w) :
    PaidOnce id (commit contract w i) := by
  obtain hstep | he := commit_step w i
  · exact paidOnce_step hfresh hcheck hstep h
  · rwa [he]

/-- The requests of a run live as they should exactly when every call that gets through finds
its request in a status it may leave. -/
theorem lifecycle_iff_checked (cs : List (Submission Call)) :
    Lifecycle cs ↔ Along contract StatusChecked deployed cs := by
  constructor
  · intro h
    exact h.orderly.imp fun _ _ => checked_of_orderly
  · intro hchecked
    constructor
    · exact along_of_invariant (fun _ _ h _ => fresh_commit h) (fun _ _ => rfl) hchecked
        fun _ _ => orderly_of_checked
    · intro id
      have hpaid : Fresh (run contract deployed cs) ∧ PaidOnce id (run contract deployed cs) :=
        run_invariant (I := fun w => Fresh w ∧ PaidOnce id w)
          (fun _ _ h hcheck => ⟨fresh_commit h.1, paidOnce_commit h.1 hcheck h.2⟩)
          ⟨fun _ _ => rfl, .inl rfl⟩ hchecked
      rcases hpaid.2 with hzero | ⟨hone, _⟩ <;> omega

/-- Account 2 asks for 50, and accounts 3 and 4 both pay. -/
def paidTwice : List (Submission Call) :=
  [signedBy [⟨2⟩] 100 (.createRequest ⟨2⟩ none ⟨7⟩ 50 60 "lunch"),
    signedBy [⟨3⟩] 110 (.pay none ⟨3⟩ 1),
    signedBy [⟨4⟩] 120 (.pay none ⟨4⟩ 1)]

/-- The second payment gets through although the request is already paid. -/
theorem paid_twice :
    (run contract deployed paidTwice).storage.transfers =
        [⟨1, ⟨7⟩, ⟨3⟩, ⟨2⟩, 50⟩, ⟨1, ⟨7⟩, ⟨4⟩, ⟨2⟩, 50⟩] ∧
      ¬ Lifecycle paidTwice := by
  have htwice : (run contract deployed paidTwice).storage.transfers =
      [⟨1, ⟨7⟩, ⟨3⟩, ⟨2⟩, 50⟩, ⟨1, ⟨7⟩, ⟨4⟩, ⟨2⟩, 50⟩] := rfl
  refine ⟨htwice, fun h => ?_⟩
  have honce := h.once 1
  rw [htwice] at honce
  simp at honce

end PaymentRequestContract
