import AgenticPay.RefundTurns
import Mathlib.Algebra.Order.Ring.Rat

/-!
# What is refunded of a payment

A refund is live until it is rejected or cancelled for good, that is with no approval of it pending
and no answer of the provider to come. What is not live never is again, so that the live refunds of
a payment bound those that are completed, now and later.
-/
namespace Refunds

open Records Awaits Transaction

/-- The refund is completed or may still be. -/
def Live (flight : List RefundId) (refund : RefundRecord) : Prop :=
  ¬ (refund.status = .rejected ∨ refund.status = .cancelled) ∨
    (∃ approval ∈ refund.approvals, approval.status = .pending) ∨ refund.id ∈ flight

instance (flight : List RefundId) (refund : RefundRecord) : Decidable (Live flight refund) :=
  inferInstanceAs (Decidable (_ ∨ (∃ approval ∈ refund.approvals, _) ∨ _))

/-- What the payment has been refunded. -/
def refunded (s : State) (payment : String) : ℚ :=
  total (fun r => if r.paymentId = payment ∧ r.status = .completed then r.amount else 0) s.refunds

/-- The part of a refund in what is reserved of the payment. -/
def part (payment : String) (flight : List RefundId) (refund : RefundRecord) : ℚ :=
  if refund.paymentId = payment ∧ Live flight refund then max refund.amount 0 else 0

/-- What the payment has been refunded, and may still be. -/
def reserved (g : Engine) (payment : String) : ℚ :=
  total (part payment (inFlight g.tasks)) g.state.refunds

/-- What a request would add. -/
def requested (valueText : RuleValue → String) (g : Engine) (input : RefundEvaluationInput)
    (told : Told) : ℚ :=
  if (judge valueText (getRefundPolicy told.uuids.policy input.workspaceId g.state.policies)
      input).decision = .rejected then 0
  else max input.requestedAmount 0

/-- A request for the payment that is not rejected fits into what is left of what was paid. -/
def Covered (valueText : RuleValue → String) (payment : String) (g : Engine) :
    Act Call Told → Prop
  | .call (.evaluateRefund input) told => input.paymentId = payment →
      reserved g payment + requested valueText g input told ≤ input.amountPaid
  | _ => True

/-- All requests for the payment state the same amount. -/
def StateSame (payment : String) (acts : List (Act Call Told)) : Prop :=
  ∀ input told, .call (.evaluateRefund input) told ∈ acts → input.paymentId = payment →
    ∀ input' told', .call (.evaluateRefund input') told' ∈ acts → input'.paymentId = payment →
      input.amountPaid = input'.amountPaid

variable {valueText : RuleValue → String} {payment : String} {g g' : Engine}
  {act : Act Call Told} {refund refund' : RefundRecord} {flight flight' : List RefundId}
  {approval : RefundApproval} {amount : ℚ}

/-! ## Records -/

theorem mem_resolveApproval {approvals : List RefundApproval} {a : RefundApproval}
    (h : a ∈ resolveApproval approval approvals) : a = approval ∨ a ∈ approvals := by
  induction approvals with
  | nil => exact absurd h List.not_mem_nil
  | cons first rest ih =>
    rw [resolveApproval] at h
    split_ifs at h with hlevel
    · rcases List.mem_cons.mp h with h | h
      · exact .inl h
      · exact .inr (List.mem_cons_of_mem _ h)
    · rcases List.mem_cons.mp h with rfl | h
      · exact .inr List.mem_cons_self
      · exact (ih h).imp_right (List.mem_cons_of_mem _)

theorem Started.live (h : Started refund refund') (flight : List RefundId) :
    Live flight refund := by
  left
  cases h with
  | processed ready => simp [ready]
  | retried failed => simp [failed]

/-- What is live after a change has been so before. -/
theorem Changed.live (h : Changed act refund refund') (hlive : Live flight refund') :
    Live flight refund := by
  cases h with
  | approved found pending => exact .inr (.inl ⟨_, List.mem_of_find?_eq_some found, pending⟩)
  | @rejected _ approverId level comment approval told found =>
    rcases hlive with hstatus | ⟨a, ha, hpending⟩ | hflight
    · exact absurd (.inl rfl) hstatus
    · rcases mem_resolveApproval ha with rfl | ha
      · contradiction
      · exact .inr (.inl ⟨a, ha, hpending⟩)
    · exact .inr (.inr hflight)
  | cancelled notFinal =>
    rcases hlive with hstatus | hpending | hflight
    · exact absurd (.inr rfl) hstatus
    · exact .inr (.inl hpending)
    · exact .inr (.inr hflight)
  | completed started => exact started.live flight

/-! ## What is reserved -/

theorem part_nonneg (refund : RefundRecord) : 0 ≤ part payment flight refund := by
  rw [part]
  split_ifs
  · exact le_max_right _ _
  · exact le_rfl

theorem reserved_nonneg (g : Engine) (payment : String) : 0 ≤ reserved g payment :=
  total_nonneg fun _ _ => part_nonneg _

theorem part_le (hkeeps : Keeps refund refund')
    (hlive : Live flight' refund' → Live flight refund) :
    part payment flight' refund' ≤ part payment flight refund := by
  rw [part]
  split_ifs with h
  · rw [part, if_pos ⟨hkeeps.paymentId ▸ h.1, hlive h.2⟩, hkeeps.amount]
  · exact part_nonneg refund

theorem live_mono (h : refund.id ∈ flight' → refund.id ∈ flight) (hlive : Live flight' refund) :
    Live flight refund :=
  hlive.imp_right (Or.imp_right h)

/-- The refunds that the provider is asked for are known. -/
def Known (g : Engine) : Prop :=
  ∀ id ∈ inFlight g.tasks, ∃ refund, g.state.refunds.get id = some refund

theorem reserved_set_le (hfound : g.state.refunds.get refund.id = some refund)
    (hkeeps : Keeps refund refund') (hrefunds : g'.state.refunds = g.state.refunds.set refund')
    (hlive : Live (inFlight g'.tasks) refund' → Live (inFlight g.tasks) refund)
    (hflight : ∀ id ∈ inFlight g'.tasks, id ≠ refund.id → id ∈ inFlight g.tasks) :
    reserved g' payment ≤ reserved g payment := by
  rw [reserved, hrefunds]
  refine total_set_le (hkeeps.id ▸ hfound) (part_le hkeeps hlive) fun other _ hne => ?_
  exact part_le ⟨rfl, rfl, rfl⟩
    (live_mono fun hmem => hflight _ hmem fun he => hne (he.trans hkeeps.id.symm))

/-- A turn adds what is requested, if it is a request, and nothing else. -/
theorem Turned.reserved (h : Turned valueText g act g') (hk : Known g) (payment : String) :
    reserved g' payment ≤ reserved g payment ∨
      ∃ input told, act = .call (.evaluateRefund input) told ∧ input.paymentId = payment ∧
        reserved g' payment ≤ reserved g payment + requested valueText g input told := by
  cases h with
  | same refunds asked waiting =>
    left
    rw [Refunds.reserved, refunds]
    exact total_le_total fun r _ => part_le ⟨rfl, rfl, rfl⟩ (live_mono (waiting.subset ·))
  | @created input told g' fresh refunds asked waiting =>
    have htotal : Refunds.reserved g' payment = Refunds.reserved g payment +
        part payment (inFlight g.tasks) (createRefundRecord told.uuids.refund input
          (judge valueText (getRefundPolicy told.uuids.policy input.workspaceId g.state.policies)
            input)) := by
      rw [Refunds.reserved, refunds, waiting]
      exact total_set_fresh _ fresh
    by_cases hpayment : input.paymentId = payment
    · right
      refine ⟨input, told, rfl, hpayment, ?_⟩
      rw [htotal, requested]
      generalize hj : judge valueText (getRefundPolicy told.uuids.policy input.workspaceId
        g.state.policies) input = j
      refine add_le_add_right ?_ _
      split_ifs with hrejected
      · -- what the policy rejects asks for no approval, and the provider is not asked for it
        have hlevel : j.requiredApprovalLevel = none := by
          rw [← hj, judge_level, hj, hrejected]
          decide
        rw [part, if_neg]
        rintro ⟨_, hstatus | ⟨a, ha, _⟩ | hflight⟩
        · exact hstatus (.inl (by rw [createRefundRecord, hrejected]; rfl))
        · rw [createRefundRecord, hlevel] at ha
          exact absurd ha List.not_mem_nil
        · obtain ⟨refund, hfound⟩ := hk _ hflight
          exact absurd (fresh.symm.trans hfound) (Option.some_ne_none _).symm
      · rw [part]
        split_ifs
        · exact le_rfl
        · exact le_max_right _ _
    · left
      rw [htotal, part, if_neg fun h => hpayment h.1, add_zero]
  | changed found change refunds asked waiting =>
    left
    refine reserved_set_le found change.keeps refunds (fun hlive => ?_) fun id hmem _ =>
      waiting.mem_iff.mp hmem
    exact change.live (live_mono (fun hmem => waiting.mem_iff.mp hmem) hlive)
  | asked found start refunds asked waiting =>
    left
    refine reserved_set_le found start.keeps refunds (fun _ => start.live _) fun id hmem hne => ?_
    exact (List.mem_cons.mp (waiting.mem_iff.mp hmem)).resolve_left hne
  | answered found refunds asked waiting =>
    left
    refine reserved_set_le found (keeps_answered _ _) refunds (fun _ => .inr (.inr ?_))
      fun id hmem _ => waiting.mem_iff.mpr (List.mem_cons_of_mem _ hmem)
    exact waiting.mem_iff.mpr List.mem_cons_self

theorem get_set_found {t : RefundStore} {id : RefundId} (refund' : RefundRecord)
    (h : ∃ refund, t.get id = some refund) : ∃ refund, (t.set refund').get id = some refund := by
  rw [Table.get_set]
  split_ifs
  · exact ⟨refund', rfl⟩
  · exact h

theorem Turned.known (h : Turned valueText g act g') (hk : Known g) : Known g' := by
  intro id hmem
  cases h with
  | same refunds asked waiting =>
    rw [refunds]
    exact hk id (waiting.subset hmem)
  | created fresh refunds asked waiting =>
    rw [refunds]
    exact get_set_found _ (hk id (waiting ▸ hmem))
  | changed found change refunds asked waiting =>
    rw [refunds]
    exact get_set_found _ (hk id (waiting.mem_iff.mp hmem))
  | asked found start refunds asked waiting =>
    rw [refunds]
    refine get_set_found _ ?_
    rcases List.mem_cons.mp (waiting.mem_iff.mp hmem) with rfl | hold
    · exact ⟨_, found⟩
    · exact hk id hold
  | answered found refunds asked waiting =>
    rw [refunds]
    exact get_set_found _ (hk id (waiting.mem_iff.mpr (List.mem_cons_of_mem _ hmem)))

theorem refunded_le_reserved (g : Engine) (payment : String) :
    refunded g.state payment ≤ reserved g payment := by
  refine total_le_total fun r _ => ?_
  split_ifs with h
  · have hlive : Live (inFlight g.tasks) r := .inl (by simp [h.2])
    rw [part, if_pos ⟨h.1, hlive⟩]
    exact le_max_left _ _
  · exact part_nonneg r

/-! ## Runs -/

/-- The amount that a request for the payment states. -/
def States (payment : String) (amount : ℚ) : Act Call Told → Prop
  | .call (.evaluateRefund input) _ => input.paymentId = payment → input.amountPaid = amount
  | _ => True

theorem reserved_commit (hk : Known g) (hle : reserved g payment ≤ max amount 0)
    (hstates : States payment amount act) (hcovered : Covered valueText payment g act) :
    reserved (commit (machine (engine valueText)) g act) payment ≤ max amount 0 := by
  obtain hkept | ⟨input, told, hact, hpayment, hadded⟩ :=
    (turned_commit valueText g act).reserved hk payment
  · exact hkept.trans hle
  · subst hact
    have hfits := hcovered hpayment
    rw [hstates hpayment] at hfits
    exact (hadded.trans hfits).trans (le_max_left _ _)

theorem reserved_run {acts : List (Act Call Told)}
    (hcovered : Along (machine (engine valueText)) (Covered valueText payment) initial acts)
    (hstates : ∀ act ∈ acts, States payment amount act) :
    reserved (run (machine (engine valueText)) initial acts) payment ≤ max amount 0 := by
  have hinitial : Known initial ∧ reserved initial payment ≤ max amount 0 :=
    ⟨fun _ hmem => absurd hmem List.not_mem_nil, le_max_right _ _⟩
  have hboth := hcovered.and (along_forall.mpr hstates)
  refine (run_invariant (I := fun g => Known g ∧ reserved g payment ≤ max amount 0)
    (fun g act hg hact => ?_) hinitial hboth).2
  exact ⟨(turned_commit valueText g act).known hg.1, reserved_commit hg.1 hg.2 hact.2 hact.1⟩

/-- While each request that is not rejected fits into what is left of what was paid, what is
refunded never exceeds it. -/
theorem refunded_le_amountPaid (valueText : RuleValue → String) (payment : String)
    (acts : List (Act Call Told)) (hsame : StateSame payment acts)
    (hcovered : Along (machine (engine valueText)) (Covered valueText payment) initial acts)
    (input : RefundEvaluationInput) (told : Told)
    (hrequest : .call (.evaluateRefund input) told ∈ acts) (hpayment : input.paymentId = payment) :
    refunded (run (machine (engine valueText)) initial acts).state payment ≤ input.amountPaid := by
  have hstates : ∀ act ∈ acts, States payment input.amountPaid act := by
    intro act hact
    cases act with
    | resume i told' => trivial
    | call c told' =>
      cases c with
      | evaluateRefund input' =>
        exact fun hpayment' => hsame input' told' hact hpayment' input told hrequest hpayment
      | _ => trivial
  have hpaid : 0 ≤ input.amountPaid := by
    obtain ⟨before, later, rfl⟩ := List.append_of_mem hrequest
    obtain ⟨_, hnow, _⟩ := along_append.mp hcovered
    have hrequested : 0 ≤ requested valueText
        (run (machine (engine valueText)) initial before) input told := by
      rw [requested]
      split_ifs
      · exact le_rfl
      · exact le_max_right _ _
    exact (add_nonneg (reserved_nonneg _ payment) hrequested).trans (hnow hpayment)
  have hreserved := reserved_run hcovered hstates
  rw [max_eq_left hpaid] at hreserved
  exact (refunded_le_reserved _ payment).trans hreserved

theorem stateSame_of_all {acts : List (Act Call Told)} (amount : ℚ)
    (h : ∀ input told, .call (.evaluateRefund input) told ∈ acts → input.amountPaid = amount) :
    StateSame payment acts :=
  fun input told hmem _ input' told' hmem' _ =>
    (h input told hmem).trans (h input' told' hmem').symm

def processes (refundId : RefundId) : Act Call Told :=
  .call (.processRefund refundId false) ⟨⟨"", ""⟩, .throws ""⟩

/-- Two parts of a payment are refunded. -/
def inParts : List (Act Call Told) :=
  [asks "pay-1" 1000 600 5 "1", processes "1", asks "pay-1" 1000 400 5 "2", processes "2"]

instance (valueText : RuleValue → String) (payment : String) (g : Engine) :
    (act : Act Call Told) → Decidable (Covered valueText payment g act)
  | .call (.evaluateRefund input) told => inferInstanceAs (Decidable (input.paymentId = payment →
      reserved g payment + requested valueText g input told ≤ input.amountPaid))
  | .call (.upsertRefundPolicy _) _ | .call (.deleteRefundPolicy _) _
  | .call (.approveRefund ..) _ | .call (.rejectRefund ..) _ | .call (.cancelRefund ..) _
  | .call (.processRefund ..) _ | .call (.autoProcessApprovedRefunds _) _
  | .call (.retryFailedRefund ..) _ | .resume _ _ => isTrue trivial

theorem inParts_refunded :
    refunded (run (machine (engine noText)) initial inParts).state "pay-1" = 1000 ∧
      refunded (run (machine (engine noText)) initial inParts).state "pay-1" ≤ 1000 := by
  have hrun : refunded (run (machine (engine noText)) initial inParts).state "pay-1" = 1000 ∧
      Along (machine (engine noText)) (Covered noText "pay-1") initial inParts := by
    decide +kernel
  refine ⟨hrun.1, refunded_le_amountPaid noText "pay-1" inParts (stateSame_of_all 1000 ?_) hrun.2
    _ _ List.mem_cons_self rfl⟩
  intro input told hmem
  simp only [inParts, asks, processes, List.mem_cons, List.not_mem_nil, or_false] at hmem
  rcases hmem with h | h | h | h <;> cases h <;> rfl

/-- A payment that is smaller than what is always refunded, and one that is refunded twice. -/
theorem refunded_more_than_paid :
    refunded (run (machine (engine noText)) initial
        [asks "pay-1" 10 20 5 "1", processes "1"]).state "pay-1" = 20 ∧
      refunded (run (machine (engine noText)) initial
        [asks "pay-1" 1000 1000 5 "1", asks "pay-1" 1000 1000 5 "2", processes "1",
          processes "2"]).state "pay-1" = 2000 ∧
      ¬ ∀ (valueText : RuleValue → String) (payment : String) (acts : List (Act Call Told)),
        StateSame payment acts → ∀ input told, .call (.evaluateRefund input) told ∈ acts →
          input.paymentId = payment →
            refunded (run (machine (engine valueText)) initial acts).state payment ≤
              input.amountPaid := by
  have hrun : refunded (run (machine (engine noText)) initial
        [asks "pay-1" 10 20 5 "1", processes "1"]).state "pay-1" = 20 ∧
      refunded (run (machine (engine noText)) initial
        [asks "pay-1" 1000 1000 5 "1", asks "pay-1" 1000 1000 5 "2", processes "1",
          processes "2"]).state "pay-1" = 2000 := by
    decide +kernel
  refine ⟨hrun.1, hrun.2, fun hall => ?_⟩
  have hsame : StateSame "pay-1" [asks "pay-1" 10 20 5 "1", processes "1"] := by
    refine stateSame_of_all 10 fun input told hmem => ?_
    simp only [asks, processes, List.mem_cons, List.not_mem_nil, or_false] at hmem
    rcases hmem with h | h <;> cases h
    rfl
  have hle := hall noText "pay-1" _ hsame _ _ List.mem_cons_self rfl
  rw [hrun.1] at hle
  exact absurd hle (by decide +kernel)

end Refunds
