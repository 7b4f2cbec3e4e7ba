import AgenticPay.Refunds

/-!
# What a turn of the refund engine does

A turn leaves all refunds as they are, or it adds one, or it changes one: a call of the approvers
or of the customer moves it on, processing starts, or the answer of the provider has come.
-/
namespace Refunds

open Records Awaits Transaction

def Waiting.refundId? : Waiting → Option RefundId
  | .provider refundId _ => some refundId
  | .next _ => none

/-- The refunds that the provider has not answered for. -/
def inFlight (tasks : List Waiting) : List RefundId := tasks.filterMap Waiting.refundId?

theorem inFlight_append (tasks tasks' : List Waiting) :
    inFlight (tasks ++ tasks') = inFlight tasks ++ inFlight tasks' := List.filterMap_append

/-- The processing of a refund starts. -/
inductive Started (refund : RefundRecord) : RefundRecord → Prop
  | processed (ready : refund.status = .approved) :
      Started refund (refund.moved .processing "processing_started" "system" none)
  | retried (failed : refund.status = .failed) :
      Started refund ((retried refund).moved .processing "processing_started" "system" none)

/-- The refund is changed by a call that does not ask the provider. -/
inductive Changed : Act Call Told → RefundRecord → RefundRecord → Prop
  | approved {refund approverId level comment approval told}
      (found : refund.approvals.find? (·.level = level) = some approval)
      (pending : approval.status = .pending) :
      Changed (.call (.approveRefund refund.id approverId level comment) told) refund
        (approved refund approval approverId comment)
  | rejected {refund approverId level comment approval told}
      (found : refund.approvals.find? (·.level = level) = some approval) :
      Changed (.call (.rejectRefund refund.id approverId level comment) told) refund
        (rejected refund approval approverId comment)
  | cancelled {refund actor reason told}
      (notFinal : ¬ (refund.status = .completed ∨ refund.status = .cancelled)) :
      Changed (.call (.cancelRefund refund.id actor reason) told) refund
        (refund.moved .cancelled "cancelled" actor reason)
  | completed {act refund refund'} (started : Started refund refund') :
      Changed act refund (answered refund' (.succeeds none))

inductive Turned (valueText : RuleValue → String) (g : Engine) :
    Act Call Told → Engine → Prop
  | same {act g'} (refunds : g'.state.refunds = g.state.refunds)
      (asked : g'.state.asked = g.state.asked)
      (waiting : (inFlight g'.tasks).Sublist (inFlight g.tasks)) : Turned valueText g act g'
  | created {input told g'} (fresh : g.state.refunds.get told.uuids.refund = none)
      (refunds : g'.state.refunds = g.state.refunds.set (createRefundRecord told.uuids.refund input
        (judge valueText (getRefundPolicy told.uuids.policy input.workspaceId g.state.policies)
          input)))
      (asked : g'.state.asked = g.state.asked) (waiting : inFlight g'.tasks = inFlight g.tasks) :
      Turned valueText g (.call (.evaluateRefund input) told) g'
  | changed {act refund refund' g'} (found : g.state.refunds.get refund.id = some refund)
      (change : Changed act refund refund')
      (refunds : g'.state.refunds = g.state.refunds.set refund')
      (asked : g'.state.asked = g.state.asked)
      (waiting : (inFlight g'.tasks).Perm (inFlight g.tasks)) : Turned valueText g act g'
  | asked {act refund refund' g'} (found : g.state.refunds.get refund.id = some refund)
      (start : Started refund refund') (refunds : g'.state.refunds = g.state.refunds.set refund')
      (asked : g'.state.asked = g.state.asked ++ [refund.id])
      (waiting : (inFlight g'.tasks).Perm (refund.id :: inFlight g.tasks)) :
      Turned valueText g act g'
  | answered {act refund answer g'} (found : g.state.refunds.get refund.id = some refund)
      (refunds : g'.state.refunds = g.state.refunds.set (answered refund answer))
      (asked : g'.state.asked = g.state.asked)
      (waiting : (inFlight g.tasks).Perm (refund.id :: inFlight g'.tasks)) :
      Turned valueText g act g'

/-- How processing goes on is either an error, or it has started. -/
inductive Goes (s : State) (refundId : RefundId) : Except Failure Processing → Prop
  | fails {failure} : Goes s refundId (.error failure)
  | asks {refund refund'} (found : s.refunds.get refundId = some refund)
      (started : Started refund refund') : Goes s refundId (.ok (.asks refund'))
  | completes {refund refund'} (found : s.refunds.get refundId = some refund)
      (started : Started refund refund') :
      Goes s refundId (.ok (.completes (answered refund' (.succeeds none))))

variable {valueText : RuleValue → String} {g g' : Engine} {s : State} {told : Told}
  {act : Act Call Told} {refund refund' : RefundRecord} {refundId : RefundId}
  {approval : RefundApproval} {approverId : String} {level : ApprovalLevel}
  {comment : Option String} {provider : Bool} {batch : Option Batch} {base : List Waiting}

/-! ## Changes -/

/-- What the changes of a refund keep. -/
structure Keeps (refund refund' : RefundRecord) : Prop where
  id : refund'.id = refund.id
  paymentId : refund'.paymentId = refund.paymentId
  amount : refund'.amount = refund.amount

theorem keeps_answered (refund : RefundRecord) (answer : Answer) :
    Keeps refund (answered refund answer) := by
  cases answer <;> exact ⟨rfl, rfl, rfl⟩

theorem keeps_approved (refund : RefundRecord) (approval : RefundApproval) (approverId : String)
    (comment : Option String) : Keeps refund (approved refund approval approverId comment) := by
  rw [approved]
  split_ifs <;> exact ⟨rfl, rfl, rfl⟩

theorem Started.keeps (h : Started refund refund') : Keeps refund refund' := by
  cases h <;> exact ⟨rfl, rfl, rfl⟩

theorem Changed.keeps (h : Changed act refund refund') : Keeps refund refund' := by
  cases h with
  | approved found pending => exact keeps_approved _ _ _ _
  | rejected found => exact ⟨rfl, rfl, rfl⟩
  | cancelled notFinal => exact ⟨rfl, rfl, rfl⟩
  | @completed _ _ processing started =>
    have hstarted := started.keeps
    have hanswered := keeps_answered processing (.succeeds none)
    exact ⟨hanswered.id.trans hstarted.id, hanswered.paymentId.trans hstarted.paymentId,
      hanswered.amount.trans hstarted.amount⟩

/-! ## Processing -/

theorem findRefund_ok : findRefund s refundId = .ok refund ↔
    s.refunds.get refundId = some refund := by
  rw [findRefund]
  split
  next h => simp [h]
  next found h => simp [h]

theorem startProcessing_goes {from' : RefundRecord} (hfound : s.refunds.get refundId = some from')
    (hstarted : Started from' (refund.moved .processing "processing_started" "system" none)) :
    Goes s refundId (.ok (startProcessing provider refund)) := by
  cases provider with
  | true => exact .asks hfound hstarted
  | false => exact .completes hfound hstarted

theorem processRefund_approved (hfound : s.refunds.get refundId = some refund)
    (hstatus : refund.status = .approved) :
    processRefund provider refundId s = .ok (startProcessing provider refund) := by
  rw [processRefund, findRefund_ok.mpr hfound]
  exact if_neg (not_not.mpr hstatus)

theorem processRefund_goes : Goes s refundId (processRefund provider refundId s) := by
  rw [processRefund]
  cases hfound : findRefund s refundId with
  | error failure => exact .fails
  | ok refund =>
    show Goes s refundId (if refund.status ≠ .approved then _ else _)
    split_ifs with hstatus
    · exact .fails
    · exact startProcessing_goes (findRefund_ok.mp hfound) (.processed (not_not.mp hstatus))

theorem retryFailedRefund_goes : Goes s refundId (retryFailedRefund provider refundId s) := by
  rw [retryFailedRefund]
  cases hfound : findRefund s refundId with
  | error failure => exact .fails
  | ok refund =>
    show Goes s refundId (if refund.status ≠ .failed then _ else _)
    split_ifs with hstatus
    · exact .fails
    · have hget := findRefund_ok.mp hfound
      have hset : (s.setRefund (retried refund)).refunds.get refundId = some (retried refund) := by
        rw [← Table.key_of_get hget]
        exact Table.get_set_self _ _
      rw [processRefund_approved hset rfl]
      exact startProcessing_goes hget (.retried (not_not.mp hstatus))

theorem processingEnds_tasks (result : Except Failure RefundRecord) :
    inFlight (processingEnds batch refundId result s).1.tasks = [] := by
  cases batch <;> rfl

theorem processingEnds_state (result : Except Failure RefundRecord) :
    (processingEnds batch refundId result s).2 = s := by
  cases batch <;> rfl

theorem goOn_turned {outcome : Except Failure Processing} (h : Goes g.state refundId outcome)
    (hbase : inFlight base = inFlight g.tasks) :
    Turned valueText g act ⟨(goOn batch refundId g.state outcome).2,
      base ++ (goOn batch refundId g.state outcome).1.tasks⟩ := by
  cases h with
  | fails =>
    rw [goOn]
    refine .same ?_ ?_ ?_
    · rw [processingEnds_state]
    · rw [processingEnds_state]
    · rw [inFlight_append, processingEnds_tasks, List.append_nil, hbase]
  | asks found started =>
    obtain rfl := Table.key_of_get found
    refine .asked found started rfl rfl ?_
    rw [inFlight_append, hbase]
    exact List.perm_append_singleton _ _
  | completes found started =>
    obtain rfl := Table.key_of_get found
    rw [goOn]
    refine .changed found (.completed started) ?_ ?_ ?_
    · rw [processingEnds_state]
      rfl
    · rw [processingEnds_state]
      rfl
    · rw [inFlight_append, processingEnds_tasks, List.append_nil, hbase]

theorem nextRefund_turned {next : Batch} (hbase : inFlight base = inFlight g.tasks) :
    Turned valueText g act ⟨(nextRefund next g.state).2,
      base ++ (nextRefund next g.state).1.tasks⟩ := by
  rw [nextRefund]
  split
  next =>
    refine .same rfl rfl ?_
    rw [Turn.tasks, List.append_nil, hbase]
  next => exact goOn_turned processRefund_goes hbase

/-! ## Calls that do not wait -/

theorem turned_done {r : Except Failure Response} (hrefunds : s.refunds = g.state.refunds)
    (hasked : s.asked = g.state.asked) :
    Turned valueText g act ⟨s, g.tasks ++ (Turn.done r : Turn Waiting _).tasks⟩ := by
  refine .same hrefunds hasked ?_
  rw [Turn.tasks, List.append_nil]

theorem findApproval_ok : findApproval refund level = .ok approval ↔
    refund.approvals.find? (·.level = level) = some approval := by
  rw [findApproval]
  split
  next h => simp [h]
  next found h => simp [h]

theorem approveRefund_ok {s' : State}
    (h : approveRefund refundId approverId level comment s = .ok (refund', s')) :
    ∃ refund approval, s.refunds.get refundId = some refund ∧
      refund.approvals.find? (·.level = level) = some approval ∧ approval.status = .pending ∧
        refund' = approved refund approval approverId comment ∧ s' = s.setRefund refund' := by
  obtain ⟨refund, hfound, h⟩ := bind_returns h
  obtain ⟨approval, happroval, h⟩ := bind_returns h
  split_ifs at h with hpending
  cases h
  exact ⟨refund, approval, findRefund_ok.mp hfound, findApproval_ok.mp happroval,
    not_not.mp hpending, rfl, rfl⟩

theorem rejectRefund_ok {s' : State}
    (h : rejectRefund refundId approverId level comment s = .ok (refund', s')) :
    ∃ refund approval, s.refunds.get refundId = some refund ∧
      refund.approvals.find? (·.level = level) = some approval ∧
        refund' = rejected refund approval approverId comment ∧ s' = s.setRefund refund' := by
  obtain ⟨refund, hfound, h⟩ := bind_returns h
  obtain ⟨approval, happroval, h⟩ := bind_returns h
  cases h
  exact ⟨refund, approval, findRefund_ok.mp hfound, findApproval_ok.mp happroval, rfl, rfl⟩

theorem cancelRefund_ok {actor : String} {s' : State}
    (h : cancelRefund refundId actor comment s = .ok (refund', s')) :
    ∃ refund, s.refunds.get refundId = some refund ∧
      ¬ (refund.status = .completed ∨ refund.status = .cancelled) ∧
        refund' = refund.moved .cancelled "cancelled" actor comment ∧
          s' = s.setRefund refund' := by
  obtain ⟨refund, hfound, h⟩ := bind_returns h
  split_ifs at h with hfinal
  cases h
  exact ⟨refund, findRefund_ok.mp hfound, hfinal, rfl, rfl⟩

theorem ended_turned {outcome : Except Failure (RefundRecord × State)}
    (h : ∀ refund' s', outcome = .ok (refund', s') → ∃ refund,
      g.state.refunds.get refund.id = some refund ∧ Changed act refund refund' ∧
        s' = g.state.setRefund refund') :
    Turned valueText g act
      ⟨(ended outcome g.state).2, g.tasks ++ (ended outcome g.state).1.tasks⟩ := by
  cases outcome with
  | error failure => exact turned_done rfl rfl
  | ok result =>
    obtain ⟨refund, hfound, hchanged, hs⟩ := h result.1 result.2 rfl
    rw [ended]
    dsimp only
    rw [hs]
    refine .changed hfound hchanged rfl rfl ?_
    rw [Turn.tasks, List.append_nil]

theorem request_turned {c : Call} {ends : Ends}
    (h : request valueText told g.state c = some ends) :
    Turned valueText g (.call c told) ⟨ends.2, g.tasks ++ ends.1.tasks⟩ := by
  cases c with
  | upsertRefundPolicy input =>
    cases h
    exact turned_done rfl rfl
  | deleteRefundPolicy policyId =>
    cases h
    exact turned_done rfl rfl
  | evaluateRefund input =>
    rw [request] at h
    split_ifs at h with hfresh
    rw [evaluateRefund] at h
    dsimp only at h
    by_cases hrequired : (getRefundPolicy told.uuids.policy input.workspaceId
        g.state.policies).requireReason ∧ ¬ hasReason input
    · rw [if_pos hrequired] at h
      cases h
      exact turned_done rfl rfl
    · rw [if_neg hrequired] at h
      cases h
      refine .created hfresh rfl rfl ?_
      rw [Turn.tasks, List.append_nil]
  | approveRefund refundId approverId level comment =>
    cases h
    refine ended_turned fun refund' s' h => ?_
    obtain ⟨refund, approval, hfound, happroval, hpending, rfl, rfl⟩ := approveRefund_ok h
    obtain rfl := Table.key_of_get hfound
    exact ⟨refund, hfound, .approved happroval hpending, rfl⟩
  | rejectRefund refundId approverId level comment =>
    cases h
    refine ended_turned fun refund' s' h => ?_
    obtain ⟨refund, approval, hfound, happroval, rfl, rfl⟩ := rejectRefund_ok h
    obtain rfl := Table.key_of_get hfound
    exact ⟨refund, hfound, .rejected happroval, rfl⟩
  | cancelRefund refundId actor reason =>
    cases h
    refine ended_turned fun refund' s' h => ?_
    obtain ⟨refund, hfound, hfinal, rfl, rfl⟩ := cancelRefund_ok h
    obtain rfl := Table.key_of_get hfound
    exact ⟨refund, hfound, .cancelled hfinal, rfl⟩
  | processRefund refundId provider =>
    cases h
    exact goOn_turned processRefund_goes rfl
  | autoProcessApprovedRefunds provider =>
    cases h
    exact nextRefund_turned rfl
  | retryFailedRefund refundId provider =>
    cases h
    exact goOn_turned retryFailedRefund_goes rfl

theorem resume_turned (valueText : RuleValue → String) (told : Told) {i : Nat} {task : Waiting}
    (hwaiting : g.tasks[i]? = some task) :
    Turned valueText g (.resume i told) ⟨(resume told g.state task).2,
      g.tasks.eraseIdx i ++ (resume told g.state task).1.tasks⟩ := by
  obtain ⟨hi, rfl⟩ := List.getElem?_eq_some_iff.mp hwaiting
  have hperm : (inFlight (g.tasks[i] :: g.tasks.eraseIdx i)).Perm (inFlight g.tasks) :=
    (List.getElem_cons_eraseIdx_perm hi).filterMap _
  have hsub : (inFlight (g.tasks.eraseIdx i)).Sublist (inFlight g.tasks) :=
    (List.eraseIdx_sublist ..).filterMap _
  generalize g.tasks[i] = task at hperm
  cases task with
  | next batch => exact nextRefund_turned (hsub.eq_of_length hperm.length_eq)
  | provider refundId batch =>
    rw [resume]
    cases hfound : g.state.refunds.get refundId with
    | none =>
      refine .same rfl rfl ?_
      rwa [Turn.tasks, List.append_nil]
    | some refund =>
      obtain rfl := Table.key_of_get hfound
      dsimp only
      refine .answered hfound (?_ : _ = g.state.refunds.set (answered refund told.answer)) ?_ ?_
      · rw [processingEnds_state]
        rfl
      · rw [processingEnds_state]
        rfl
      · rw [inFlight_append, processingEnds_tasks, List.append_nil]
        exact hperm.symm

/-- What an act does, if it does anything. -/
theorem turned_commit (valueText : RuleValue → String) (g : Engine) (act : Act Call Told) :
    Turned valueText g act (commit (machine (engine valueText)) g act) := by
  obtain hmoves | he := commit_moves (engine valueText) g act
  · generalize commit (machine (engine valueText)) g act = g' at hmoves
    cases hmoves with
    | called hcalled => exact request_turned hcalled
    | @resumed i told task t s hwaiting hresumed =>
      have he : resume told g.state task = (t, s) := hresumed
      have hturned := resume_turned valueText told hwaiting
      rwa [he] at hturned
  · rw [he]
    exact .same rfl rfl (List.Sublist.refl _)

/-- A request that is made some days after the payment. -/
def asks (paymentId : String) (amountPaid requestedAmount daysSincePayment : ℚ)
    (refundId : RefundId) : Act Call Told :=
  .call (.evaluateRefund { workspaceId := "ws-1", paymentId, paymentType := "card", amountPaid,
                           requestedAmount, currency := "USD", daysSincePayment,
                           reason := some "Customer requested refund", hasChargeback := false,
                           hasDispute := false, customerTier := none, customerTotalSpent := none,
                           previousRefundCount := none, previousRefundAmount := none })
    ⟨⟨refundId, ""⟩, .throws ""⟩

def noText : RuleValue → String := fun _ => ""

end Refunds
