import AgenticPay.RefundTurns

/-!
# The statuses of a refund

A refund that the provider is asked to pay is being processed until the answer comes, and it has at
most one approval, which is pending only until the refund is decided or cancelled. So the calls that
may take a refund out of a final status are those of the approvers and of the customer.
-/
namespace Refunds

open Records Awaits Transaction

def RefundStatus.Final (status : RefundStatus) : Prop :=
  status = .completed ∨ status = .rejected ∨ status = .cancelled

instance (status : RefundStatus) : Decidable status.Final :=
  inferInstanceAs (Decidable (_ ∨ _ ∨ _))

/-- The approval of the level is pending. -/
def Asks (refund : RefundRecord) (level : ApprovalLevel) : Prop :=
  ∃ approval ∈ refund.approvals.find? (·.level = level), approval.status = .pending

instance (refund : RefundRecord) (level : ApprovalLevel) : Decidable (Asks refund level) :=
  inferInstanceAs (Decidable (∃ approval ∈ refund.approvals.find? (·.level = level),
    approval.status = .pending))

/-- A pending approval is not given to a refund that is cancelled, a refund is rejected only before
it is processed and not after it is cancelled, and one that is rejected or processed is not
cancelled. -/
def InOrder (g : Engine) : Act Call Told → Prop
  | .call (.approveRefund refundId _ level _) _ => ∀ refund ∈ g.state.refunds.get refundId,
      Asks refund level → refund.status ≠ .cancelled
  | .call (.rejectRefund refundId _ level _) _ => ∀ refund ∈ g.state.refunds.get refundId,
      (refund.approvals.find? (·.level = level)).isSome →
        refund.status ≠ .completed ∧ refund.status ≠ .cancelled ∧ refund.status ≠ .processing
  | .call (.cancelRefund refundId _ _) _ => ∀ refund ∈ g.state.refunds.get refundId,
      refund.status ≠ .rejected ∧ refund.status ≠ .processing
  | _ => True

instance (g : Engine) : (act : Act Call Told) → Decidable (InOrder g act)
  | .call (.approveRefund refundId _ level _) _ =>
    inferInstanceAs (Decidable (∀ refund ∈ g.state.refunds.get refundId,
      Asks refund level → refund.status ≠ .cancelled))
  | .call (.rejectRefund refundId _ level _) _ =>
    inferInstanceAs (Decidable (∀ refund ∈ g.state.refunds.get refundId,
      (refund.approvals.find? (·.level = level)).isSome →
        refund.status ≠ .completed ∧ refund.status ≠ .cancelled ∧ refund.status ≠ .processing))
  | .call (.cancelRefund refundId _ _) _ =>
    inferInstanceAs (Decidable (∀ refund ∈ g.state.refunds.get refundId,
      refund.status ≠ .rejected ∧ refund.status ≠ .processing))
  | .call (.upsertRefundPolicy _) _ | .call (.deleteRefundPolicy _) _
  | .call (.evaluateRefund _) _ | .call (.processRefund ..) _
  | .call (.autoProcessApprovedRefunds _) _ | .call (.retryFailedRefund ..) _ | .resume _ _ =>
    isTrue trivial

/-- The approval of a refund, if it has one. -/
structure AsksOnce (refund : RefundRecord) : Prop where
  one : refund.approvals.length ≤ 1
  pending : (∃ approval ∈ refund.approvals, approval.status = .pending) →
    refund.status = .pending ∨ refund.status = .cancelled

structure Waited (g : Engine) : Prop where
  nodup : (inFlight g.tasks).Nodup
  processing : ∀ id ∈ inFlight g.tasks, ∃ refund, g.state.refunds.get id = some refund ∧
    refund.status = .processing
  asks : ∀ refund ∈ g.state.refunds, AsksOnce refund

variable {valueText : RuleValue → String} {g g' : Engine} {act : Act Call Told}
  {refund refund' : RefundRecord} {refundId : RefundId} {approval : RefundApproval}
  {level : ApprovalLevel} {answer : Answer}

/-! ## One refund -/

/-- Processing starts from what is approved or has failed. -/
theorem Started.from_status (h : Started refund refund') :
    refund.status = .approved ∨ refund.status = .failed := by
  cases h with
  | processed ready => exact .inl ready
  | retried failed => exact .inr failed

theorem Started.not_processing (h : Started refund refund') : refund.status ≠ .processing := by
  obtain hstatus | hstatus := h.from_status <;> rw [hstatus] <;> decide

theorem Started.not_final (h : Started refund refund') : ¬ refund.status.Final := by
  obtain hstatus | hstatus := h.from_status <;> rw [hstatus] <;> decide

theorem Started.processing (h : Started refund refund') : refund'.status = .processing := by
  cases h <;> rfl

theorem Started.approvals (h : Started refund refund') : refund'.approvals = refund.approvals := by
  cases h <;> rfl

theorem answered_approvals (refund : RefundRecord) (answer : Answer) :
    (answered refund answer).approvals = refund.approvals := by
  cases answer <;> rfl

theorem AsksOnce.not_pending (h : AsksOnce refund) (hpending : refund.status ≠ .pending)
    (hcancelled : refund.status ≠ .cancelled) :
    ¬ ∃ approval ∈ refund.approvals, approval.status = .pending :=
  fun hasks => (h.pending hasks).elim hpending hcancelled

/-- A refund whose approvals are those of one that has none pending. -/
theorem AsksOnce.of_approvals (h : AsksOnce refund) (hpending : refund.status ≠ .pending)
    (hcancelled : refund.status ≠ .cancelled) (hsame : refund'.approvals = refund.approvals) :
    AsksOnce refund' := by
  refine ⟨hsame ▸ h.one, fun hasks => ?_⟩
  rw [hsame] at hasks
  exact absurd hasks (h.not_pending hpending hcancelled)

theorem Started.asks (h : Started refund refund') (hasks : AsksOnce refund) :
    AsksOnce refund' := by
  obtain hstatus | hstatus := h.from_status <;>
    exact hasks.of_approvals (by rw [hstatus]; decide) (by rw [hstatus]; decide) h.approvals

/-- The approval that is found is the only one. -/
theorem AsksOnce.resolve {new : RefundApproval} (h : AsksOnce refund)
    (hfound : refund.approvals.find? (·.level = level) = some approval)
    (hlevel : new.level = approval.level) : resolveApproval new refund.approvals = [new] := by
  have hone := h.one
  revert hone hfound
  cases refund.approvals with
  | nil => exact fun hfound => absurd hfound (Option.some_ne_none _).symm
  | cons first rest =>
    intro hfound hone
    obtain rfl : rest = [] := List.eq_nil_of_length_eq_zero (by simpa using hone)
    obtain rfl : approval = first := List.mem_singleton.mp (List.mem_of_find?_eq_some hfound)
    rw [resolveApproval, if_pos hlevel.symm]

theorem approved_asks (h : AsksOnce refund)
    (hfound : refund.approvals.find? (·.level = level) = some approval) (approverId : String)
    (comment : Option String) : AsksOnce (approved refund approval approverId comment) ∧
      (approved refund approval approverId comment).status = .approved := by
  have hnew : resolveApproval { approval with status := .approved, approverId, comment }
      refund.approvals = [{ approval with status := .approved, approverId, comment }] :=
    h.resolve hfound rfl
  rw [approved, hnew]
  refine ⟨⟨?_, ?_⟩, ?_⟩ <;> simp [RefundRecord.moved]

theorem rejected_asks (h : AsksOnce refund)
    (hfound : refund.approvals.find? (·.level = level) = some approval) (approverId : String)
    (comment : Option String) : AsksOnce (rejected refund approval approverId comment) := by
  have hnew : resolveApproval { approval with status := .rejected, approverId, comment }
      refund.approvals = [{ approval with status := .rejected, approverId, comment }] :=
    h.resolve hfound rfl
  rw [rejected, hnew]
  refine ⟨?_, ?_⟩ <;> simp [RefundRecord.moved]

theorem created_asks {policy : RefundPolicy} {input : RefundEvaluationInput} {id : RefundId} :
    AsksOnce (createRefundRecord id input (judge valueText policy input)) := by
  have hlevel := judge_level valueText policy input
  generalize judge valueText policy input = j at hlevel
  refine ⟨?_, fun ⟨approval, hmem, _⟩ => .inl ?_⟩
  · rw [createRefundRecord]
    cases j.requiredApprovalLevel <;> simp
  · -- only what is reviewed asks for an approval
    have hreview : j.decision = .manualReview := by
      by_contra hne
      rw [createRefundRecord, hlevel.mpr hne] at hmem
      exact absurd hmem List.not_mem_nil
    rw [createRefundRecord, hreview]
    rfl

theorem Changed.asks (h : Changed act refund refund') (hasks : AsksOnce refund) :
    AsksOnce refund' := by
  cases h with
  | approved found pending => exact (approved_asks hasks found _ _).1
  | rejected found => exact rejected_asks hasks found _ _
  | cancelled notFinal => exact ⟨hasks.one, fun _ => .inr rfl⟩
  | completed started =>
    obtain hstatus | hstatus := started.from_status <;>
      exact hasks.of_approvals (by rw [hstatus]; decide) (by rw [hstatus]; decide)
        ((answered_approvals _ _).trans started.approvals)

/-- A call in order changes no refund that is final, and none that is being processed. -/
theorem Changed.stays (h : Changed act refund refund') (hasks : AsksOnce refund)
    (hfound : g.state.refunds.get refund.id = some refund) (horder : InOrder g act) :
    refund.status ≠ .processing ∧ (refund.status.Final → refund'.status = refund.status) := by
  cases h with
  | approved found pending =>
    have hnot := horder refund hfound ⟨_, found, pending⟩
    have hpending : refund.status = .pending :=
      (hasks.pending ⟨_, List.mem_of_find?_eq_some found, pending⟩).resolve_right hnot
    rw [hpending]
    exact ⟨by decide, fun hfinal => absurd hfinal (by decide)⟩
  | rejected found =>
    obtain ⟨hcompleted, hcancelled, hprocessing⟩ := horder refund hfound (found ▸ rfl)
    refine ⟨hprocessing, fun hfinal => ?_⟩
    exact ((hfinal.resolve_left hcompleted).resolve_right hcancelled).symm
  | cancelled notFinal =>
    obtain ⟨hrejected, hprocessing⟩ := horder refund hfound
    obtain ⟨hcompleted, hcancelled⟩ := not_or.mp notFinal
    exact ⟨hprocessing, fun hfinal =>
      absurd hfinal (by simp [RefundStatus.Final, hrejected, hcompleted, hcancelled])⟩
  | completed started =>
    exact ⟨started.not_processing, fun hfinal => absurd hfinal started.not_final⟩

/-! ## Turns -/

theorem Turned.waited (h : Turned valueText g act g') (hg : Waited g) (horder : InOrder g act) :
    Waited g' := by
  have hset : ∀ {refund'}, AsksOnce refund' → g'.state.refunds = g.state.refunds.set refund' →
      ∀ refund ∈ g'.state.refunds, AsksOnce refund := by
    intro refund' hasks hrefunds refund hmem
    rw [hrefunds] at hmem
    rcases Table.mem_set.mp hmem with rfl | ⟨hold, _⟩
    · exact hasks
    · exact hg.asks refund hold
  -- what is in flight elsewhere is another refund
  have hkept : ∀ {refund' id}, id ∈ inFlight g.tasks → id ≠ refund'.id →
      g'.state.refunds = g.state.refunds.set refund' →
        ∃ refund, g'.state.refunds.get id = some refund ∧ refund.status = .processing := by
    intro refund' id hmem hne hrefunds
    rw [hrefunds, Table.get_set_ne hne]
    exact hg.processing id hmem
  cases h with
  | same refunds asked waiting =>
    refine ⟨waiting.nodup hg.nodup, fun id hmem => ?_, refunds ▸ hg.asks⟩
    rw [refunds]
    exact hg.processing id (waiting.subset hmem)
  | created fresh refunds asked waiting =>
    refine ⟨waiting ▸ hg.nodup, fun id hmem => ?_, hset created_asks refunds⟩
    rw [waiting] at hmem
    refine hkept hmem (fun he => ?_) refunds
    obtain ⟨refund, hfound, _⟩ := hg.processing id hmem
    exact absurd (fresh.symm.trans (he ▸ hfound)) (Option.some_ne_none _).symm
  | changed found change refunds asked waiting =>
    have hasks := hg.asks _ (Table.get_some found).1
    refine ⟨waiting.nodup_iff.mpr hg.nodup, fun id hmem => ?_, hset (change.asks hasks) refunds⟩
    have hold := waiting.mem_iff.mp hmem
    refine hkept hold (fun he => ?_) refunds
    obtain ⟨refund, hget, hstatus⟩ := hg.processing id hold
    rw [he, change.keeps.id, found] at hget
    obtain rfl := Option.some.inj hget
    exact (change.stays hasks found horder).1 hstatus
  | @asked _ r r' _ found start refunds asked waiting =>
    have hnew := start.asks (hg.asks r (Table.get_some found).1)
    have hnotin : r.id ∉ inFlight g.tasks := by
      intro hmem
      obtain ⟨refund, hget, hprocessing⟩ := hg.processing _ hmem
      obtain rfl := Option.some.inj (found.symm.trans hget)
      exact start.not_processing hprocessing
    refine ⟨waiting.nodup_iff.mpr (List.nodup_cons.mpr ⟨hnotin, hg.nodup⟩), fun id hmem => ?_,
      hset hnew refunds⟩
    by_cases he : id = r.id
    · refine ⟨_, ?_, start.processing⟩
      rw [refunds, he, ← start.keeps.id]
      exact Table.get_set_self _ _
    · exact hkept ((List.mem_cons.mp (waiting.mem_iff.mp hmem)).resolve_left he)
        (start.keeps.id ▸ he) refunds
  | @answered _ r answer _ found refunds asked waiting =>
    obtain ⟨hnotin, hnodup⟩ := List.nodup_cons.mp (waiting.nodup_iff.mp hg.nodup)
    obtain ⟨refund, hget, hstatus⟩ := hg.processing _ (waiting.mem_iff.mpr List.mem_cons_self)
    obtain rfl := Option.some.inj (found.symm.trans hget)
    have hnew := (hg.asks r (Table.get_some found).1).of_approvals (by rw [hstatus]; decide)
      (by rw [hstatus]; decide) (answered_approvals r answer)
    refine ⟨hnodup, fun id hmem => ?_, hset hnew refunds⟩
    refine hkept (waiting.mem_iff.mpr (List.mem_cons_of_mem _ hmem)) (fun he => ?_) refunds
    rw [he, (keeps_answered r answer).id] at hmem
    exact hnotin hmem

/-- The status of a refund, and how often the provider has been asked for it. -/
structure Rests (g : Engine) (refundId : RefundId) (status : RefundStatus) (count : Nat) :
    Prop where
  status : (g.state.refunds.get refundId).map (·.status) = some status
  asked : g.state.asked.count refundId = count

theorem Turned.rests {status : RefundStatus} {count : Nat} (h : Turned valueText g act g')
    (hg : Waited g) (horder : InOrder g act) (hfinal : status.Final)
    (hr : Rests g refundId status count) : Rests g' refundId status count := by
  obtain ⟨⟨refund, hget, rfl⟩, hcount⟩ :
      (∃ refund, g.state.refunds.get refundId = some refund ∧ refund.status = status) ∧ _ :=
    ⟨Option.map_eq_some_iff.mp hr.status, hr.asked⟩
  have hkept : ∀ {refund'}, g'.state.refunds = g.state.refunds.set refund' →
      refund'.id ≠ refundId →
        (g'.state.refunds.get refundId).map (·.status) = some refund.status := by
    intro refund' hrefunds hne
    rw [hrefunds, Table.get_set_ne hne.symm, hget]
    rfl
  cases h with
  | same refunds asked waiting =>
    refine ⟨?_, asked ▸ hcount⟩
    rw [refunds, hget]
    rfl
  | @created input told _ fresh refunds asked waiting =>
    refine ⟨hkept refunds fun he => ?_, asked ▸ hcount⟩
    obtain rfl : told.uuids.refund = refundId := he
    exact absurd (fresh.symm.trans hget) (Option.some_ne_none _).symm
  | @changed _ r r' _ found change refunds asked waiting =>
    refine ⟨?_, asked ▸ hcount⟩
    by_cases he : r.id = refundId
    · subst he
      obtain rfl := Option.some.inj (found.symm.trans hget)
      have hstays := (change.stays (hg.asks _ (Table.get_some found).1) found horder).2 hfinal
      rw [refunds, ← change.keeps.id, Table.get_set_self, Option.map_some, hstays]
    · exact hkept refunds (change.keeps.id ▸ he)
  | @asked _ r r' _ found start refunds asked waiting =>
    have hne : r.id ≠ refundId := by
      rintro rfl
      obtain rfl := Option.some.inj (found.symm.trans hget)
      exact start.not_final hfinal
    refine ⟨hkept refunds (start.keeps.id ▸ hne), ?_⟩
    rw [asked, List.count_append, List.count_singleton, if_neg (by simpa using hne), hcount,
      Nat.add_zero]
  | @answered _ r answer _ found refunds asked waiting =>
    have hne : r.id ≠ refundId := by
      rintro rfl
      obtain ⟨r', hr', hstatus⟩ := hg.processing _ (waiting.mem_iff.mpr List.mem_cons_self)
      obtain rfl := Option.some.inj (hget.symm.trans hr')
      rw [hstatus] at hfinal
      exact absurd hfinal (by decide)
    exact ⟨hkept refunds ((keeps_answered r answer).id ▸ hne), asked ▸ hcount⟩

/-! ## Runs -/

theorem waited_initial : Waited initial where
  nodup := List.nodup_nil
  processing := fun _ hmem => absurd hmem List.not_mem_nil
  asks := fun _ hmem => absurd hmem (Table.not_mem_empty _)

theorem waited_run {acts : List (Act Call Told)}
    (h : Along (machine (engine valueText)) InOrder initial acts) :
    Waited (run (machine (engine valueText)) initial acts) :=
  run_invariant (fun g act hg horder => (turned_commit valueText g act).waited hg horder)
    waited_initial h

/-- While all calls are in order, a refund that has come to a final status keeps it, and the
provider is not asked for it again. -/
theorem final_status_stays (valueText : RuleValue → String) (refundId : RefundId)
    (acts later : List (Act Call Told))
    (h : Along (machine (engine valueText)) InOrder initial (acts ++ later)) (refund : RefundRecord)
    (hget : (run (machine (engine valueText)) initial acts).state.refunds.get refundId =
      some refund) (hfinal : refund.status.Final) :
    ∃ refund', (run (machine (engine valueText)) initial (acts ++ later)).state.refunds.get
        refundId = some refund' ∧ refund'.status = refund.status ∧
      (run (machine (engine valueText)) initial (acts ++ later)).state.asked.count refundId =
        (run (machine (engine valueText)) initial acts).state.asked.count refundId := by
  obtain ⟨hacts, hlater⟩ := along_append.mp h
  have hrests : Rests (run (machine (engine valueText)) initial acts) refundId refund.status _ :=
    ⟨by rw [hget]; rfl, rfl⟩
  have hend := run_invariant
    (I := fun g => Waited g ∧ Rests g refundId refund.status
      ((run (machine (engine valueText)) initial acts).state.asked.count refundId))
    (fun g act hg horder => ⟨(turned_commit valueText g act).waited hg.1 horder,
      (turned_commit valueText g act).rests hg.1 horder hfinal hg.2⟩)
    ⟨waited_run hacts, hrests⟩ hlater
  rw [run_append]
  obtain ⟨refund', hget', hstatus⟩ := Option.map_eq_some_iff.mp hend.2.status
  exact ⟨refund', hget', hstatus, hend.2.asked⟩

def told : Told := ⟨⟨"", ""⟩, .succeeds none⟩

/-- A refund that the first approver has to decide. -/
def reviewed : List (Act Call Told) := [asks "pay-1" 1000 200 60 "1"]

def approves : Act Call Told := .call (.approveRefund "1" "approver" .first none) told

def rejects : Act Call Told := .call (.rejectRefund "1" "approver" .first none) told

def cancels : Act Call Told := .call (.cancelRefund "1" "customer" none) told

/-- The provider is asked. -/
def sends : Act Call Told := .call (.processRefund "1" true) told

def answers : Act Call Told := .resume 0 told

/-- The refund is paid, and calls that are refused follow. -/
theorem paid_stays : ∃ refund', (run (machine (engine noText)) initial
      (reviewed ++ [approves, sends, answers] ++ [cancels, approves])).state.refunds.get "1" =
        some refund' ∧ refund'.status = .completed := by
  have hrun : ((run (machine (engine noText)) initial
        (reviewed ++ [approves, sends, answers])).state.refunds.get "1").map (·.status) =
      some .completed ∧ Along (machine (engine noText)) InOrder initial
        (reviewed ++ [approves, sends, answers] ++ [cancels, approves]) := by
    decide +kernel
  obtain ⟨refund, hget, hstatus⟩ := Option.map_eq_some_iff.mp hrun.1
  obtain ⟨refund', hget', hstatus', _⟩ :=
    final_status_stays noText "1" _ _ hrun.2 refund hget (hstatus ▸ .inl rfl)
  exact ⟨refund', hget', hstatus'.trans hstatus⟩

/-- The status of the refund after some acts, and how often the provider has been asked for it. -/
def outcome (acts : List (Act Call Told)) : Option RefundStatus × Nat :=
  (((run (machine (engine noText)) initial acts).state.refunds.get "1").map (·.status),
    (run (machine (engine noText)) initial acts).state.asked.count "1")

/-- A refund that is paid is rejected; one that is rejected, cancelled; one that is cancelled,
approved and paid; and one that is cancelled before the answer of the provider, paid. -/
theorem final_left :
    (outcome (reviewed ++ [approves, sends, answers]) = (some .completed, 1) ∧
        outcome (reviewed ++ [approves, sends, answers] ++ [rejects]) = (some .rejected, 1)) ∧
      (outcome (reviewed ++ [rejects]) = (some .rejected, 0) ∧
        outcome (reviewed ++ [rejects] ++ [cancels]) = (some .cancelled, 0)) ∧
      (outcome (reviewed ++ [cancels]) = (some .cancelled, 0) ∧
        outcome (reviewed ++ [cancels] ++ [approves, sends, answers]) =
          (some .completed, 1)) ∧
      (outcome (reviewed ++ [approves, sends, cancels]) = (some .cancelled, 1) ∧
        outcome (reviewed ++ [approves, sends, cancels] ++ [answers]) =
          (some .completed, 1)) ∧
      ¬ ∀ (valueText : RuleValue → String) (refundId : RefundId) (acts later : List (Act Call Told))
          (refund : RefundRecord),
        (run (machine (engine valueText)) initial acts).state.refunds.get refundId =
            some refund → refund.status.Final →
          ∃ refund', (run (machine (engine valueText)) initial
              (acts ++ later)).state.refunds.get refundId = some refund' ∧
            refund'.status = refund.status := by
  have hruns : (outcome (reviewed ++ [approves, sends, answers]) = (some .completed, 1) ∧
        outcome (reviewed ++ [approves, sends, answers] ++ [rejects]) = (some .rejected, 1)) ∧
      (outcome (reviewed ++ [rejects]) = (some .rejected, 0) ∧
        outcome (reviewed ++ [rejects] ++ [cancels]) = (some .cancelled, 0)) ∧
      (outcome (reviewed ++ [cancels]) = (some .cancelled, 0) ∧
        outcome (reviewed ++ [cancels] ++ [approves, sends, answers]) =
          (some .completed, 1)) ∧
      (outcome (reviewed ++ [approves, sends, cancels]) = (some .cancelled, 1) ∧
        outcome (reviewed ++ [approves, sends, cancels] ++ [answers]) =
          (some .completed, 1)) := by
    decide +kernel
  refine ⟨hruns.1, hruns.2.1, hruns.2.2.1, hruns.2.2.2, fun hall => ?_⟩
  obtain ⟨hbefore, hafter⟩ := hruns.2.1
  obtain ⟨refund, hget, hstatus⟩ := Option.map_eq_some_iff.mp (congrArg Prod.fst hbefore)
  obtain ⟨refund', hget', hstatus'⟩ :=
    hall noText "1" (reviewed ++ [rejects]) [cancels] refund hget (hstatus ▸ .inr (.inl rfl))
  have hcancelled := congrArg Prod.fst hafter
  rw [outcome, hget', Option.map_some, hstatus', hstatus] at hcancelled
  contradiction

end Refunds
