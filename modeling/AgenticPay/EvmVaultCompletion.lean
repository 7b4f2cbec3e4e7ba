import AgenticPay.EvmVaultCustody

/-!
# When a released vault of the payment vault is complete

The amounts of the milestones are rounded down one by one. What rounding leaves stays
in the vault, which is then not completed by its last release.
-/
namespace EvmPaymentVault

open Evm Reentrancy Transaction

/-- A release of the vault waits for its payment. -/
def Releasing (frames : List (State × Rest)) (v : Nat) : Prop :=
  ∃ frame ∈ frames, ∃ i releaseAmount, frame.2 = .release v i releaseAmount

/-- A vault of which everything is released is completed, unless the last release still waits. -/
def Settled (s : State) (frames : List (State × Rest)) : Prop :=
  ∀ v < s.vaultCount, (s.vaults v).totalAmount ≤ (s.vaults v).releasedAmount →
    (s.vaults v).status = .completed ∨ Releasing frames v

variable {a a' : Account} {rest : Rest} {o : Option Rest} {msg : Message} {f : Function}
  {self : Address} {v u : Nat} {s s' snapshot : State} {frames frames' : List (State × Rest)}
  {C : Nat → Account → Account → Prop}

namespace Account

/-- Everything is released. -/
def full (a : Account) : Prop := a.vault.totalAmount ≤ a.vault.releasedAmount

theorem settle_completed (h : a.settle.full) : a.settle.vault.status = .completed := by
  rw [settle] at h ⊢
  split
  · rfl
  · rename_i hless
    rw [if_neg hless] at h
    exact absurd h hless

/-- After a call that does not wait, a vault of which everything is released is completed, or
that was so before. After one that waits, the release that waits is the other possibility. -/
theorem full_change (h : Change self msg v a f o a') (hfull : a'.full) :
    a'.vault.status = .completed ∨ (∃ i x, o = some (.release v i x)) ∨
      a.full ∧ a.vault.status.closed = false := by
  have hopen := not_closed_of_change h
  cases h with
  | @released _ i _ _ _ _ _ _ hs =>
    cases hs with
    | nothing => exact .inl (settle_completed hfull)
    | sent => exact .inr (.inl ⟨_, _, rfl⟩)
  | refunded _ _ hs =>
    cases hs with
    | nothing => exact .inr (.inr ⟨hfull, hopen⟩)
    | sent => exact .inr (.inr ⟨hfull, hopen⟩)
  | disputed => exact .inr (.inr ⟨hfull, hopen⟩)
  | resolved _ _ hs =>
    cases hs with
    | nothing => exact .inr (.inr ⟨hfull, hopen⟩)
    | sent => exact .inr (.inr ⟨hfull, hopen⟩)

end Account

/-- The vaults that a step does not change are settled as before, and so is the changed one if
the step leaves it so. -/
theorem Posted.settled (h : Posted C s.toBooks s'.toBooks) (hs : Settled s frames)
    (hkeep : ∀ v, (s'.toBooks.account v).full → Releasing frames v →
      (s'.vaults v).status = .completed ∨ Releasing frames' v)
    (hC : ∀ u, C u (s.toBooks.account u) (s'.toBooks.account u) →
      (s'.toBooks.account u).full → (s'.vaults u).status = .completed ∨ Releasing frames' u ∨
        (s.toBooks.account u).full ∧
          ((s.vaults u).status = .completed → (s'.vaults u).status = .completed)) :
    Settled s' frames' := by
  have hsame : ∀ v < s.vaultCount, s'.toBooks.account v = s.toBooks.account v →
      (s'.toBooks.account v).full → (s'.vaults v).status = .completed ∨ Releasing frames' v := by
    intro v hmade he hfull
    have hvault : s'.vaults v = s.vaults v := (Account.mk.inj he).1
    rw [he] at hfull
    obtain hcompleted | hreleasing := hs v hmade hfull
    · exact .inl (hvault ▸ hcompleted)
    · exact hkeep v (he ▸ hfull) hreleasing
  intro v hmade hfull
  cases h with
  | kept hcount haccounts => exact hsame v (hcount ▸ hmade) (haccounts v) hfull
  | @opened args depositor totalAmount _ hfunded _ hcount hnew haccounts =>
    by_cases he : v = s.vaultCount
    · have hvault : s'.vaults v = (Account.opened args depositor totalAmount).vault := by
        rw [he]
        exact (Account.mk.inj hnew).1
      rw [hvault] at hfull
      exact absurd hfull (Nat.not_le_of_lt hfunded)
    · exact hsame v (by omega) (haccounts v he) hfull
  | @changed u hmade' hchange hcount haccounts =>
    by_cases he : v = u
    · subst he
      obtain hcompleted | hreleasing | ⟨hfull', hstays⟩ := hC v hchange hfull
      · exact .inl hcompleted
      · exact .inr hreleasing
      · obtain hcompleted | hreleasing := hs v hmade' hfull'
        · exact .inl (hstays hcompleted)
        · exact hkeep v hfull hreleasing
    · exact hsame v (hcount ▸ hmade) (haccounts v he) hfull

theorem settled_enter {c : Call} (hkept : Kept s frames) (hs : Settled s frames)
    (h : (contract self).enter c s = .ok (o, s')) (hframes : ∀ frame ∈ frames, frame ∈ frames')
    (hnew : ∀ rest, o = some rest → (s, rest) ∈ frames') : Settled s' frames' := by
  have hkeep : ∀ v, Releasing frames v → Releasing frames' v :=
    fun v ⟨frame, hframe, hrest⟩ => ⟨frame, hframes frame hframe, hrest⟩
  refine (hkept.1.step h).1.settled hs (fun v _ hreleasing => .inr (hkeep v hreleasing)) ?_
  intro u hchange hfull
  obtain hcompleted | ⟨i, x, ho⟩ | hbefore := Account.full_change hchange hfull
  · exact .inl hcompleted
  · exact .inr (.inl ⟨_, hnew _ ho, i, x, rfl⟩)
  · refine .inr (.inr ⟨hbefore.1, fun hcompleted => ?_⟩)
    have hopen : (s.vaults u).status.closed = false := hbefore.2
    rw [hcompleted] at hopen
    contradiction

theorem settled_resume (hkept : Kept s ((snapshot, rest) :: frames))
    (hs : Settled s ((snapshot, rest) :: frames)) (h : (contract self).resume rest s = .ok s') :
    Settled s' frames := by
  have hready := (hkept.2 _ List.mem_cons_self).1
  refine (hkept.1.resume hready h).1.settled hs ?_ ?_
  · rintro v hfull ⟨frame, hframe, i, x, hrest⟩
    obtain rfl | hframe := List.mem_cons.mp hframe
    · have hrelease : rest = .release v i x := hrest
      subst hrelease
      have hafter := ((resume_resumed h).accounts rfl).2.2 v
      rw [if_pos rfl] at hafter
      have hvault : s'.vaults v = (s.toBooks.account v).settle.vault := (Account.mk.inj hafter).1
      rw [hafter] at hfull
      exact .inl (hvault ▸ Account.settle_completed hfull)
    · exact .inr ⟨frame, hframe, i, x, hrest⟩
  · rintro u ⟨hu, he⟩ hfull
    have hvault : s'.vaults u = ((s.toBooks.account u).after rest).vault := (Account.mk.inj he).1
    rw [he] at hfull
    cases rest with
    | create => contradiction
    | release => exact .inl (hvault ▸ Account.settle_completed hfull)
    | refund => exact .inr (.inr ⟨hfull, fun hcompleted => hvault ▸ hcompleted⟩)
    | resolve => exact .inr (.inr ⟨hfull, fun hcompleted => hvault ▸ hcompleted⟩)

theorem keeps_settled (self : Address) :
    Keeps (contract self) (fun _ _ => True)
      (fun s frames => Kept s frames ∧ Settled s frames) where
  finish hq hp henter :=
    ⟨(keeps_kept self).finish hq hp.1 henter, settled_enter hp.1 hp.2 henter (fun _ h => h)
      fun _ he => by contradiction⟩
  wait hq hp henter :=
    ⟨(keeps_kept self).wait hq hp.1 henter, settled_enter hp.1 hp.2 henter
      (fun _ h => List.mem_cons_of_mem _ h)
      fun _ he => Option.some.inj he ▸ List.mem_cons_self⟩
  resume hp hsnapshot hresume :=
    ⟨(keeps_kept self).resume hp.1 hsnapshot.1 hresume, settled_resume hp.1 hp.2 hresume⟩

theorem settled_run (self : Address) (acts : List (Act Call)) :
    Holds (fun s frames => Kept s frames ∧ Settled s frames)
      (run (machine (contract self)) ⟨deployed, []⟩ acts).state
      (run (machine (contract self)) ⟨deployed, []⟩ acts).frames :=
  holds_run_any (g := ⟨deployed, []⟩) (keeps_settled self)
    ⟨⟨valid_deployed, fun _ h => absurd h List.not_mem_nil⟩,
      fun _ hv => absurd hv (Nat.not_lt_zero _)⟩ acts

/-! ## What rounding leaves -/

/-- With all milestones released, everything is exactly if no amount has been rounded. -/
theorem Account.released_eq_total_iff (h : a.Sound 0)
    (hreleased : ∀ i < a.vault.milestoneCount, (a.milestones i).status = .released) :
    a.vault.releasedAmount = a.vault.totalAmount ↔
      ∀ i < a.vault.milestoneCount,
        10000 ∣ a.vault.totalAmount * (a.milestones i).amountBps.toNat := by
  have hsum : a.vault.releasedAmount =
      (Apportion.floors a.vault.totalAmount 10000 ((List.range a.vault.milestoneCount).map
        fun i => (a.milestones i).amountBps.toNat)).sum := by
    rw [h.released, releasedSum, Totals.total_congr fun i hi => if_pos (hreleased i hi),
      total_amount_eq]
  rw [hsum, Apportion.sum_floors_eq_iff (by decide) h.whole, List.forall_mem_map]
  simp only [List.mem_range]

/-- A vault whose milestones have all been released is completed and has released its whole
amount exactly if no milestone's amount has been rounded. -/
theorem completed_iff (self : Address) (acts : List (Act Call)) {g : Config State Rest}
    (hrun : run (machine (contract self)) ⟨deployed, []⟩ acts = g) {v : Nat}
    (hmade : v < g.state.vaultCount)
    (hreleased : ∀ i < (g.state.vaults v).milestoneCount,
      (g.state.milestones v i).status = .released)
    (hdone : ¬ Releasing g.frames v) :
    ((g.state.vaults v).releasedAmount = (g.state.vaults v).totalAmount ∧
        (g.state.vaults v).status = .completed) ↔
      ∀ i < (g.state.vaults v).milestoneCount,
        10000 ∣ (g.state.vaults v).totalAmount * (g.state.milestones v i).amountBps.toNat := by
  obtain ⟨⟨hvalid, _⟩, hsettled⟩ := (settled_run self acts).here
  rw [hrun] at hvalid hsettled
  have hexact := Account.released_eq_total_iff (hvalid.sound v hmade) hreleased
  constructor
  · exact fun h => hexact.mp h.1
  · intro hdivides
    have htotal := hexact.mpr hdivides
    exact ⟨htotal, (hsettled v hmade htotal.ge).resolve_right hdone⟩

/-- Two milestones of one half each, both approved by the depositor. -/
def halves (value : Nat) : List (Act Call) :=
  [.call ⟨⟨⟨1⟩, value, 0⟩, .createVault
      ⟨⟨2⟩, .zero, ["design", "build"], [5000, 5000], [0, 0], [.zero, .zero]⟩ 0⟩,
    .call ⟨⟨⟨1⟩, 0, 0⟩, .approveMilestone 0 0⟩, .answer true,
    .call ⟨⟨⟨1⟩, 0, 0⟩, .approveMilestone 0 1⟩, .answer true]

theorem completed_iff_four :
    ((run (machine (contract ⟨9⟩)) ⟨deployed, []⟩ (halves 4)).state.vaults 0).releasedAmount = 4 ∧
        ((run (machine (contract ⟨9⟩)) ⟨deployed, []⟩ (halves 4)).state.vaults 0).status =
          .completed ↔
      ∀ i < 2, 10000 ∣ 4 * ((run (machine (contract ⟨9⟩)) ⟨deployed, []⟩
        (halves 4)).state.milestones 0 i).amountBps.toNat :=
  completed_iff ⟨9⟩ (halves 4) rfl (by decide) (by decide) (by
    rintro ⟨frame, hframe, _⟩
    exact absurd hframe List.not_mem_nil)

/-- Of 3, each half is 1, and the vault stays active with 1 left. -/
theorem halves_of_three :
    let g := run (machine (contract ⟨9⟩)) ⟨deployed, []⟩ (halves 3)
    g.frames = [] ∧ g.state.vaultCount = 1 ∧
      (∀ i < (g.state.vaults 0).milestoneCount, (g.state.milestones 0 i).status = .released) ∧
      (g.state.vaults 0).totalAmount = 3 ∧ (g.state.vaults 0).releasedAmount = 2 ∧
      (g.state.vaults 0).status = .active :=
  ⟨rfl, rfl, by decide, rfl, rfl, rfl⟩

end EvmPaymentVault
