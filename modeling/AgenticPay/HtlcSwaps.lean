import AgenticPay.HtlcContract

/-!
# The life of a swap

A swap is stored Pending and changes its status at most twice: Pending to
Claimed, Refunded or Disputed, and Disputed to Claimed or Refunded. Below, what
each call may do to one swap, the invariant that ties the revealed secrets to the
claimed swaps, and what calls made before the timelock do to a later claim.
-/
namespace HtlcContract

open Soroban Contract Transaction

/-- What a call may do to the swap `id`. -/
inductive Swap.Moves (sha256 : BytesN32 → BytesN32) (admin : Address) (env : Env) (id : Nat) :
    Call → Swap → Swap → Prop
  | kept {call p} : Swap.Moves sha256 admin env id call p p
  | claimed {preimage p} (pending : p.status = .pending) (early : env.timestamp < p.timelock)
      (opens : sha256 preimage = p.hashlock) :
      Swap.Moves sha256 admin env id (.claim id preimage) p { p with status := .claimed }
  | refunded {p} (unsettled : p.status = .pending ∨ p.status = .disputed)
      (late : p.timelock ≤ env.timestamp)
      (closed : p.status = .disputed → p.disputeDeadline ≤ env.timestamp) :
      Swap.Moves sha256 admin env id (.refund id) p { p with status := .refunded }
  | disputed {p} (pending : p.status = .pending) (early : env.timestamp < p.timelock) :
      Swap.Moves sha256 admin env id (.raiseDispute id) p { p with status := .disputed }
  | resolved {release p} (signed : admin ∈ env.auths) (disputed : p.status = .disputed) :
      Swap.Moves sha256 admin env id (.resolveDispute admin id release) p
        { p with status := if release then .claimed else .refunded }

variable {sha256 : BytesN32 → BytesN32} {admin : Address} {env : Env} {w w' : World} {id : Nat}
  {p p' : Swap} {call : Call} {i : Submission Call}

/-- The world `initialize` leaves of the deployed one. -/
def initialized (admin : Address) : World where
  storage :=
    { admin := some admin, init := some true, swapCount := some 0, swap := fun _ => none,
      secret := fun _ => none }
  events := []

/-- What holds in every state after `initialize`. -/
structure Sound (sha256 : BytesN32 → BytesN32) (admin : Address) (w : World) : Prop where
  ready : w.storage.init = some true
  admin : w.storage.admin = some admin
  bounded : Registry.Bounded w.storage.swap (w.storage.swapCount.getD 0)
  revealed : ∀ id secret, w.storage.secret id = some secret →
    ∃ p, w.storage.swap id = some p ∧ p.status = .claimed ∧ sha256 secret = p.hashlock

theorem sound_initialized : Sound sha256 admin (initialized admin) where
  ready := rfl
  admin := rfl
  bounded := Registry.bounded_empty
  revealed := by
    intro id secret h
    contradiction

/-- No step removes a swap, and each does to it what its call may do. -/
theorem Step.moves (h : Step sha256 env w call w') (hs : Sound sha256 admin w)
    (hp : w.storage.swap id = some p) :
    ∃ p', w'.storage.swap id = some p' ∧ Swap.Moves sha256 admin env id call p p' := by
  cases h with
  | viewed _ => exact ⟨p, hp, .kept⟩
  | initialized first _ => exact absurd (first.symm.trans hs.ready) (by simp)
  | created _ _ _ next _ _ =>
    have hle := hs.bounded.le hp
    refine ⟨p, ?_, .kept⟩
    simp only [Storage.putSwap]
    rw [Function.update_of_ne (by omega), hp]
  | claimed _ found pending early opens =>
    rcases Registry.overwrite_cases found hp with ⟨rfl, rfl, hput⟩ | ⟨_, hput⟩
    · exact ⟨_, hput, .claimed pending early opens⟩
    · exact ⟨p, hput, .kept⟩
  | refunded _ found unsettled late closed =>
    rcases Registry.overwrite_cases found hp with ⟨rfl, rfl, hput⟩ | ⟨_, hput⟩
    · exact ⟨_, hput, .refunded unsettled late closed⟩
    · exact ⟨p, hput, .kept⟩
  | disputed _ found pending early =>
    rcases Registry.overwrite_cases found hp with ⟨rfl, rfl, hput⟩ | ⟨_, hput⟩
    · exact ⟨_, hput, .disputed pending early⟩
    · exact ⟨p, hput, .kept⟩
  | resolved _ stored signed found disputed =>
    obtain rfl := Option.some.inj (stored.symm.trans hs.admin)
    rcases Registry.overwrite_cases found hp with ⟨rfl, rfl, hput⟩ | ⟨_, hput⟩
    · exact ⟨_, hput, .resolved signed disputed⟩
    · exact ⟨p, hput, .kept⟩

/-- A call leaves everything of a swap but its status. -/
theorem Swap.Moves.terms (h : Swap.Moves sha256 admin env id call p p') :
    p' = { p with status := p'.status } := by
  cases h <;> rfl

/-- No call moves a settled swap. -/
theorem Swap.Moves.settled (h : Swap.Moves sha256 admin env id call p p')
    (hp : p.status = .claimed ∨ p.status = .refunded) : p' = p := by
  cases h with
  | kept => rfl
  | claimed pending _ _ => rcases hp with hp | hp <;> rw [pending] at hp <;> contradiction
  | refunded unsettled _ _ =>
    rcases hp with hp | hp <;> rcases unsettled with hu | hu <;> rw [hu] at hp <;> contradiction
  | disputed pending _ => rcases hp with hp | hp <;> rw [pending] at hp <;> contradiction
  | resolved _ disputed => rcases hp with hp | hp <;> rw [disputed] at hp <;> contradiction

/-- A secret was stored before, or the step claims its swap with it. -/
theorem Step.secret (h : Step sha256 env w call w') {secret : BytesN32}
    (hsec : w'.storage.secret id = some secret) :
    w.storage.secret id = some secret ∨
      ∃ p, w'.storage.swap id = some p ∧ p.status = .claimed ∧ sha256 secret = p.hashlock := by
  cases h with
  | @claimed k preimage q _ found _ _ opens =>
    by_cases he : id = k
    · subst he
      obtain rfl : preimage = secret := by simpa [Storage.putSecret] using hsec
      exact .inr ⟨{ q with status := .claimed },
        by simp [Storage.putSecret, Storage.putSwap], rfl, opens⟩
    · refine .inl ?_
      simpa [Storage.putSecret, Storage.putSwap, Function.update_of_ne he] using hsec
  | _ => exact .inl hsec

theorem Step.bounded (h : Step sha256 env w call w') (hs : Sound sha256 admin w) :
    Registry.Bounded w'.storage.swap (w'.storage.swapCount.getD 0) := by
  cases h with
  | viewed _ => exact hs.bounded
  | initialized first _ => exact absurd (first.symm.trans hs.ready) (by simp)
  | created _ _ _ next _ _ =>
    subst next
    exact Registry.Grows.add.bounded hs.bounded
  | claimed _ found _ _ _ => exact (Registry.Grows.overwrite found).bounded hs.bounded
  | refunded _ found _ _ _ => exact (Registry.Grows.overwrite found).bounded hs.bounded
  | disputed _ found _ _ => exact (Registry.Grows.overwrite found).bounded hs.bounded
  | resolved _ _ _ found _ => exact (Registry.Grows.overwrite found).bounded hs.bounded

theorem Step.sound (h : Step sha256 env w call w') (hs : Sound sha256 admin w) :
    Sound sha256 admin w' where
  ready := by
    cases h with
    | initialized _ _ => rfl
    | _ => exact hs.ready
  admin := by
    cases h with
    | initialized first _ => exact absurd (first.symm.trans hs.ready) (by simp)
    | _ => exact hs.admin
  bounded := h.bounded hs
  revealed := by
    intro id secret hsec
    rcases h.secret hsec with hold | hnew
    · obtain ⟨p, hp, hclaimed, hopens⟩ := hs.revealed id secret hold
      obtain ⟨p', hp', hmoves⟩ := h.moves hs hp
      rw [hmoves.settled (.inl hclaimed)] at hp'
      exact ⟨p, hp', hclaimed, hopens⟩
    · exact hnew

theorem Sound.commit (hs : Sound sha256 admin w) (i : Submission Call) :
    Sound sha256 admin (commit (contract sha256) w i) := by
  rcases commit_step sha256 w i with hstep | he
  · exact hstep.sound hs
  · rwa [he]

theorem Sound.run (hs : Sound sha256 admin w) (cs : List (Submission Call)) :
    Sound sha256 admin (run (contract sha256) w cs) :=
  run_preserves (fun _ i h => h.commit i) hs cs

/-- What a committed submission does to a stored swap. -/
theorem commit_moves (hs : Sound sha256 admin w) (i : Submission Call)
    (hp : w.storage.swap id = some p) :
    ∃ p', (commit (contract sha256) w i).storage.swap id = some p' ∧
      Swap.Moves sha256 admin i.env id i.call p p' := by
  rcases commit_step sha256 w i with hstep | he
  · exact hstep.moves hs hp
  · exact ⟨p, by rw [he, hp], .kept⟩

/-- A swap that is claimed or refunded stays as it is in every later state. -/
theorem settled_run (hs : Sound sha256 admin w) (hp : w.storage.swap id = some p)
    (hsettled : p.status = .claimed ∨ p.status = .refunded) (cs : List (Submission Call)) :
    (run (contract sha256) w cs).storage.swap id = some p := by
  have hinv : Sound sha256 admin (run (contract sha256) w cs) ∧
      (run (contract sha256) w cs).storage.swap id = some p := by
    refine run_preserves (I := fun v => Sound sha256 admin v ∧ v.storage.swap id = some p)
      ?_ ⟨hs, hp⟩ cs
    rintro v i ⟨hv, hvp⟩
    obtain ⟨p', hp', hmoves⟩ := commit_moves hv i hvp
    rw [hmoves.settled hsettled] at hp'
    exact ⟨hv.commit i, hp'⟩
  exact hinv.2

/-- A step that stores a swap where there was none stores it Pending. -/
theorem Step.born (h : Step sha256 env w call w') (hnone : w.storage.swap id = none)
    (hp : w'.storage.swap id = some p) : p.status = .pending := by
  cases h with
  | viewed _ => exact absurd (hnone.symm.trans hp) (by simp)
  | initialized _ _ => exact absurd (hnone.symm.trans hp) (by simp)
  | created _ _ _ next _ _ =>
    subst next
    by_cases he : id = w.storage.swapCount.getD 0 + 1
    · subst he
      simp only [Storage.putSwap, Function.update_self, Option.some.injEq] at hp
      exact hp ▸ rfl
    · simp only [Storage.putSwap, Function.update_of_ne he] at hp
      exact absurd (hnone.symm.trans hp) (by simp)
  | claimed _ found _ _ _ => exact absurd hp (Registry.overwrite_ne_some found hnone)
  | refunded _ found _ _ _ => exact absurd hp (Registry.overwrite_ne_some found hnone)
  | disputed _ found _ _ => exact absurd hp (Registry.overwrite_ne_some found hnone)
  | resolved _ _ _ found _ => exact absurd hp (Registry.overwrite_ne_some found hnone)

/-- The swap `id` has `status` in the second world and not in the first. -/
def Becomes (status : SwapStatus) (w w' : World) (id : Nat) : Prop :=
  (∃ p, w'.storage.swap id = some p ∧ p.status = status) ∧
    ∀ p, w.storage.swap id = some p → p.status ≠ status

/-- The submission claims the swap in time with a preimage of its hashlock, or is the
admin's resolution of a dispute for the receiver. -/
def ClaimedBy (sha256 : BytesN32 → BytesN32) (admin : Address) (i : Submission Call) (id : Nat)
    (p : Swap) : Prop :=
  (∃ preimage, i.call = .claim id preimage ∧ i.env.timestamp < p.timelock ∧
    sha256 preimage = p.hashlock) ∨
  (i.call = .resolveDispute admin id true ∧ admin ∈ i.env.auths ∧ p.status = .disputed)

/-- The submission refunds the swap after its deadlines, or is the admin's resolution of
a dispute for the sender. -/
def RefundedBy (admin : Address) (i : Submission Call) (id : Nat) (p : Swap) : Prop :=
  (i.call = .refund id ∧ p.timelock ≤ i.env.timestamp ∧
    (p.status = .disputed → p.disputeDeadline ≤ i.env.timestamp)) ∨
  (i.call = .resolveDispute admin id false ∧ admin ∈ i.env.auths ∧ p.status = .disputed)

/-- A swap only comes to a status other than Pending by a move of it. -/
theorem Becomes.moved {status : SwapStatus} (hs : Sound sha256 admin w)
    (h : Becomes status w (commit (contract sha256) w i) id) (hne : status ≠ .pending) :
    ∃ p p', w.storage.swap id = some p ∧ Swap.Moves sha256 admin i.env id i.call p p' ∧
      p.status ≠ status ∧ p'.status = status := by
  obtain ⟨⟨q, hq, hstatus⟩, hbefore⟩ := h
  cases hp : w.storage.swap id with
  | none =>
    rcases commit_step sha256 w i with hstep | he
    · exact absurd (hstatus.symm.trans (hstep.born hp hq)) hne
    · rw [he, hp] at hq
      contradiction
  | some p =>
    obtain ⟨p', hp', hmoves⟩ := commit_moves hs i hp
    obtain rfl := Option.some.inj (hp'.symm.trans hq)
    exact ⟨p, p', rfl, hmoves, hbefore p hp, hstatus⟩

theorem Becomes.claimedBy (hs : Sound sha256 admin w)
    (h : Becomes .claimed w (commit (contract sha256) w i) id) :
    ∃ p, w.storage.swap id = some p ∧ ClaimedBy sha256 admin i id p := by
  obtain ⟨p, p', hp, hmoves, hne, hstatus⟩ := h.moved hs (by decide)
  refine ⟨p, hp, ?_⟩
  unfold ClaimedBy
  generalize i.call = call at hmoves ⊢
  cases hmoves with
  | kept => exact absurd hstatus hne
  | claimed _ early opens => exact .inl ⟨_, rfl, early, opens⟩
  | refunded _ _ _ => contradiction
  | disputed _ _ => contradiction
  | @resolved release _ signed disputed =>
    cases release with
    | true => exact .inr ⟨rfl, signed, disputed⟩
    | false => contradiction

theorem Becomes.refundedBy (hs : Sound sha256 admin w)
    (h : Becomes .refunded w (commit (contract sha256) w i) id) :
    ∃ p, w.storage.swap id = some p ∧ RefundedBy admin i id p := by
  obtain ⟨p, p', hp, hmoves, hne, hstatus⟩ := h.moved hs (by decide)
  refine ⟨p, hp, ?_⟩
  unfold RefundedBy
  generalize i.call = call at hmoves ⊢
  cases hmoves with
  | kept => exact absurd hstatus hne
  | claimed _ _ _ => contradiction
  | refunded _ late closed => exact .inl ⟨rfl, late, closed⟩
  | disputed _ _ => contradiction
  | @resolved release _ signed disputed =>
    cases release with
    | true => contradiction
    | false => exact .inr ⟨rfl, signed, disputed⟩

/-- Every run after `initialize`: a settled swap is final, a swap is claimed and refunded
only by the rules, and every stored secret opens a claimed swap. -/
theorem swaps_settle_by_rule (sha256 : BytesN32 → BytesN32) (admin : Address)
    (cs : List (Submission Call)) (id : Nat) :
    (∀ p, (run (contract sha256) (initialized admin) cs).storage.swap id = some p →
      p.status = .claimed ∨ p.status = .refunded →
      ∀ ds, (run (contract sha256) (initialized admin) (cs ++ ds)).storage.swap id = some p) ∧
    (∀ i, Becomes .claimed (run (contract sha256) (initialized admin) cs)
        (run (contract sha256) (initialized admin) (cs ++ [i])) id →
      ∃ p, (run (contract sha256) (initialized admin) cs).storage.swap id = some p ∧
        ClaimedBy sha256 admin i id p) ∧
    (∀ i, Becomes .refunded (run (contract sha256) (initialized admin) cs)
        (run (contract sha256) (initialized admin) (cs ++ [i])) id →
      ∃ p, (run (contract sha256) (initialized admin) cs).storage.swap id = some p ∧
        RefundedBy admin i id p) ∧
    (∀ secret, (run (contract sha256) (initialized admin) cs).storage.secret id = some secret →
      ∃ p, (run (contract sha256) (initialized admin) cs).storage.swap id = some p ∧
        p.status = .claimed ∧ sha256 secret = p.hashlock) := by
  have hs : Sound sha256 admin (run (contract sha256) (initialized admin) cs) :=
    sound_initialized.run cs
  refine ⟨fun p hp hsettled ds => ?_, fun i h => ?_, fun i h => ?_, hs.revealed id⟩
  · rw [run_append]
    exact settled_run hs hp hsettled ds
  · rw [run_snoc] at h
    exact h.claimedBy hs
  · rw [run_snoc] at h
    exact h.refundedBy hs

/-! ## Calls made before the timelock -/

/-- The call takes a Pending swap out of Pending: anyone's dispute does, and a claim with
a preimage of the hashlock. -/
def Takes (sha256 : BytesN32 → BytesN32) (id : Nat) (hashlock : BytesN32) (call : Call) : Prop :=
  call = .raiseDispute id ∨ ∃ preimage, call = .claim id preimage ∧ sha256 preimage = hashlock

/-- A call that takes a Pending swap before its timelock returns, whoever sends it. -/
theorem commit_takes (hs : Sound sha256 admin w) (hp : w.storage.swap id = some p)
    (hpending : p.status = .pending) (hearly : i.env.timestamp < p.timelock)
    (htakes : Takes sha256 id p.hashlock i.call) :
    ∃ status, status ≠ .pending ∧
      (commit (contract sha256) w i).storage.swap id = some { p with status } := by
  have hready : w.storage.init ≠ none := by simp [hs.ready]
  rcases htakes with hcall | ⟨preimage, hcall, hopens⟩
  · have hdispute : raiseDispute id i.env w = .ok ((), _) :=
      (raiseDispute_ok (u := ())).mpr ⟨hready, p, hp, hpending, hearly, rfl⟩
    refine ⟨.disputed, by decide, ?_⟩
    rw [contract, commit_returning (by rw [hcall]; rfl) hdispute]
    simp [Storage.putSwap]
  · have hclaim : claim sha256 id preimage i.env w = .ok ((), _) :=
      (claim_ok (u := ())).mpr ⟨hready, p, hp, hpending, hearly, hopens, rfl⟩
    refine ⟨.claimed, by decide, ?_⟩
    rw [contract, commit_returning (by rw [hcall]; rfl) hclaim]
    simp [Storage.putSwap, Storage.putSecret]

/-- Before the timelock, a call that does not take a Pending swap leaves it alone. -/
theorem Swap.Moves.untaken (h : Swap.Moves sha256 admin env id call p p')
    (hpending : p.status = .pending) (hearly : env.timestamp < p.timelock)
    (htakes : ¬ Takes sha256 id p.hashlock call) : p' = p := by
  cases h with
  | kept => rfl
  | claimed _ _ opens => exact absurd (.inr ⟨_, rfl, opens⟩) htakes
  | refunded _ late _ => omega
  | disputed _ _ => exact absurd (.inl rfl) htakes
  | resolved _ disputed => rw [hpending] at disputed; contradiction

theorem Swap.Moves.notPending (h : Swap.Moves sha256 admin env id call p p')
    (hp : p.status ≠ .pending) : p'.status ≠ .pending := by
  cases h with
  | kept => exact hp
  | @resolved release _ _ _ => cases release <;> simp
  | _ => simp

/-- Without a dispute, a swap is Pending or Claimed until its timelock. -/
theorem Swap.Moves.undisputed (h : Swap.Moves sha256 admin env id call p p')
    (hp : p.status = .pending ∨ p.status = .claimed) (hearly : env.timestamp < p.timelock)
    (hcall : call ≠ .raiseDispute id) : p'.status = .pending ∨ p'.status = .claimed := by
  cases h with
  | kept => exact hp
  | claimed _ _ _ => exact .inr rfl
  | refunded _ late _ => omega
  | disputed _ _ => exact absurd rfl hcall
  | resolved _ disputed => rcases hp with hp | hp <;> rw [disputed] at hp <;> contradiction

/-- How a swap stands after calls made before its timelock. -/
structure Stands (sha256 : BytesN32 → BytesN32) (id : Nat) (p p' : Swap)
    (cs : List (Submission Call)) : Prop where
  terms : p' = { p with status := p'.status }
  pending : p'.status = .pending ↔
    p.status = .pending ∧ ∀ i ∈ cs, ¬ Takes sha256 id p.hashlock i.call
  undisputed : p.status = .pending ∨ p.status = .claimed →
    (∀ i ∈ cs, i.call ≠ .raiseDispute id) → p'.status = .pending ∨ p'.status = .claimed

theorem stands_commit (hs : Sound sha256 admin w) (hp : w.storage.swap id = some p)
    (hearly : i.env.timestamp < p.timelock) :
    ∃ p', (commit (contract sha256) w i).storage.swap id = some p' ∧
      Stands sha256 id p p' [i] := by
  obtain ⟨p', hp', hmoves⟩ := commit_moves hs i hp
  refine ⟨p', hp', hmoves.terms, ?_, fun hopen hcalls => ?_⟩
  · by_cases hpending : p.status = .pending
    · by_cases htakes : Takes sha256 id p.hashlock i.call
      · obtain ⟨status, hne, hcommit⟩ := commit_takes hs hp hpending hearly htakes
        obtain rfl := Option.some.inj (hp'.symm.trans hcommit)
        simp [hne, htakes]
      · rw [hmoves.untaken hpending hearly htakes]
        simp [hpending, htakes]
    · simp [hpending, hmoves.notPending hpending]
  · exact hmoves.undisputed hopen hearly (by simpa using hcalls)

theorem stands_run (hs : Sound sha256 admin w) (hp : w.storage.swap id = some p)
    {cs : List (Submission Call)} (hearly : ∀ i ∈ cs, i.env.timestamp < p.timelock) :
    ∃ p', (run (contract sha256) w cs).storage.swap id = some p' ∧
      Stands sha256 id p p' cs := by
  induction cs generalizing w p with
  | nil => exact ⟨p, hp, rfl, by simp, fun hopen _ => hopen⟩
  | cons i rest ih =>
    obtain ⟨hi, hrest⟩ := List.forall_mem_cons.mp hearly
    obtain ⟨q, hq, hone⟩ := stands_commit hs hp hi
    have hlock : q.hashlock = p.hashlock := by rw [hone.terms]
    have htime : q.timelock = p.timelock := by rw [hone.terms]
    obtain ⟨p', hp', hmore⟩ := ih (hs.commit i) hq (by simpa [htime] using hrest)
    refine ⟨p', hp', ?_, ?_, fun hopen hcalls => ?_⟩
    · rw [hmore.terms, hone.terms]
    · rw [hmore.pending, hone.pending, hlock]
      simp [and_assoc]
    · obtain ⟨hfirst, hothers⟩ := List.forall_mem_cons.mp hcalls
      exact hmore.undisputed (hone.undisputed hopen (by simpa using hfirst)) hothers

/-- The swap a returned `create_swap` has stored. -/
theorem createSwap_stores {sender receiver tokenA tokenB feeCollector : Address}
    {amountA amountB : Int} {hashlock : BytesN32}
    {timelockSeconds disputeWindowSeconds feeBps : Nat}
    (h : createSwap sender receiver tokenA tokenB amountA amountB hashlock timelockSeconds
      disputeWindowSeconds feeBps feeCollector env w = .ok (id, w')) :
    w'.storage.swap id = some (newSwap env.timestamp sender receiver tokenA tokenB amountA
      amountB hashlock timelockSeconds disputeWindowSeconds feeBps feeCollector) := by
  obtain ⟨_, _, _, _, _, _, rfl⟩ := createSwap_ok.mp h
  simp [Storage.putSwap]

theorem createSwap_sound {sender receiver tokenA tokenB feeCollector : Address}
    {amountA amountB : Int} {hashlock : BytesN32}
    {timelockSeconds disputeWindowSeconds feeBps : Nat} (hs : Sound sha256 admin w)
    (h : createSwap sender receiver tokenA tokenB amountA amountB hashlock timelockSeconds
      disputeWindowSeconds feeBps feeCollector env w = .ok (id, w')) :
    Sound sha256 admin w' := by
  obtain ⟨hready, hsigned, hacc, hnext, hfits, hends, rfl⟩ := createSwap_ok.mp h
  exact Step.sound (.created hready hsigned hacc hnext hfits hends) hs

/-- A claim with the right preimage, made before the timelock after any calls made since
the creation, returns exactly when none of these calls raised a dispute of the swap or
claimed it first. The swap keeps its terms, and without a dispute it is Pending or
Claimed. -/
theorem later_claim_returns_iff {before cs : List (Submission Call)}
    {sender receiver tokenA tokenB feeCollector : Address} {amountA amountB : Int}
    {hashlock preimage : BytesN32} {timelockSeconds disputeWindowSeconds feeBps : Nat}
    {env' : Env}
    (hcreated : createSwap sender receiver tokenA tokenB amountA amountB hashlock
      timelockSeconds disputeWindowSeconds feeBps feeCollector env
      (run (contract sha256) (initialized admin) before) = .ok (id, w))
    (hearly : ∀ i ∈ cs, i.env.timestamp < env.timestamp + timelockSeconds)
    (hclaim : env'.timestamp < env.timestamp + timelockSeconds)
    (hopens : sha256 preimage = hashlock) :
    ((∃ w', claim sha256 id preimage env' (run (contract sha256) w cs) = .ok ((), w')) ↔
      ∀ i ∈ cs, ¬ Takes sha256 id hashlock i.call) ∧
    ∃ status, (run (contract sha256) w cs).storage.swap id =
        some { newSwap env.timestamp sender receiver tokenA tokenB amountA amountB hashlock
          timelockSeconds disputeWindowSeconds feeBps feeCollector with status } ∧
      ((∀ i ∈ cs, i.call ≠ .raiseDispute id) → status = .pending ∨ status = .claimed) := by
  have hs : Sound sha256 admin w := createSwap_sound (sound_initialized.run before) hcreated
  obtain ⟨p', hp', hstands⟩ := stands_run hs (createSwap_stores hcreated) hearly
  have hready := (hs.run cs).ready
  constructor
  · rw [exists_congr fun w' => claim_ok (u := ())]
    constructor
    · rintro ⟨_, _, q, hq, hpending, _⟩
      obtain rfl := Option.some.inj (hq.symm.trans hp')
      exact (hstands.pending.mp hpending).2
    · intro hcalls
      have hpending := hstands.pending.mpr ⟨rfl, hcalls⟩
      refine ⟨_, by simp [hready], p', hp', hpending, ?_, ?_, rfl⟩
      · rw [hstands.terms]
        exact hclaim
      · rw [hstands.terms]
        exact hopens
  · exact ⟨p'.status, hstands.terms ▸ hp', hstands.undisputed (.inl rfl)⟩

/-- Thirty-two bytes 1. -/
def sampleSecret : BytesN32 :=
  ⟨0x0101010101010101010101010101010101010101010101010101010101010101⟩

/-- SHA-256 at the sample secret. -/
def sampleSha256 (preimage : BytesN32) : BytesN32 :=
  if preimage = sampleSecret then
    ⟨0x72cd6e8422c407fb6d098690f1130b7ded7ec2f7f5e1d30bd9d521f015363793⟩
  else ⟨0⟩

/-- The swap 1 of `⟨2⟩` with `⟨3⟩`, created at time 100 and open until 3700. -/
def opened : World :=
  commit (contract sampleSha256) (initialized ⟨1⟩)
    (signedBy [⟨2⟩] 100 (.createSwap ⟨2⟩ ⟨3⟩ ⟨4⟩ ⟨5⟩ 1000 950 (sampleSha256 sampleSecret) 3600
      3600 30 ⟨6⟩))

theorem createSwap_opened :
    createSwap ⟨2⟩ ⟨3⟩ ⟨4⟩ ⟨5⟩ 1000 950 (sampleSha256 sampleSecret) 3600 3600 30 ⟨6⟩
      { timestamp := 100, auths := [⟨2⟩] } (run (contract sampleSha256) (initialized ⟨1⟩) []) =
        .ok (1, opened) := rfl

theorem later_claim_returns_of_opened :
    ((∃ w', claim sampleSha256 1 sampleSecret { timestamp := 300, auths := [] }
        (run (contract sampleSha256) opened [signedBy [⟨9⟩] 200 (.refund 1)]) = .ok ((), w')) ↔
      ∀ i ∈ [signedBy [⟨9⟩] 200 (Call.refund 1)],
        ¬ Takes sampleSha256 1 (sampleSha256 sampleSecret) i.call) ∧
    ∃ status, (run (contract sampleSha256) opened [signedBy [⟨9⟩] 200 (.refund 1)]).storage.swap 1 =
        some { newSwap 100 ⟨2⟩ ⟨3⟩ ⟨4⟩ ⟨5⟩ 1000 950 (sampleSha256 sampleSecret) 3600 3600 30 ⟨6⟩ with
          status } ∧
      ((∀ i ∈ [signedBy [⟨9⟩] 200 (Call.refund 1)], i.call ≠ .raiseDispute 1) →
        status = .pending ∨ status = .claimed) :=
  later_claim_returns_iff createSwap_opened (by simp [signedBy]) (by decide) rfl

/-- An outsider disputes the swap, and the claim that would have returned traps. -/
theorem outsider_blocks_claim :
    (∃ w', claim sampleSha256 1 sampleSecret { timestamp := 300, auths := [] } opened =
      .ok ((), w')) ∧
    claim sampleSha256 1 sampleSecret { timestamp := 300, auths := [] }
        (run (contract sampleSha256) opened [signedBy [⟨9⟩] 200 (.raiseDispute 1)]) =
      .error (.contractError HtlcError.swapNotPending.code) := by
  have hready : opened.storage.init ≠ none := Option.some_ne_none true
  have hfound : opened.storage.swap 1 =
      some (newSwap 100 ⟨2⟩ ⟨3⟩ ⟨4⟩ ⟨5⟩ 1000 950 (sampleSha256 sampleSecret) 3600 3600 30 ⟨6⟩) := rfl
  exact ⟨⟨_, (claim_ok (u := ())).mpr ⟨hready, _, hfound, rfl, by decide, rfl, rfl⟩⟩, rfl⟩

end HtlcContract
