import AgenticPay.EvmPauseSteps

/-!
# Runs of the emergency pause

The guard of an activation is that the request is not active, which it is not either when its
pause has ended: a guardian who has not approved it can start it again. Where no approval comes
after the end of a pause, every request is activated at most once; and where the pauses are
resumed in time, no proxy is on a stub for longer than a pause may last.
-/
namespace EvmEmergencyPause

open Evm Body ExternalCalls Transaction

def Entry.pauseId : Entry → Nat
  | .paused id _ => id
  | .restored id _ => id
  | .expired id _ => id

def Entry.isPause : Entry → Bool
  | .paused _ _ => true
  | .restored _ _ => false
  | .expired _ _ => false

/-- Nothing has happened to a request before it is activated. -/
def Once (history : List Entry) : Prop :=
  history.Pairwise fun x y => y.isPause = true → x.pauseId ≠ y.pauseId

/-- A proxy has been put back by a call of `resume` for a request. -/
def Resumed (history : List Entry) (id : Nat) : Prop := ∃ impl, .restored id impl ∈ history

variable {b : Core} {s s' : State} {msg : Message} {o : Option Rest} {id : Nat} {f : Function}
  {rest : Rest} {history : List Entry} {e : Entry}

theorem Once.concat (h : Once history)
    (he : e.isPause = true → ∀ x ∈ history, x.pauseId ≠ e.pauseId) : Once (history ++ [e]) := by
  refine List.pairwise_append.mpr ⟨h, List.pairwise_singleton _ _, fun x hx y hy => ?_⟩
  rw [List.mem_singleton.mp hy]
  exact fun hpause => he hpause x hx

theorem resumed_concat :
    Resumed (history ++ [e]) id ↔ Resumed history id ∨ ∃ impl, e = .restored id impl := by
  constructor
  · rintro ⟨impl, hmem⟩
    obtain hmem | hmem := List.mem_append.mp hmem
    · exact .inl ⟨impl, hmem⟩
    · exact .inr ⟨impl, (List.mem_singleton.mp hmem).symm⟩
  · rintro (⟨impl, hmem⟩ | ⟨impl, rfl⟩)
    · exact ⟨impl, List.mem_append_left _ hmem⟩
    · exact ⟨impl, List.mem_append_right _ (List.mem_singleton_self _)⟩

/-- A request that is new has a blank record, one that has been activated keeps its deadline,
and a proxy that is on the stub of a request has not been put back since. -/
structure Valid (b : Core) : Prop where
  unused : ∀ id, b.pauseCount ≤ id → b.pauseRecords id = .blank
  active : ∀ id, (b.pauseRecords id).active = true → (b.pauseRecords id).expiresAt ≠ 0
  started : ∀ e ∈ b.history, (b.pauseRecords e.pauseId).expiresAt ≠ 0
  deadline : ∀ id t, .paused id t ∈ b.history →
    (b.pauseRecords id).expiresAt = t + maxPauseDuration
  placed : ∀ p id, b.placedBy p = some id → (b.pauseRecords id).proxy = p ∧
    (b.pauseRecords id).expiresAt ≠ 0 ∧ ¬ Resumed b.history id
  once : Once b.history

namespace Valid

theorem used_of_proxy (h : Valid b) (hfound : (b.pauseRecords id).proxy ≠ .zero) :
    id < b.pauseCount := by
  by_contra hge
  rw [h.unused id (Nat.le_of_not_lt hge)] at hfound
  exact hfound rfl

theorem used_of_active (h : Valid b) (hactive : (b.pauseRecords id).active = true) :
    id < b.pauseCount := by
  by_contra hge
  rw [h.unused id (Nat.le_of_not_lt hge)] at hactive
  contradiction

/-- Another record of the same proxy with the same deadline. -/
theorem store (h : Valid b) (pr : PauseRecord) (hlt : id < b.pauseCount)
    (hproxy : pr.proxy = (b.pauseRecords id).proxy)
    (hexpires : pr.expiresAt = (b.pauseRecords id).expiresAt)
    (hactive : pr.active = true → pr.expiresAt ≠ 0) : Valid (b.store id pr) := by
  have hsame : ∀ k, ((b.store id pr).pauseRecords k).expiresAt = (b.pauseRecords k).expiresAt ∧
      ((b.store id pr).pauseRecords k).proxy = (b.pauseRecords k).proxy := by
    intro k
    by_cases hk : k = id
    · subst hk
      simp only [Core.store, Function.update_self]
      exact ⟨hexpires, hproxy⟩
    · simp only [Core.store, Function.update_of_ne hk, and_self]
  refine ⟨fun k hk => ?_, fun k hk => ?_, fun e he => ?_, fun k t ht => ?_, fun p k hp => ?_,
    h.once⟩
  · have hle : b.pauseCount ≤ k := hk
    have hne : k ≠ id := by omega
    simp only [Core.store, Function.update_of_ne hne]
    exact h.unused k hk
  · by_cases he : k = id
    · subst he
      simp only [Core.store, Function.update_self] at hk ⊢
      exact hactive hk
    · simp only [Core.store, Function.update_of_ne he] at hk ⊢
      exact h.active k hk
  · rw [(hsame _).1]
    exact h.started e he
  · rw [(hsame k).1]
    exact h.deadline k t ht
  · rw [(hsame k).1, (hsame k).2]
    exact h.placed p k hp

/-- The end of a pause is added to the history. -/
theorem log (h : Valid b) (id : Nat) (hpause : e.isPause = false)
    (hstarted : (b.pauseRecords e.pauseId).expiresAt ≠ 0)
    (hplaced : ∀ impl, e = .restored id impl → ∀ p, b.placedBy p ≠ some id)
    (hid : e.pauseId = id) : Valid (b.log e) := by
  refine ⟨h.unused, h.active, fun x hx => ?_, fun k t ht => ?_, fun p k hp => ?_, ?_⟩
  · obtain hx | hx := List.mem_append.mp hx
    · exact h.started x hx
    · rw [List.mem_singleton.mp hx]
      exact hstarted
  · obtain ht | ht := List.mem_append.mp ht
    · exact h.deadline k t ht
    · rw [← List.mem_singleton.mp ht] at hpause
      contradiction
  · obtain ⟨hproxy, hexpires, hresumed⟩ := h.placed p k hp
    refine ⟨hproxy, hexpires, fun hafter => ?_⟩
    obtain hbefore | ⟨impl, he⟩ := resumed_concat.mp hafter
    · exact hresumed hbefore
    · have hk : k = id := by rw [← hid, he]; rfl
      subst hk
      exact hplaced impl he p hp
  · apply h.once.concat
    rw [hpause]
    exact fun hp => absurd hp Bool.false_ne_true

theorem upgraded (h : Valid b) (proxy newImplementation : Address) :
    Valid (b.upgraded proxy newImplementation none) := by
  refine ⟨h.unused, h.active, h.started, h.deadline, fun p k hp => ?_, h.once⟩
  by_cases hpe : p = proxy
  · subst hpe
    simp only [Core.upgraded, Function.update_self, reduceCtorEq] at hp
  · simp only [Core.upgraded, Function.update_of_ne hpe] at hp
    exact h.placed p k hp

theorem requested (h : Valid b) (proxy pauseImplementation : Address) :
    Valid (b.requested proxy pauseImplementation) := by
  have hblank := h.unused b.pauseCount (Nat.le_refl _)
  have hold : ∀ k, (b.pauseRecords k).expiresAt ≠ 0 →
      (b.requested proxy pauseImplementation).pauseRecords k = b.pauseRecords k := by
    intro k hk
    have hne : k ≠ b.pauseCount := by
      rintro rfl
      rw [hblank] at hk
      exact hk rfl
    simp only [Core.requested, Core.store, Function.update_of_ne hne]
  refine ⟨fun k hk => ?_, fun k hk => ?_, fun e he => ?_, fun k t ht => ?_, fun p k hp => ?_,
    h.once⟩
  · have hle : b.pauseCount + 1 ≤ k := hk
    have hne : k ≠ b.pauseCount := by omega
    simp only [Core.requested, Core.store, Function.update_of_ne hne]
    exact h.unused k (by omega)
  · by_cases he : k = b.pauseCount
    · subst he
      simp only [Core.requested, Core.store, Function.update_self, Bool.false_eq_true] at hk
    · simp only [Core.requested, Core.store, Function.update_of_ne he] at hk ⊢
      exact h.active k hk
  · rw [hold _ (h.started e he)]
    exact h.started e he
  · rw [hold k (h.started _ ht)]
    exact h.deadline k t ht
  · obtain ⟨hproxy, hexpires, hresumed⟩ := h.placed p k hp
    rw [hold k hexpires]
    exact ⟨hproxy, hexpires, hresumed⟩

/-- A request that has never been activated is activated. -/
theorem activated (h : Valid b) (hlt : id < b.pauseCount) {pr : PauseRecord}
    (hfresh : (b.pauseRecords id).expiresAt = 0) (time : Nat) : Valid (b.activated id time pr) := by
  have hnew : ∀ e ∈ b.history, e.pauseId ≠ id := by
    rintro e he rfl
    exact h.started e he hfresh
  have hnever : ¬ Resumed b.history id := by
    rintro ⟨impl, hmem⟩
    exact hnew _ hmem rfl
  have hunlogged : ∀ k, ¬ Resumed b.history k →
      ¬ Resumed (b.activated id time pr).history k := by
    intro k hbefore hafter
    obtain hresumed | ⟨impl, he⟩ := resumed_concat.mp hafter
    · exact hbefore hresumed
    · exact Entry.noConfusion he
  have hself : ((b.activated id time pr).pauseRecords id).expiresAt = time + maxPauseDuration ∧
      ((b.activated id time pr).pauseRecords id).proxy = pr.proxy := by
    simp only [Core.activated, Core.store, Core.log, Core.upgraded, Function.update_self, and_self]
  have hother : ∀ k, k ≠ id → (b.activated id time pr).pauseRecords k = b.pauseRecords k := by
    intro k hk
    simp only [Core.activated, Core.store, Core.log, Core.upgraded, Function.update_of_ne hk]
  have hpositive : time + maxPauseDuration ≠ 0 := by
    have hmax : 0 < maxPauseDuration := by decide
    omega
  refine ⟨fun k hk => ?_, fun k hk => ?_, fun e he => ?_, fun k t ht => ?_, fun p k hp => ?_, ?_⟩
  · have hle : b.pauseCount ≤ k := hk
    rw [hother k (by omega)]
    exact h.unused k hk
  · by_cases he : k = id
    · rw [he, hself.1]
      exact hpositive
    · rw [hother k he] at hk ⊢
      exact h.active k hk
  · obtain he | he := List.mem_append.mp he
    · rw [hother _ (hnew e he)]
      exact h.started e he
    · rw [List.mem_singleton.mp he]
      exact hself.1 ▸ hpositive
  · obtain ht | ht := List.mem_append.mp ht
    · rw [hother k (hnew _ ht)]
      exact h.deadline k t ht
    · obtain ⟨rfl, rfl⟩ := Entry.paused.inj (List.mem_singleton.mp ht)
      exact hself.1
  · by_cases hpe : p = pr.proxy
    · simp only [Core.activated, Core.upgraded, hpe, Function.update_self, Option.some.injEq] at hp
      subst hp
      exact ⟨hself.2.trans hpe.symm, hself.1 ▸ hpositive, hunlogged _ hnever⟩
    · simp only [Core.activated, Core.upgraded, Function.update_of_ne hpe] at hp
      obtain ⟨hproxy, hexpires, hresumed⟩ := h.placed p k hp
      have hk : k ≠ id := by
        rintro rfl
        exact hexpires hfresh
      rw [hother k hk]
      exact ⟨hproxy, hexpires, hunlogged k hresumed⟩
  · exact h.once.concat fun _ x hx => hnew x hx

end Valid

/-- Who approves a request whose pause has ended has done so before, and each pause is resumed
before its time is up. -/
structure Timely (s : State) (c : Call) : Prop where
  early : ∀ id previous, c.function = .approvePause id previous →
    s.guardians c.msg.sender = true → s.hasGuardianApproved id c.msg.sender ≠ true →
    (s.pauseRecords id).expiresAt ≠ 0 → (s.pauseRecords id).active = true
  resumed : ∀ id t, .paused id t ∈ s.history → ¬ Resumed s.history id →
    c.msg.timestamp ≤ t + maxPauseDuration

theorem Step.valid {b : Core} (h : Step msg s f o b) (hc : Timely s ⟨msg, f⟩)
    (hv : Valid s.core) : Valid b := by
  cases h with
  | requested => exact hv.requested _ _
  | activatedAtOnce =>
    have hlt : s.pauseCount < s.core.pauseCount + 1 := Nat.lt_succ_self _
    apply (hv.requested _ _).activated hlt
    simp only [Core.requested, Core.store, State.core, Function.update_self]
  | approved hfound =>
    exact hv.store _ (hv.used_of_proxy hfound) rfl rfl (hv.active _)
  | @activated id previous hguardian hfound hfresh henough hinactive =>
    have hlt := hv.used_of_proxy hfound
    have hnever : (s.pauseRecords id).expiresAt = 0 := by
      by_contra hexpires
      have hactive := hc.early id previous rfl hguardian hfresh hexpires
      rw [hinactive] at hactive
      contradiction
    have hstored := hv.store ((s.pauseRecords id).approved previous) hlt rfl rfl (hv.active id)
    apply hstored.activated hlt
    simp only [Core.store, Function.update_self]
    exact hnever
  | @resumed id stays hactive =>
    have hstored := hv.store { s.pauseRecords id with active := stays }
      (hv.used_of_active hactive) rfl rfl (fun _ => hv.active id hactive)
    apply (hstored.upgraded _ _).log id rfl _ _ rfl
    · simp only [Core.upgraded, Core.store, Function.update_self, Entry.pauseId]
      exact hv.active id hactive
    · intro impl _ p
      by_cases hp : p = (s.pauseRecords id).proxy
      · simp only [Core.upgraded, hp, Function.update_self, ne_eq, reduceCtorEq, not_false_eq_true]
      · simp only [Core.upgraded, Function.update_of_ne hp]
        intro hplaced
        exact hp (hv.placed p id hplaced).1.symm
  | @expired id hactive =>
    have hstored := hv.store { s.pauseRecords id with active := false }
      (hv.used_of_active hactive) rfl rfl (fun _ => hv.active id hactive)
    apply hstored.log id rfl _ _ rfl
    · simp only [Core.store, Function.update_self, Entry.pauseId]
      exact hv.active id hactive
    · intro impl he
      exact Entry.noConfusion he
  | guardianSet => exact hv
  | upgraded => exact hv.upgraded _ _

/-- The answer of a proxy only ends the pause that it is for. -/
theorem answered (h : Valid b) : Valid (b.answered rest) := by
  cases rest with
  | activate id => exact h
  | resume id =>
    by_cases hlt : id < b.pauseCount
    · exact h.store _ hlt rfl rfl fun hactive => absurd hactive Bool.false_ne_true
    · have hblank := h.unused id (Nat.le_of_not_lt hlt)
      have hsame : b.answered (.resume id) = b := by
        have hinactive : { PauseRecord.blank with active := false } = PauseRecord.blank := rfl
        simp only [Core.answered, Core.store, hblank, hinactive]
        rw [← hblank, Function.update_eq_self]
      rwa [hsame]

theorem keeps_valid : Keeps contract Timely (fun s _ => Valid s.core) where
  enter := by
    intro c s frames r hc hv henter
    rw [After, state_proceed]
    exact (step_of_ok henter).2.valid hc hv
  resume := by
    rintro f s frames ok ⟨o, s'⟩ hv _ hresume
    rw [After, state_proceed, (finish_core hresume).2.2]
    exact answered hv

theorem deploy_valid (sender : Address) (threshold : Nat) (guardians : List Address)
    (implementation : Address → Address) :
    Valid (deploy sender threshold guardians implementation).core := by
  refine ⟨fun _ _ => rfl, fun _ hactive => ?_, fun e he => ?_, fun id t ht => ?_, fun p id hp => ?_,
    List.Pairwise.nil⟩
  · exact absurd hactive Bool.false_ne_true
  · exact absurd he List.not_mem_nil
  · exact absurd ht List.not_mem_nil
  · exact absurd hp (by simp [deploy, State.core])

/-- At a time, no request counts as active and no proxy is on the stub of a request when more than
the duration of a pause has passed since any of its activations. -/
def InTime (s : State) (c : Call) : Prop :=
  ∀ id t, .paused id t ∈ s.history →
    (isPauseActive s id c.msg.timestamp = true → c.msg.timestamp < t + maxPauseDuration) ∧
      ∀ p, s.placedBy p = some id → c.msg.timestamp ≤ t + maxPauseDuration

theorem Valid.inTime {c : Call} (h : Valid s.core) (hc : Timely s c) : InTime s c := by
  intro id t ht
  refine ⟨fun hactive => ?_, fun p hp => ?_⟩
  · rw [isPauseActive, Bool.and_eq_true, decide_eq_true_eq] at hactive
    have hdeadline : (s.pauseRecords id).expiresAt = t + maxPauseDuration := h.deadline id t ht
    rw [← hdeadline]
    exact hactive.2
  · exact hc.resumed id t ht (h.placed p id hp).2.2

/-- Every request is activated at most once, and no proxy is on the stub of a request that has
been resumed. -/
structure PausedOnce (s : State) : Prop where
  once : Once s.history
  gone : ∀ p id, s.placedBy p = some id → ¬ Resumed s.history id

theorem Valid.pausedOnce (h : Valid s.core) : PausedOnce s :=
  ⟨h.once, fun p id hp => (h.placed p id hp).2.2⟩

/-- The admin 9 and the guardians 1, 2 and 3, two of whom pause a proxy. -/
def newPause : State := deploy ⟨9⟩ 2 [⟨1⟩, ⟨2⟩, ⟨3⟩] fun _ => ⟨50⟩

/-- The proxy 7 is put on the stub 8 by two guardians, and is put back by the admin. -/
def pausedAndResumed : List (Act Call Bool) :=
  [.call ⟨⟨⟨1⟩, 0, 100⟩, .requestPause ⟨7⟩ ⟨8⟩⟩, .call ⟨⟨⟨2⟩, 0, 200⟩, .approvePause 0 ⟨50⟩⟩,
    .answer true, .call ⟨⟨⟨9⟩, 0, 300⟩, .resume 0⟩, .answer true]

theorem timely_pausedAndResumed :
    Along (machine contract) (Calls Timely) ⟨newPause, []⟩ pausedAndResumed := by
  refine ⟨?_, ?_, nofun, ?_, nofun, trivial⟩
  · rintro c ⟨⟩
    exact ⟨nofun, nofun⟩
  · rintro c ⟨⟩
    refine ⟨?_, nofun⟩
    rintro id previous ⟨⟩
    decide
  · rintro c ⟨⟩
    refine ⟨nofun, ?_⟩
    intro id t ht _
    obtain ⟨_, rfl⟩ := Entry.paused.inj (List.mem_singleton.mp ht)
    decide

/-- The third guardian approves the request of a pause that has been resumed. -/
def approvedAgain : List (Act Call Bool) :=
  pausedAndResumed ++ [.call ⟨⟨⟨3⟩, 0, 400⟩, .approvePause 0 ⟨50⟩⟩, .answer true]

end EvmEmergencyPause
