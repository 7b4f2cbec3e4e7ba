import AgenticPay.EvmPauseRuns

/-!
# What an emergency pause puts back

The implementation that a proxy had is what a guardian says it is, and the first one that is
recorded for a request stays. A pause that one guardian starts has none, and a pause that is
marked as expired is not undone at all.
-/
namespace EvmEmergencyPause

open Evm Body ExternalCalls Transaction

/-- What has happened last for a request. -/
def lastEntry (history : List Entry) (id : Nat) : Option Entry :=
  (history.filter fun e => e.pauseId = id).getLast?

/-- The implementation that the proxy has when a pause ends. -/
def Entry.leaves : Entry → Option Address
  | .paused _ _ => none
  | .restored _ impl => some impl
  | .expired _ impl => some impl

/-- The last pause of a request, if there was one, has ended with the proxy on the implementation
that it had before. -/
def Ended (b : Core) (id : Nat) : Prop :=
  ∀ e, lastEntry b.history id = some e → e.leaves = some (b.before id)

variable {b b' : Core} {s s' : State} {msg : Message} {o : Option Rest} {id k : Nat}
  {f : Function} {rest : Rest} {e : Entry} {history : List Entry}

theorem lastEntry_log_self (he : e.pauseId = id) : lastEntry (history ++ [e]) id = some e := by
  rw [lastEntry, List.filter_append, List.filter_singleton]
  simp only [he, decide_true, cond_true, List.getLast?_append, List.getLast?_singleton,
    Option.some_or]

theorem lastEntry_log_other (he : e.pauseId ≠ id) :
    lastEntry (history ++ [e]) id = lastEntry history id := by
  rw [lastEntry, List.filter_append, List.filter_singleton]
  simp only [he, decide_false, cond_false, List.append_nil, lastEntry]

theorem ended_log (he : e.pauseId = id) (hleaves : e.leaves = some (b.before id)) :
    Ended (b.log e) id := by
  intro x hx
  have hlast : lastEntry (b.log e).history id = some e := lastEntry_log_self he
  rw [hlast] at hx
  rw [← Option.some.inj hx]
  exact hleaves

/-- The record of a request tells what its proxy had before the last pause, and the pause, if it
has ended, has ended there. -/
structure Sound (b : Core) (id : Nat) : Prop where
  stub : (b.pauseRecords id).proxy ≠ .zero → (b.pauseRecords id).pauseImplementation ≠ .zero
  started : (b.pauseRecords id).active = true → lastEntry b.history id ≠ none
  previous : lastEntry b.history id ≠ none →
    (b.pauseRecords id).previousImplementation = b.before id ∧ b.before id ≠ .zero
  ended : (b.pauseRecords id).active = false → Ended b id

/-- Nothing is different for a request. -/
structure SameAt (b b' : Core) (id : Nat) : Prop where
  record : b'.pauseRecords id = b.pauseRecords id
  last : lastEntry b'.history id = lastEntry b.history id
  before : b'.before id = b.before id

theorem SameAt.ended (h : SameAt b b' id) (hended : Ended b id) : Ended b' id := by
  intro e he
  rw [h.last] at he
  rw [h.before]
  exact hended e he

theorem SameAt.sound (h : SameAt b b' id) (hs : Sound b id) : Sound b' id where
  stub := by
    rw [h.record]
    exact hs.stub
  started := by
    rw [h.record, h.last]
    exact hs.started
  previous := by
    rw [h.record, h.last, h.before]
    exact hs.previous
  ended := by
    rw [h.record]
    exact fun hactive => h.ended (hs.ended hactive)

structure Intact (b : Core) : Prop where
  implemented : ∀ p, b.implementation p ≠ .zero
  unused : ∀ id, b.pauseCount ≤ id →
    (b.pauseRecords id).proxy = .zero ∧ lastEntry b.history id = none
  sound : ∀ id, Sound b id

namespace Intact

theorem used_of_proxy (h : Intact b) (hfound : (b.pauseRecords id).proxy ≠ .zero) :
    id < b.pauseCount := by
  by_contra hge
  exact hfound (h.unused id (Nat.le_of_not_lt hge)).1

theorem used_of_active (h : Intact b) (hactive : (b.pauseRecords id).active = true) :
    id < b.pauseCount := by
  by_contra hge
  exact (h.sound id).started hactive (h.unused id (Nat.le_of_not_lt hge)).2

/-- One request has changed. -/
theorem changed (h : Intact b) (hlt : id < b.pauseCount) (hcount : b'.pauseCount = b.pauseCount)
    (himplemented : ∀ p, b'.implementation p ≠ .zero) (hother : ∀ k, k ≠ id → SameAt b b' k)
    (hsound : Sound b' id) : Intact b' := by
  refine ⟨himplemented, fun k hk => ?_, fun k => ?_⟩
  · have hne : k ≠ id := by omega
    rw [(hother k hne).record, (hother k hne).last]
    exact h.unused k (by omega)
  · by_cases he : k = id
    · exact he ▸ hsound
    · exact (hother k he).sound (h.sound k)

theorem upgraded (h : Intact b) (proxy : Address) {newImplementation : Address}
    (hnonzero : newImplementation ≠ .zero) (pauser : Option Nat) :
    Intact (b.upgraded proxy newImplementation pauser) := by
  refine ⟨fun p => ?_, h.unused, fun k => ?_⟩
  · by_cases hp : p = proxy
    · simp only [Core.upgraded, hp, Function.update_self]
      exact hnonzero
    · simp only [Core.upgraded, Function.update_of_ne hp]
      exact h.implemented p
  · have hsame : SameAt b (b.upgraded proxy newImplementation pauser) k := ⟨rfl, rfl, rfl⟩
    exact hsame.sound (h.sound k)

theorem requested (h : Intact b) (proxy : Address) {pauseImplementation : Address}
    (hnonzero : pauseImplementation ≠ .zero) : Intact (b.requested proxy pauseImplementation) := by
  have hnew := (h.unused b.pauseCount (Nat.le_refl _)).2
  have hother : ∀ k, k ≠ b.pauseCount → SameAt b (b.requested proxy pauseImplementation) k :=
    fun k hk => ⟨Function.update_of_ne hk .., rfl, rfl⟩
  have hnone : ∀ e, lastEntry b.history b.pauseCount ≠ some e := by
    rw [hnew]
    nofun
  refine ⟨h.implemented, fun k hk => ?_, fun k => ?_⟩
  · have hle : b.pauseCount + 1 ≤ k := hk
    have hne : k ≠ b.pauseCount := by omega
    rw [(hother k hne).record, (hother k hne).last]
    exact h.unused k (by omega)
  · by_cases he : k = b.pauseCount
    · subst he
      refine ⟨fun _ => ?_, fun hactive => ?_, fun hlast => (hlast hnew).elim,
        fun _ e he => (hnone e he).elim⟩
      · simp only [Core.requested, Core.store, Function.update_self]
        exact hnonzero
      · simp only [Core.requested, Core.store, Function.update_self, Bool.false_eq_true] at hactive
    · exact (hother k he).sound (h.sound k)

/-- One more approval, which fills in the implementation only where none is recorded. -/
theorem approved (h : Intact b) (hfound : (b.pauseRecords id).proxy ≠ .zero)
    (previous : Address) : Intact (b.store id ((b.pauseRecords id).approved previous)) := by
  have hold := h.sound id
  refine h.changed (h.used_of_proxy hfound) rfl h.implemented
    (fun k hk => ⟨Function.update_of_ne hk .., rfl, rfl⟩) ⟨?_, ?_, fun hlast => ?_, ?_⟩
  · simp only [Core.store, Function.update_self]
    exact hold.stub
  · simp only [Core.store, Function.update_self]
    exact hold.started
  · obtain ⟨hprevious, hbefore⟩ := hold.previous hlast
    have hrecorded : ¬ ((b.pauseRecords id).previousImplementation = .zero ∧ previous ≠ .zero) :=
      fun hzero => hbefore (hprevious ▸ hzero.1)
    simp only [Core.store, Function.update_self, PauseRecord.approved, if_neg hrecorded]
    exact ⟨hprevious, hbefore⟩
  · simp only [Core.store, Function.update_self]
    exact hold.ended

/-- A request is activated with the implementation that its proxy has. -/
theorem activated (h : Intact b) (hlt : id < b.pauseCount) {pr : PauseRecord}
    (hrecord : b.pauseRecords id = pr) (hfound : pr.proxy ≠ .zero)
    (hprevious : pr.previousImplementation = b.implementation pr.proxy) (time : Nat) :
    Intact (b.activated id time pr) := by
  have hstub : pr.pauseImplementation ≠ .zero := by
    rw [← hrecord] at hfound ⊢
    exact (h.sound id).stub hfound
  refine h.changed hlt rfl (fun p => ?_) (fun k hk => ⟨?_, ?_, ?_⟩)
    ⟨fun _ => ?_, fun _ => ?_, fun _ => ?_, fun hactive => ?_⟩
  · by_cases hp : p = pr.proxy
    · simp only [Core.activated, Core.upgraded, hp, Function.update_self]
      exact hstub
    · simp only [Core.activated, Core.upgraded, Core.log, Core.store, Function.update_of_ne hp]
      exact h.implemented p
  · exact Function.update_of_ne hk ..
  · exact lastEntry_log_other hk.symm
  · exact Function.update_of_ne hk ..
  · simp only [Core.activated, Core.upgraded, Core.log, Core.store, Function.update_self]
    exact hstub
  · have hlast : lastEntry (b.activated id time pr).history id = some (.paused id time) :=
      lastEntry_log_self rfl
    rw [hlast]
    exact Option.some_ne_none _
  · simp only [Core.activated, Core.upgraded, Core.log, Core.store, Function.update_self]
    exact ⟨hprevious, h.implemented _⟩
  · simp only [Core.activated, Core.upgraded, Core.log, Core.store, Function.update_self,
      Bool.true_eq_false] at hactive

/-- The pause of a request ends with its proxy on the implementation that it had before. -/
theorem ended (h : Intact b) (id : Nat) (stays : Bool) (hactive : (b.pauseRecords id).active = true)
    (hpauseId : e.pauseId = id) (hleaves : e.leaves = some (b.before id)) :
    Intact ((b.store id { b.pauseRecords id with active := stays }).log e) := by
  have hold := h.sound id
  refine h.changed (h.used_of_active hactive) rfl h.implemented
    (fun k hk => ⟨Function.update_of_ne hk .., lastEntry_log_other (hpauseId ▸ hk.symm), rfl⟩)
    ⟨?_, fun _ => ?_, fun _ => ?_, fun _ => ended_log hpauseId hleaves⟩
  · simp only [Core.log, Core.store, Function.update_self]
    exact hold.stub
  · have hlast : lastEntry ((b.store id { b.pauseRecords id with active := stays }).log e).history
        id = some e := lastEntry_log_self hpauseId
    rw [hlast]
    exact Option.some_ne_none _
  · simp only [Core.log, Core.store, Function.update_self]
    exact hold.previous (hold.started hactive)

/-- The answer of a proxy ends a pause that has ended. -/
theorem answered (h : Intact b) (rest : Rest) (hended : ∀ id, rest = .resume id → Ended b id) :
    Intact (b.answered rest) := by
  cases rest with
  | activate id => exact h
  | resume id =>
    refine ⟨h.implemented, fun k hk => ?_, fun k => ?_⟩
    · by_cases he : k = id
      · subst he
        simp only [Core.answered, Core.store, Function.update_self]
        exact h.unused k hk
      · simp only [Core.answered, Core.store, Function.update_of_ne he]
        exact h.unused k hk
    · by_cases he : k = id
      · subst he
        have hold := h.sound k
        refine ⟨?_, fun hactive => ?_, ?_, fun _ => hended k rfl⟩
        · simp only [Core.answered, Core.store, Function.update_self]
          exact hold.stub
        · simp only [Core.answered, Core.store, Function.update_self, Bool.false_eq_true] at hactive
        · simp only [Core.answered, Core.store, Function.update_self]
          exact hold.previous
      · exact SameAt.sound ⟨Function.update_of_ne he .., rfl, rfl⟩ (h.sound k)

end Intact

/-- A guardian's approval that would activate a request. -/
structure Activates (s : State) (msg : Message) (id : Nat) : Prop where
  guardian : s.guardians msg.sender = true
  fresh : s.hasGuardianApproved id msg.sender ≠ true
  enough : (s.pauseRecords id).approvalCount + 1 ≥ s.threshold
  inactive : (s.pauseRecords id).active = false

/-- Guardians say truly which implementation the proxy of a request has. -/
def Honest (g : Config State Rest) (c : Call) : Prop :=
  ∀ id previous, c.function = .approvePause id previous → g.state.guardians c.msg.sender = true →
    previous = g.state.implementation (g.state.pauseRecords id).proxy

/-- No guardian pauses a proxy alone; where an approval activates a request, what is recorded for
its proxy still holds and no call of `resume` for it waits; and no pause is only marked as expired
while its proxy is not where it was. -/
structure Straight (g : Config State Rest) (c : Call) : Prop where
  several : ∀ proxy pauseImplementation, c.function = .requestPause proxy pauseImplementation →
    g.state.guardians c.msg.sender = true → 1 < g.state.threshold
  recorded : ∀ id previous, c.function = .approvePause id previous →
    Activates g.state c.msg id →
      ((g.state.pauseRecords id).previousImplementation = .zero ∨
        (g.state.pauseRecords id).previousImplementation =
          g.state.implementation (g.state.pauseRecords id).proxy) ∧
      ∀ frame ∈ g.frames, frame.rest ≠ .resume id
  expiry : ∀ id, c.function = .checkExpired id → (g.state.pauseRecords id).active = true →
    (g.state.pauseRecords id).expiresAt ≤ c.msg.timestamp →
      g.state.implementation (g.state.pauseRecords id).proxy = g.state.before id

/-- The calls of `resume` that wait have put the proxy back. -/
def Waiting (b : Core) (frames : List (Frame State Rest)) : Prop :=
  ∀ frame ∈ frames, ∀ id, frame.rest = .resume id → Ended b id

/-- What holds of a state and the calls that wait in it. -/
def Restoring (s : State) (frames : List (Frame State Rest)) : Prop :=
  Intact s.core ∧ Waiting s.core frames

/-- The record with which an honest approval activates a request. -/
theorem approved_previous {pr : PauseRecord} {impl : Address}
    (hrecorded : pr.previousImplementation = .zero ∨ pr.previousImplementation = impl)
    (himpl : impl ≠ .zero) : (pr.approved impl).previousImplementation = impl := by
  obtain hzero | hsame := hrecorded
  · simp only [PauseRecord.approved, if_pos (And.intro hzero himpl)]
  · simp only [PauseRecord.approved, hsame, ite_self]

theorem Waiting.same {frames : List (Frame State Rest)} (h : Waiting b frames)
    (hsame : ∀ k, Ended b k → Ended b' k) : Waiting b' frames :=
  fun frame hframe id hrest => hsame id (h frame hframe id hrest)

theorem Waiting.logged {frames : List (Frame State Rest)} (h : Waiting b frames)
    (hother : ∀ k, k ≠ id → SameAt b b' k) (hid : Ended b' id) : Waiting b' frames := by
  apply h.same
  intro k hended
  by_cases he : k = id
  · exact he ▸ hid
  · exact (hother k he).ended hended

theorem Step.restoring {g : Config State Rest} (h : Step msg g.state f o b)
    (hhonest : Honest g ⟨msg, f⟩) (hc : Straight g ⟨msg, f⟩)
    (hr : Restoring g.state g.frames) :
    Intact b ∧ Waiting b g.frames ∧ ∀ id, o = some (.resume id) → Ended b id := by
  obtain ⟨hv, hw⟩ := hr
  cases h with
  | requested hnonzero => exact ⟨hv.requested _ hnonzero, hw, nofun⟩
  | activatedAtOnce hguardian _ hnow =>
    have hseveral := hc.several _ _ rfl hguardian
    omega
  | approved hfound => exact ⟨hv.approved hfound _, hw, nofun⟩
  | @activated id previous hguardian hfound hfresh henough hinactive =>
    have hsaid := hhonest id previous rfl hguardian
    obtain ⟨hrecorded, hnone⟩ := hc.recorded id previous rfl
      ⟨hguardian, hfresh, henough, hinactive⟩
    have hprevious : ((g.state.pauseRecords id).approved previous).previousImplementation =
        g.state.implementation (g.state.pauseRecords id).proxy := by
      rw [hsaid]
      exact approved_previous hrecorded (hv.implemented _)
    have hstored := hv.approved hfound previous
    refine ⟨hstored.activated (hv.used_of_proxy hfound) (Function.update_self ..) hfound
      hprevious _, fun frame hframe k hrest => ?_, nofun⟩
    have hk : k ≠ id := by
      rintro rfl
      exact hnone frame hframe hrest
    have hsame : SameAt (g.state.core.store id ((g.state.pauseRecords id).approved previous))
        ((g.state.core.store id ((g.state.pauseRecords id).approved previous)).activated id
          msg.timestamp ((g.state.pauseRecords id).approved previous)) k :=
      ⟨Function.update_of_ne hk .., lastEntry_log_other hk.symm, Function.update_of_ne hk ..⟩
    exact hsame.ended (hw frame hframe k hrest)
  | @resumed id stays hactive =>
    have hold := (hv.sound id).previous ((hv.sound id).started hactive)
    have hleaves : (Entry.restored id (g.state.pauseRecords id).previousImplementation).leaves =
        some (g.state.before id) := by
      rw [Entry.leaves]
      exact congrArg some hold.1
    have hended := hv.ended id stays hactive rfl hleaves
    have hnonzero : (g.state.pauseRecords id).previousImplementation ≠ .zero := by
      have hbefore := hold.2
      rwa [← hold.1] at hbefore
    refine ⟨hended.upgraded (g.state.pauseRecords id).proxy hnonzero none, ?_, ?_⟩
    · exact hw.logged (fun k hk => ⟨Function.update_of_ne hk .., lastEntry_log_other hk.symm, rfl⟩)
        (ended_log rfl hleaves)
    · rintro k ⟨⟩
      exact ended_log rfl hleaves
  | @expired id hactive hlate =>
    have hleaves : (Entry.expired id
        (g.state.implementation (g.state.pauseRecords id).proxy)).leaves =
          some (g.state.before id) := by
      rw [hc.expiry id rfl hactive hlate]
      rfl
    refine ⟨hv.ended id false hactive rfl hleaves, ?_, nofun⟩
    exact hw.logged (fun k hk => ⟨Function.update_of_ne hk .., lastEntry_log_other hk.symm, rfl⟩)
      (ended_log rfl hleaves)
  | guardianSet => exact ⟨hv, hw, nofun⟩
  | upgraded hnonzero => exact ⟨hv.upgraded _ hnonzero _, hw, nofun⟩

/-! ## Runs -/

theorem restoring_enter {g : Config State Rest} {c : Call} {r : Option Rest × State}
    (hc : Honest g c ∧ Straight g c) (hr : Restoring g.state g.frames)
    (h : contract.enter c g.state = .ok r) : After Restoring (proceed g.state g.frames r) := by
  obtain ⟨o, s'⟩ := r
  obtain ⟨hv, hw, hnew⟩ := (step_of_ok h).2.restoring hc.1 hc.2 hr
  cases o with
  | none => exact ⟨hv, hw⟩
  | some rest =>
    refine ⟨hv, fun frame hframe id hrest => ?_⟩
    obtain rfl | hframe := List.mem_cons.mp hframe
    · exact hnew id (congrArg some hrest)
    · exact hw frame hframe id hrest

theorem restoring_resume {fr : Frame State Rest} {frames : List (Frame State Rest)} {ok : Bool}
    {r : Option Rest × State} (hr : Restoring s (fr :: frames)) (_ : Restoring fr.made frames)
    (h : contract.resume fr.rest ok s = .ok r) : After Restoring (proceed fr.made frames r) := by
  obtain ⟨o, s'⟩ := r
  obtain ⟨rfl, _, hcore⟩ := finish_core h
  obtain ⟨hv, hw⟩ := hr
  have hanswered := hv.answered fr.rest (hw fr List.mem_cons_self)
  rw [After, Restoring, proceed, hcore]
  refine ⟨hanswered, fun frame hframe id hrest => ?_⟩
  have hended := hw frame (List.mem_cons_of_mem _ hframe) id hrest
  cases hanswer : fr.rest with
  | activate => exact hended
  | resume => exact hended

/-- When a request that has been activated is no longer active, its proxy has been put back to the
implementation that it had immediately before. -/
def PutBack (s : State) : Prop :=
  ∀ id, (s.pauseRecords id).active = false → Ended s.core id

theorem deploy_intact (sender : Address) (threshold : Nat) (guardians : List Address)
    {implementation : Address → Address} (himplemented : ∀ p, implementation p ≠ .zero) :
    Intact (deploy sender threshold guardians implementation).core where
  implemented := himplemented
  unused _ _ := ⟨rfl, rfl⟩
  sound _ := ⟨fun hproxy => (hproxy rfl).elim, nofun, fun hlast => (hlast rfl).elim, nofun⟩

/-- Where nobody pauses a proxy alone, requests are activated with what still holds and no pause is
only marked as expired, the proxies are put back. -/
theorem put_back_of_straight {sender : Address} {threshold : Nat} {guardians : List Address}
    {implementation : Address → Address} (himplemented : ∀ p, implementation p ≠ .zero)
    {acts : List (Act Call Bool)}
    (hhonest : Along (machine contract) (CallsIn Honest)
      ⟨deploy sender threshold guardians implementation, []⟩ acts)
    (hstraight : Along (machine contract) (CallsIn Straight)
      ⟨deploy sender threshold guardians implementation, []⟩ acts) :
    PutBack (run (machine contract)
      ⟨deploy sender threshold guardians implementation, []⟩ acts).state := by
  have hboth : Along (machine contract) (CallsIn fun g c => Honest g c ∧ Straight g c)
      ⟨deploy sender threshold guardians implementation, []⟩ acts :=
    (hhonest.and hstraight).imp fun _ _ h c hc => ⟨h.1 c hc, h.2 c hc⟩
  have hdeploy : Restoring (deploy sender threshold guardians implementation) [] :=
    ⟨deploy_intact sender threshold guardians himplemented, nofun⟩
  have hrun := holds_run_in (g := ⟨deploy sender threshold guardians implementation, []⟩)
    restoring_enter restoring_resume hboth hdeploy
  intro id hactive
  exact (hrun.here.1.sound id).ended hactive

theorem honest_pausedAndResumed :
    Along (machine contract) (CallsIn Honest) ⟨newPause, []⟩ pausedAndResumed := by
  refine ⟨?_, ?_, nofun, ?_, nofun, trivial⟩
  · rintro c ⟨⟩
    exact nofun
  · rintro c ⟨⟩ id previous ⟨⟩ _
    decide
  · rintro c ⟨⟩
    exact nofun

theorem straight_pausedAndResumed :
    Along (machine contract) (CallsIn Straight) ⟨newPause, []⟩ pausedAndResumed := by
  refine ⟨?_, ?_, nofun, ?_, nofun, trivial⟩
  · rintro c ⟨⟩
    refine ⟨fun _ _ _ _ => ?_, nofun, nofun⟩
    decide
  · rintro c ⟨⟩
    refine ⟨nofun, ?_, nofun⟩
    rintro id previous ⟨⟩ _
    exact ⟨.inl rfl, nofun⟩
  · rintro c ⟨⟩
    exact ⟨nofun, nofun, nofun⟩

theorem put_back_of_straight_pausedAndResumed :
    PutBack (run (machine contract) ⟨newPause, []⟩ pausedAndResumed).state :=
  put_back_of_straight (fun _ => by decide) honest_pausedAndResumed straight_pausedAndResumed

/-- The pause of two guardians is marked as expired when its time is up. -/
def markedExpired : List (Act Call Bool) :=
  [.call ⟨⟨⟨1⟩, 0, 100⟩, .requestPause ⟨7⟩ ⟨8⟩⟩, .call ⟨⟨⟨2⟩, 0, 200⟩, .approvePause 0 ⟨50⟩⟩,
    .answer true, .call ⟨⟨⟨4⟩, 0, 200 + maxPauseDuration⟩, .checkExpired 0⟩]

/-- The pause of the only guardian, which the admin resumes. -/
def pausedAlone : List (Act Call Bool) :=
  [.call ⟨⟨⟨1⟩, 0, 100⟩, .requestPause ⟨7⟩ ⟨8⟩⟩, .answer true, .call ⟨⟨⟨9⟩, 0, 300⟩, .resume 0⟩,
    .answer true]

theorem honest_markedExpired :
    Along (machine contract) (CallsIn Honest) ⟨newPause, []⟩ markedExpired := by
  refine ⟨?_, ?_, nofun, ?_, trivial⟩
  · rintro c ⟨⟩
    exact nofun
  · rintro c ⟨⟩ id previous ⟨⟩ _
    decide
  · rintro c ⟨⟩
    exact nofun

/-- A proxy stays on the stub, or gets the implementation zero. -/
theorem pauses_not_put_back :
    let expired := (run (machine contract) ⟨newPause, []⟩ markedExpired).state
    let alone := (run (machine contract)
      ⟨deploy ⟨9⟩ 1 [⟨1⟩] fun _ => ⟨50⟩, []⟩ pausedAlone).state
    (Along (machine contract) (CallsIn Honest) ⟨newPause, []⟩ markedExpired ∧
        expired.implementation ⟨7⟩ = ⟨8⟩ ∧ expired.before 0 = ⟨50⟩ ∧ ¬ PutBack expired) ∧
      alone.implementation ⟨7⟩ = .zero ∧ alone.before 0 = ⟨50⟩ ∧ ¬ PutBack alone := by
  intro expired alone
  have hexpired : lastEntry expired.history 0 = some (.expired 0 ⟨8⟩) := by decide
  have halone : lastEntry alone.history 0 = some (.restored 0 .zero) := by decide
  refine ⟨⟨honest_markedExpired, by decide, by decide, fun hback => ?_⟩, by decide, by decide,
    fun hback => ?_⟩
  · have hleaves := hback 0 (by decide) _ hexpired
    revert hleaves
    decide
  · have hleaves := hback 0 (by decide) _ halone
    revert hleaves
    decide

end EvmEmergencyPause
