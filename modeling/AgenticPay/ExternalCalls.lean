import AgenticPay.Transaction

/-!
# Contracts that make several external calls

A call of a contract finishes, or it makes an external call and waits for the
answer; after the answer it finishes, or it waits for the next one. While it
waits, other calls of the contract can be made. An answer may say that the
callee has reverted: then all that was done while the call waited is gone. What
the call makes of that is its own affair, and a call that cannot go on is
reverted itself, to the state in which it was made.
-/
namespace ExternalCalls

open Transaction

universe u v w x y

variable {κ : Type u} {σ : Type v} {π : Type w} {τ : Type x} {ρ : Type y}

structure Contract (κ : Type u) (σ : Type v) (π : Type w) (τ : Type x) (ρ : Type y) where
  enter : κ → σ → Except τ (Option π × σ)
  resume : π → ρ → σ → Except τ (Option π × σ)
  /-- The callee has reverted. -/
  undone : ρ → Bool

/-- A waiting call: the state in which it was made, the state in which it began to wait, and
what it has left to do. -/
structure Frame (σ : Type v) (π : Type w) where
  made : σ
  left : σ
  rest : π

structure Config (σ : Type v) (π : Type w) where
  state : σ
  frames : List (Frame σ π)

inductive Act (κ : Type u) (ρ : Type y) where
  | call (c : κ)
  | answer (r : ρ)
  deriving DecidableEq, Repr

/-- After a step of a call that was made in the state `made`: it is done, or it waits. -/
def proceed (made : σ) (frames : List (Frame σ π)) : Option π × σ → Config σ π
  | (none, s) => ⟨s, frames⟩
  | (some rest, s) => ⟨s, ⟨made, s, rest⟩ :: frames⟩

/-- One act of the code around the contract: a call, or the answer to the innermost waiting one. -/
def machine (C : Contract κ σ π τ ρ) : System (Act κ ρ) (Config σ π) (Option τ) Unit
  | .call c, g =>
    match C.enter c g.state with
    | .error t => .error (some t)
    | .ok r => .ok ((), proceed g.state g.frames r)
  | .answer a, g =>
    match g.frames with
    | [] => .error none
    | f :: frames =>
      match C.resume f.rest a (if C.undone a then f.left else g.state) with
      | .error _ => .ok ((), ⟨f.made, frames⟩)
      | .ok r => .ok ((), proceed f.made frames r)

theorem state_proceed (made : σ) (frames : List (Frame σ π)) (r : Option π × σ) :
    (proceed made frames r).state = r.2 := by
  obtain ⟨o, s⟩ := r
  cases o <;> rfl

variable {C : Contract κ σ π τ ρ}

/-- The three ways in which an act moves a configuration. -/
inductive Moves (C : Contract κ σ π τ ρ) (g : Config σ π) : Act κ ρ → Config σ π → Prop
  | entered {c r} (h : C.enter c g.state = .ok r) :
      Moves C g (.call c) (proceed g.state g.frames r)
  | resumed {a f frames r} (waiting : g.frames = f :: frames)
      (h : C.resume f.rest a (if C.undone a then f.left else g.state) = .ok r) :
      Moves C g (.answer a) (proceed f.made frames r)
  | reverted {a f frames} (waiting : g.frames = f :: frames) :
      Moves C g (.answer a) ⟨f.made, frames⟩

theorem moves_of_ok {g g' : Config σ π} {a : Act κ ρ} {u : Unit}
    (h : machine C a g = .ok (u, g')) : Moves C g a g' := by
  cases a with
  | call c =>
    simp only [machine] at h
    cases henter : C.enter c g.state with
    | error t =>
      rw [henter] at h
      contradiction
    | ok r =>
      rw [henter] at h
      obtain ⟨_, rfl⟩ := Prod.mk.inj (Except.ok.inj h)
      exact .entered henter
  | answer a =>
    simp only [machine] at h
    cases hframes : g.frames with
    | nil =>
      rw [hframes] at h
      contradiction
    | cons f frames =>
      simp only [hframes] at h
      cases hresume : C.resume f.rest a (if C.undone a then f.left else g.state) with
      | error t =>
        rw [hresume] at h
        obtain ⟨_, rfl⟩ := Prod.mk.inj (Except.ok.inj h)
        exact .reverted hframes
      | ok r =>
        rw [hresume] at h
        obtain ⟨_, rfl⟩ := Prod.mk.inj (Except.ok.inj h)
        exact .resumed hframes hresume

/-- A committed act has moved the configuration, or it has changed nothing. -/
theorem commit_moves (C : Contract κ σ π τ ρ) (g : Config σ π) (a : Act κ ρ) :
    Moves C g a (commit (machine C) g a) ∨ commit (machine C) g a = g := by
  obtain ⟨_, hr⟩ | ⟨_, he⟩ := commit_cases (machine C) g a
  · exact .inl (moves_of_ok hr)
  · exact .inr he

theorem commit_enter {g : Config σ π} {c : κ} {r : Option π × σ}
    (h : C.enter c g.state = .ok r) :
    commit (machine C) g (.call c) = proceed g.state g.frames r := by
  apply commit_of_ok (r := ())
  simp only [machine, h]

/-- A property of a state and of the calls that wait in it, which also holds of every state that
a revert, of a waiting call or of its callee, would bring back. -/
def Holds (P : σ → List (Frame σ π) → Prop) : σ → List (Frame σ π) → Prop
  | s, [] => P s []
  | s, f :: frames => P s (f :: frames) ∧ P f.left (f :: frames) ∧ Holds P f.made frames

variable {P P' : σ → List (Frame σ π) → Prop} {s : σ} {frames : List (Frame σ π)}

theorem Holds.here (h : Holds P s frames) : P s frames := by
  cases frames with
  | nil => exact h
  | cons f frames => exact h.1

theorem Holds.imp (hp : ∀ s frames, P s frames → P' s frames) (h : Holds P s frames) :
    Holds P' s frames := by
  induction frames generalizing s with
  | nil => exact hp s [] h
  | cons f frames ih => exact ⟨hp _ _ h.1, hp _ _ h.2.1, ih h.2.2⟩

theorem Holds.replace {s' : σ} (h : Holds P s frames) (hs : P s' frames) : Holds P s' frames := by
  cases frames with
  | nil => exact hs
  | cons f frames => exact ⟨hs, h.2⟩

/-- The property where an answer finds the call that it is for. -/
theorem Holds.answered {f : Frame σ π} (h : Holds P s (f :: frames)) (undone : Bool) :
    P (if undone then f.left else s) (f :: frames) := by
  cases undone with
  | true => exact h.2.1
  | false => exact h.1

theorem Holds.proceed {r : Option π × σ} (h : Holds P s frames)
    (hr : P (proceed s frames r).state (proceed s frames r).frames) :
    Holds P (proceed s frames r).state (proceed s frames r).frames := by
  obtain ⟨rest, s'⟩ := r
  cases rest with
  | none => exact h.replace hr
  | some rest => exact ⟨hr, hr, h⟩

/-- A property of the reached configuration only. -/
def After (P : σ → List (Frame σ π) → Prop) (g : Config σ π) : Prop := P g.state g.frames

/-- What the calls that meet `Q` and the resumptions of a contract do to such a property. -/
structure Keeps (C : Contract κ σ π τ ρ) (Q : σ → κ → Prop) (P : σ → List (Frame σ π) → Prop) :
    Prop where
  enter : ∀ {c s frames r}, Q s c → P s frames → C.enter c s = .ok r →
    After P (ExternalCalls.proceed s frames r)
  resume : ∀ {f s frames a r}, P s (f :: frames) → P f.made frames →
    C.resume f.rest a s = .ok r → After P (ExternalCalls.proceed f.made frames r)

/-- The calls among the acts meet `Q` where they are made. -/
def Calls (Q : σ → κ → Prop) (g : Config σ π) (a : Act κ ρ) : Prop := ∀ c, a = .call c → Q g.state c

theorem holds_commit_of {g : Config σ π} {a : Act κ ρ}
    (henter : ∀ c r, a = .call c → C.enter c g.state = .ok r →
      After P (ExternalCalls.proceed g.state g.frames r))
    (hresume : ∀ {f s frames a r}, P s (f :: frames) → P f.made frames →
      C.resume f.rest a s = .ok r → After P (ExternalCalls.proceed f.made frames r))
    (h : Holds P g.state g.frames) :
    Holds P (commit (machine C) g a).state (commit (machine C) g a).frames := by
  obtain hmoves | he := commit_moves C g a
  · generalize commit (machine C) g a = g' at hmoves
    cases hmoves with
    | entered hentered => exact h.proceed (henter _ _ rfl hentered)
    | resumed hwaiting hresumed =>
      rw [hwaiting] at h
      exact h.2.2.proceed (hresume (h.answered _) h.2.2.here hresumed)
    | reverted hwaiting =>
      rw [hwaiting] at h
      exact h.2.2
  · rwa [he]

theorem holds_commit {Q : σ → κ → Prop} (hk : Keeps C Q P) {g : Config σ π} {a : Act κ ρ}
    (hq : Calls Q g a) (h : Holds P g.state g.frames) :
    Holds P (commit (machine C) g a).state (commit (machine C) g a).frames :=
  holds_commit_of (fun c _ hc henter => hk.enter (hq c hc) h.here henter) hk.resume h

/-- The calls among the acts meet `Q` where they are made, with the calls that wait there. -/
def CallsIn (Q : Config σ π → κ → Prop) (g : Config σ π) (a : Act κ ρ) : Prop :=
  ∀ c, a = .call c → Q g c

theorem holds_run_in {Q : Config σ π → κ → Prop}
    (henter : ∀ {g c r}, Q g c → P g.state g.frames → C.enter c g.state = .ok r →
      After P (ExternalCalls.proceed g.state g.frames r))
    (hresume : ∀ {f s frames a r}, P s (f :: frames) → P f.made frames →
      C.resume f.rest a s = .ok r → After P (ExternalCalls.proceed f.made frames r))
    {g : Config σ π} {acts : List (Act κ ρ)} (hq : Along (machine C) (CallsIn Q) g acts)
    (h : Holds P g.state g.frames) :
    Holds P (run (machine C) g acts).state (run (machine C) g acts).frames := by
  apply run_invariant (I := fun g => Holds P g.state g.frames) _ h hq
  intro g a h hc
  exact holds_commit_of (fun c _ hcall hentered => henter (hc c hcall) h.here hentered) hresume h

theorem holds_run {Q : σ → κ → Prop} (hk : Keeps C Q P) {g : Config σ π} {acts : List (Act κ ρ)}
    (hq : Along (machine C) (Calls Q) g acts) (h : Holds P g.state g.frames) :
    Holds P (run (machine C) g acts).state (run (machine C) g acts).frames :=
  run_invariant (I := fun g => Holds P g.state g.frames) (fun _ _ h hq => holds_commit hk hq h) h hq

/-- What the property says of each state can be used at each call that is made in it. -/
theorem along_holds {Q R : σ → κ → Prop} (hk : Keeps C Q P) {g : Config σ π}
    {acts : List (Act κ ρ)} (hq : Along (machine C) (Calls Q) g acts)
    (h : Holds P g.state g.frames) (hr : ∀ s frames c, P s frames → Q s c → R s c) :
    Along (machine C) (Calls R) g acts := by
  apply along_of_invariant (I := fun g => Holds P g.state g.frames)
    (fun _ _ h hq => holds_commit hk hq h) h hq
  intro g a hg hq c hc
  exact hr _ _ c hg.here (hq c hc)

theorem holds_run_any (hk : Keeps C (fun _ _ => True) P) {g : Config σ π}
    (h : Holds P g.state g.frames) (acts : List (Act κ ρ)) :
    Holds P (run (machine C) g acts).state (run (machine C) g acts).frames :=
  run_preserves (I := fun g : Config σ π => Holds P g.state g.frames)
    (fun _ _ h => holds_commit hk (fun _ _ => trivial) h) h acts

end ExternalCalls
