import AgenticPay.Transaction

/-!
# Contracts that other code can call back into

A call of a contract either finishes, or it hands control to other code and waits
for its answer. While it waits, the other code can make further calls, which may
wait in turn. A call whose answer is a failure, or that cannot go on after the
answer, is reverted: the state is again the one in which it was made, and
everything done while it waited is gone.
-/
namespace Reentrancy

open Transaction

universe u v w x

variable {κ : Type u} {σ : Type v} {π : Type w} {τ : Type x}

/-- What each call does until it finishes or waits with something left to do, and what is done
when the answer has come. -/
structure Contract (κ : Type u) (σ : Type v) (π : Type w) (τ : Type x) where
  enter : κ → σ → Except τ (Option π × σ)
  resume : π → σ → Except τ σ

/-- The state, and for each waiting call, the innermost first, the state it was made in and
what it has left to do. -/
structure Config (σ : Type v) (π : Type w) where
  state : σ
  frames : List (σ × π)

inductive Act (κ : Type u) where
  | call (c : κ)
  | answer (ok : Bool)
  deriving DecidableEq, Repr

/-- One act of the code around the contract: a call, or the answer to the innermost waiting one. -/
def machine (C : Contract κ σ π τ) : System (Act κ) (Config σ π) (Option τ) Unit
  | .call c, g =>
    match C.enter c g.state with
    | .error t => .error (some t)
    | .ok (none, s) => .ok ((), ⟨s, g.frames⟩)
    | .ok (some rest, s) => .ok ((), ⟨s, (g.state, rest) :: g.frames⟩)
  | .answer ok, g =>
    match g.frames with
    | [] => .error none
    | (snapshot, rest) :: frames =>
      match ok, C.resume rest g.state with
      | true, .ok s => .ok ((), ⟨s, frames⟩)
      | _, _ => .ok ((), ⟨snapshot, frames⟩)

variable {C : Contract κ σ π τ}

/-- The four ways in which an act moves a configuration. -/
inductive Moves (C : Contract κ σ π τ) (g : Config σ π) : Act κ → Config σ π → Prop
  | finished {c s} (h : C.enter c g.state = .ok (none, s)) : Moves C g (.call c) ⟨s, g.frames⟩
  | waits {c s rest} (h : C.enter c g.state = .ok (some rest, s)) :
      Moves C g (.call c) ⟨s, (g.state, rest) :: g.frames⟩
  | resumed {snapshot rest frames s} (waiting : g.frames = (snapshot, rest) :: frames)
      (h : C.resume rest g.state = .ok s) : Moves C g (.answer true) ⟨s, frames⟩
  | reverted {ok snapshot rest frames} (waiting : g.frames = (snapshot, rest) :: frames) :
      Moves C g (.answer ok) ⟨snapshot, frames⟩

theorem moves_of_ok {g g' : Config σ π} {a : Act κ} {u : Unit}
    (h : machine C a g = .ok (u, g')) : Moves C g a g' := by
  cases a with
  | call c =>
    rw [machine] at h
    cases henter : C.enter c g.state with
    | error t =>
      rw [henter] at h
      contradiction
    | ok r =>
      obtain ⟨rest, s⟩ := r
      cases rest with
      | none =>
        rw [henter] at h
        obtain ⟨_, rfl⟩ := Prod.mk.inj (Except.ok.inj h)
        exact .finished henter
      | some rest =>
        rw [henter] at h
        obtain ⟨_, rfl⟩ := Prod.mk.inj (Except.ok.inj h)
        exact .waits henter
  | answer ok =>
    rw [machine] at h
    cases hframes : g.frames with
    | nil =>
      rw [hframes] at h
      contradiction
    | cons f frames =>
      obtain ⟨snapshot, rest⟩ := f
      simp only [hframes] at h
      cases ok with
      | false =>
        obtain ⟨_, rfl⟩ := Prod.mk.inj (Except.ok.inj h)
        exact .reverted hframes
      | true =>
        cases hresume : C.resume rest g.state with
        | error t =>
          rw [hresume] at h
          obtain ⟨_, rfl⟩ := Prod.mk.inj (Except.ok.inj h)
          exact .reverted hframes
        | ok s =>
          rw [hresume] at h
          obtain ⟨_, rfl⟩ := Prod.mk.inj (Except.ok.inj h)
          exact .resumed hframes hresume

theorem commit_waits {g : Config σ π} {c : κ} {rest : π} {s : σ}
    (h : C.enter c g.state = .ok (some rest, s)) :
    commit (machine C) g (.call c) = ⟨s, (g.state, rest) :: g.frames⟩ := by
  apply commit_of_ok (r := ())
  simp only [machine, h]

/-- A committed act has moved the configuration, or it has changed nothing. -/
theorem commit_moves (C : Contract κ σ π τ) (g : Config σ π) (a : Act κ) :
    Moves C g a (commit (machine C) g a) ∨ commit (machine C) g a = g := by
  obtain ⟨_, hr⟩ | ⟨_, he⟩ := commit_cases (machine C) g a
  · exact .inl (moves_of_ok hr)
  · exact .inr he

/-- A property of a state and of the calls that wait in it, which also holds of every state
that a revert of these calls would bring back. -/
def Holds (P : σ → List (σ × π) → Prop) : σ → List (σ × π) → Prop
  | s, [] => P s []
  | s, (snapshot, rest) :: frames => P s ((snapshot, rest) :: frames) ∧ Holds P snapshot frames

variable {P P' : σ → List (σ × π) → Prop} {s : σ} {frames : List (σ × π)}

theorem Holds.here (h : Holds P s frames) : P s frames := by
  cases frames with
  | nil => exact h
  | cons f frames => exact h.1

theorem Holds.below {snapshot : σ} {rest : π} (h : Holds P s ((snapshot, rest) :: frames)) :
    Holds P snapshot frames := h.2

theorem Holds.replace {s' : σ} (h : Holds P s frames) (hs : P s' frames) : Holds P s' frames := by
  cases frames with
  | nil => exact hs
  | cons f frames => exact ⟨hs, h.2⟩

theorem Holds.imp (hp : ∀ s frames, P s frames → P' s frames) (h : Holds P s frames) :
    Holds P' s frames := by
  induction frames generalizing s with
  | nil => exact hp s [] h
  | cons f frames ih => exact ⟨hp _ _ h.1, ih h.2⟩

/-- A property of states alone, of the state and of all that a revert would bring back. -/
theorem holds_of_states {R : σ → Prop} (hs : R s) (hframes : ∀ frame ∈ frames, R frame.1) :
    Holds (fun s _ => R s) s frames := by
  induction frames generalizing s with
  | nil => exact hs
  | cons f frames ih =>
    exact ⟨hs, ih (hframes f List.mem_cons_self)
      fun frame hframe => hframes frame (List.mem_cons_of_mem _ hframe)⟩

/-- What the calls that meet `Q` and the resumptions of a contract do to such a property. -/
structure Keeps (C : Contract κ σ π τ) (Q : σ → κ → Prop) (P : σ → List (σ × π) → Prop) :
    Prop where
  finish : ∀ {c s s' frames}, Q s c → P s frames → C.enter c s = .ok (none, s') → P s' frames
  wait : ∀ {c s s' rest frames}, Q s c → P s frames → C.enter c s = .ok (some rest, s') →
    P s' ((s, rest) :: frames)
  resume : ∀ {s snapshot rest frames s'}, P s ((snapshot, rest) :: frames) → P snapshot frames →
    C.resume rest s = .ok s' → P s' frames

/-- The calls among the acts meet `Q` where they are made. -/
def Calls (Q : σ → κ → Prop) (g : Config σ π) (a : Act κ) : Prop := ∀ c, a = .call c → Q g.state c

theorem holds_commit {Q : σ → κ → Prop} (hk : Keeps C Q P) {g : Config σ π} {a : Act κ}
    (hq : Calls Q g a) (h : Holds P g.state g.frames) :
    Holds P (commit (machine C) g a).state (commit (machine C) g a).frames := by
  obtain hmoves | he := commit_moves C g a
  · generalize commit (machine C) g a = g' at hmoves
    cases hmoves with
    | finished henter => exact h.replace (hk.finish (hq _ rfl) h.here henter)
    | waits henter => exact ⟨hk.wait (hq _ rfl) h.here henter, h⟩
    | resumed hwaiting hresume =>
      rw [hwaiting] at h
      exact h.below.replace (hk.resume h.here h.below.here hresume)
    | reverted hwaiting =>
      rw [hwaiting] at h
      exact h.below
  · rwa [he]

theorem calls_any (a : Act κ) (g : Config σ π) : Calls (fun _ _ => True) g a := fun _ _ => trivial

theorem holds_run_any (hk : Keeps C (fun _ _ => True) P) {g : Config σ π}
    (h : Holds P g.state g.frames) (acts : List (Act κ)) :
    Holds P (run (machine C) g acts).state (run (machine C) g acts).frames :=
  run_preserves (I := fun g => Holds P g.state g.frames)
    (fun g a h => holds_commit hk (calls_any a g) h) h acts

/-- A call in the deepest frames of a stack is not touched while the calls above it run. -/
theorem suffix_commit {base : List (σ × π)} {f : σ × π} {g : Config σ π} {a : Act κ}
    (h : f :: base <:+ g.frames) (hdeep : base.length < (commit (machine C) g a).frames.length) :
    f :: base <:+ (commit (machine C) g a).frames := by
  obtain hmoves | he := commit_moves C g a
  · generalize commit (machine C) g a = g' at hmoves hdeep
    have hpop : ∀ {top frames}, g.frames = top :: frames → base.length < frames.length →
        f :: base <:+ frames := by
      intro top frames hwaiting hlong
      rw [hwaiting] at h
      rcases List.suffix_cons_iff.mp h with he | hrest
      · obtain ⟨_, rfl⟩ := List.cons.inj he
        omega
      · exact hrest
    cases hmoves with
    | finished => exact h
    | waits => exact h.trans (List.suffix_cons _ _)
    | resumed hwaiting => exact hpop hwaiting hdeep
    | reverted hwaiting => exact hpop hwaiting hdeep
  · rwa [he]

/-- A call that waits and is answered with a failure leaves the configuration it was made in,
whatever has been done while it waited. -/
theorem reverted_restores {g : Config σ π} {c : κ} {rest : π} {s : σ} {mid : List (Act κ)}
    (hwaits : C.enter c g.state = .ok (some rest, s))
    (hinside : ∀ pre, pre <+: mid →
      g.frames.length < (run (machine C) ⟨s, (g.state, rest) :: g.frames⟩ pre).frames.length)
    (hback : (run (machine C) ⟨s, (g.state, rest) :: g.frames⟩ mid).frames.length =
      g.frames.length + 1) :
    run (machine C) g (.call c :: mid ++ [.answer false]) = g := by
  have hsuffix : ∀ pre, pre <+: mid → (g.state, rest) :: g.frames <:+
      (run (machine C) ⟨s, (g.state, rest) :: g.frames⟩ pre).frames := by
    intro pre hpre
    induction pre using List.reverseRecOn with
    | nil => exact List.suffix_rfl
    | append_singleton pre a ih =>
      have hshort := ih ((List.prefix_append pre [a]).trans hpre)
      have hdeep := hinside _ hpre
      rw [run_snoc] at hdeep ⊢
      exact suffix_commit hshort hdeep
  have hframes := (hsuffix mid List.prefix_rfl).eq_of_length (by rw [List.length_cons, hback])
  rw [List.cons_append, run_cons, commit_waits hwaits, run_snoc]
  apply commit_of_ok (r := ())
  simp only [machine, ← hframes]

end Reentrancy
