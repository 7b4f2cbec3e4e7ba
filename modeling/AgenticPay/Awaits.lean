import AgenticPay.Transaction
import Mathlib.Data.List.Basic

/-!
# Programs that wait and go on

A call runs up to its first wait, and a task that waits is resumed later and runs up to its next
one. In between any other calls are made and any other tasks are resumed, in any order. A turn is
not undone when it throws: what it has written stays. What a turn is told by its surroundings (the
time, random numbers) comes with it; a call that they cannot make is no call.
-/
namespace Awaits

open Transaction

universe u v w x y

variable {κ : Type u} {ι : Type v} {σ : Type w} {π : Type x} {ρ : Type y}

/-- How a turn ends. -/
inductive Turn (π : Type x) (ρ : Type y) where
  | done (result : ρ)
  | waits (task : π)

def Turn.tasks : Turn π ρ → List π
  | .done _ => []
  | .waits task => [task]

structure Program (κ : Type u) (ι : Type v) (σ : Type w) (π : Type x) (ρ : Type y) where
  call : κ → ι → σ → Option (Turn π ρ × σ)
  resume : π → ι → σ → Turn π ρ × σ

/-- The shared state and the tasks that wait. -/
structure Config (σ : Type w) (π : Type x) where
  state : σ
  tasks : List π

inductive Act (κ : Type u) (ι : Type v) where
  | call (c : κ) (e : ι)
  | resume (i : Nat) (e : ι)

/-- One turn. -/
def machine (P : Program κ ι σ π ρ) : System (Act κ ι) (Config σ π) Unit (Turn π ρ)
  | .call c e, g =>
    match P.call c e g.state with
    | none => .error ()
    | some (t, s) => .ok (t, ⟨s, g.tasks ++ t.tasks⟩)
  | .resume i e, g =>
    match g.tasks[i]? with
    | none => .error ()
    | some task =>
      let r := P.resume task e g.state
      .ok (r.1, ⟨r.2, g.tasks.eraseIdx i ++ r.1.tasks⟩)

variable {P : Program κ ι σ π ρ} {g : Config σ π}

/-- The two ways in which an act moves a configuration. -/
inductive Moves (P : Program κ ι σ π ρ) (g : Config σ π) : Act κ ι → Config σ π → Prop
  | called {c e t s} (h : P.call c e g.state = some (t, s)) :
      Moves P g (.call c e) ⟨s, g.tasks ++ t.tasks⟩
  | resumed {i e task t s} (waiting : g.tasks[i]? = some task)
      (h : P.resume task e g.state = (t, s)) :
      Moves P g (.resume i e) ⟨s, g.tasks.eraseIdx i ++ t.tasks⟩

theorem commit_called {c : κ} {e : ι} {t : Turn π ρ} {s : σ}
    (h : P.call c e g.state = some (t, s)) :
    commit (machine P) g (.call c e) = ⟨s, g.tasks ++ t.tasks⟩ := by
  apply commit_of_ok (r := t)
  simp only [machine, h]

theorem commit_resumed {i : Nat} {e : ι} {task : π} {t : Turn π ρ} {s : σ}
    (hwaiting : g.tasks[i]? = some task) (h : P.resume task e g.state = (t, s)) :
    commit (machine P) g (.resume i e) = ⟨s, g.tasks.eraseIdx i ++ t.tasks⟩ := by
  apply commit_of_ok (r := t)
  simp only [machine, hwaiting, h]

/-- A committed act has moved the configuration, or it has changed nothing. -/
theorem commit_moves (P : Program κ ι σ π ρ) (g : Config σ π) (a : Act κ ι) :
    Moves P g a (commit (machine P) g a) ∨ commit (machine P) g a = g := by
  cases a with
  | call c e =>
    cases h : P.call c e g.state with
    | none => exact .inr (by simp only [commit, machine, h])
    | some r =>
      rw [commit_called (t := r.1) (s := r.2) h]
      exact .inl (.called h)
  | resume i e =>
    cases h : g.tasks[i]? with
    | none => exact .inr (by simp only [commit, machine, h])
    | some task =>
      rw [commit_resumed h rfl]
      exact .inl (.resumed h rfl)

/-! ## A call that nothing comes between -/

/-- What becomes of a turn when its own task is resumed, up to so many times. -/
def Program.alone (P : Program κ ι σ π ρ) (e : ι) : Nat → Turn π ρ × σ → Turn π ρ × σ
  | 0, r => r
  | _ + 1, (.done result, s) => (.done result, s)
  | k + 1, (.waits task, s) => P.alone e k (P.resume task e s)

@[simp] theorem alone_done (P : Program κ ι σ π ρ) (e : ι) (k : Nat) (result : ρ) (s : σ) :
    P.alone e k (.done result, s) = (.done result, s) := by
  cases k <;> rfl

@[simp] theorem alone_waits (P : Program κ ι σ π ρ) (e : ι) (k : Nat) (task : π) (s : σ) :
    P.alone e (k + 1) (.waits task, s) = P.alone e k (P.resume task e s) := rfl

theorem run_resumes (P : Program κ ι σ π ρ) (e : ι) (tasks : List π) (k : Nat) (t : Turn π ρ)
    (s : σ) : run (machine P) ⟨s, tasks ++ t.tasks⟩ (List.replicate k (.resume tasks.length e)) =
      ⟨(P.alone e k (t, s)).2, tasks ++ (P.alone e k (t, s)).1.tasks⟩ := by
  induction k generalizing t s with
  | zero => rfl
  | succ k ih =>
    rw [List.replicate_succ, run_cons]
    cases t with
    | done result =>
      have hnone : (tasks ++ (Turn.done result : Turn π ρ).tasks)[tasks.length]? = none := by
        simp [Turn.tasks]
      have hsame : commit (machine P) ⟨s, tasks ++ (Turn.done result : Turn π ρ).tasks⟩
          (.resume tasks.length e) = ⟨s, tasks ++ (Turn.done result : Turn π ρ).tasks⟩ := by
        simp only [commit, machine, hnone]
      rw [hsame, ih, alone_done, alone_done]
    | waits task =>
      have hlast : (tasks ++ (Turn.waits task : Turn π ρ).tasks)[tasks.length]? = some task := by
        simp [Turn.tasks]
      have herase : (tasks ++ (Turn.waits task : Turn π ρ).tasks).eraseIdx tasks.length =
          tasks := by
        simp [Turn.tasks, List.eraseIdx_append_of_length_le]
      rw [commit_resumed hlast rfl, herase, ih, alone_waits]

/-- A call and then its own task, while all other tasks wait. -/
theorem run_alone {c : κ} {e : ι} {t : Turn π ρ} {s : σ} (h : P.call c e g.state = some (t, s))
    (k : Nat) :
    run (machine P) g (.call c e :: List.replicate k (.resume g.tasks.length e)) =
      ⟨(P.alone e k (t, s)).2, g.tasks ++ (P.alone e k (t, s)).1.tasks⟩ := by
  rw [run_cons, commit_called h, run_resumes]

/-! ## Properties that turns keep -/

/-- A property of the state, and of each task that waits in it. -/
structure Sound (I : σ → Prop) (J : σ → π → Prop) (g : Config σ π) : Prop where
  state : I g.state
  tasks : ∀ task ∈ g.tasks, J g.state task

variable {Q : Config σ π → Act κ ι → Prop} {I : σ → Prop} {J : σ → π → Prop}

/-- What a turn leaves for the tasks that wait elsewhere, and for its own. -/
structure Leaves (I : σ → Prop) (J : σ → π → Prop) (g : Config σ π) (t : Turn π ρ) (s : σ) :
    Prop where
  state : I s
  stable : ∀ task ∈ g.tasks, J g.state task → J s task
  tasks : ∀ task ∈ t.tasks, J s task

/-- Every turn that meets `Q` keeps the property, for itself and for all others. -/
structure Keeps (P : Program κ ι σ π ρ) (Q : Config σ π → Act κ ι → Prop) (I : σ → Prop)
    (J : σ → π → Prop) : Prop where
  call : ∀ {g c e t s}, Q g (.call c e) → Sound I J g → P.call c e g.state = some (t, s) →
    Leaves I J g t s
  resume : ∀ {g i e task t s}, Q g (.resume i e) → Sound I J g → g.tasks[i]? = some task →
    P.resume task e g.state = (t, s) → Leaves I J g t s

theorem Leaves.sound {s : σ} {t : Turn π ρ} {tasks : List π} (h : Leaves I J g t s)
    (hg : Sound I J g) (htasks : tasks ⊆ g.tasks) : Sound I J ⟨s, tasks ++ t.tasks⟩ where
  state := h.state
  tasks := by
    intro task hmem
    obtain hold | hnew := List.mem_append.mp hmem
    · exact h.stable task (htasks hold) (hg.tasks task (htasks hold))
    · exact h.tasks task hnew

theorem sound_commit (hk : Keeps P Q I J) {a : Act κ ι} (hq : Q g a) (h : Sound I J g) :
    Sound I J (commit (machine P) g a) := by
  obtain hmoves | he := commit_moves P g a
  · generalize commit (machine P) g a = g' at hmoves
    cases hmoves with
    | called hcalled => exact (hk.call hq h hcalled).sound h (List.Subset.refl _)
    | resumed hwaiting hresumed =>
      exact (hk.resume hq h hwaiting hresumed).sound h (List.eraseIdx_subset)
  · rwa [he]

theorem sound_run (hk : Keeps P Q I J) {acts : List (Act κ ι)}
    (hq : Along (machine P) Q g acts) (h : Sound I J g) : Sound I J (run (machine P) g acts) :=
  run_invariant (I := Sound I J) (fun _ _ h hq => sound_commit hk hq h) h hq

variable {Q' : Config σ π → Act κ ι → Prop} {I' : σ → Prop} {J' : σ → π → Prop}

/-- A second property may rest on a first one, before a turn and after it. -/
structure KeepsOn (P : Program κ ι σ π ρ) (I : σ → Prop) (J : σ → π → Prop)
    (Q' : Config σ π → Act κ ι → Prop) (I' : σ → Prop) (J' : σ → π → Prop) : Prop where
  call : ∀ {g c e t s}, Q' g (.call c e) → Sound I J g → Sound I' J' g →
    P.call c e g.state = some (t, s) → Leaves I J g t s → Leaves I' J' g t s
  resume : ∀ {g i e task t s}, Q' g (.resume i e) → Sound I J g → Sound I' J' g →
    g.tasks[i]? = some task → P.resume task e g.state = (t, s) → Leaves I J g t s →
      Leaves I' J' g t s

theorem Sound.and : Sound (fun s => I s ∧ I' s) (fun s task => J s task ∧ J' s task) g ↔
    Sound I J g ∧ Sound I' J' g :=
  ⟨fun h => ⟨⟨h.state.1, fun task hmem => (h.tasks task hmem).1⟩,
      ⟨h.state.2, fun task hmem => (h.tasks task hmem).2⟩⟩,
    fun h => ⟨⟨h.1.state, h.2.state⟩, fun task hmem => ⟨h.1.tasks task hmem, h.2.tasks task hmem⟩⟩⟩

theorem Leaves.and {t : Turn π ρ} {s : σ} (hg : Sound I J g ∧ Sound I' J' g)
    (h : Leaves I J g t s) (h' : Leaves I' J' g t s) :
    Leaves (fun s => I s ∧ I' s) (fun s task => J s task ∧ J' s task) g t s where
  state := ⟨h.state, h'.state⟩
  stable := fun task hmem _ => ⟨h.stable task hmem (hg.1.tasks task hmem),
    h'.stable task hmem (hg.2.tasks task hmem)⟩
  tasks := fun task hmem => ⟨h.tasks task hmem, h'.tasks task hmem⟩

theorem Keeps.and (h : Keeps P Q I J) (h' : KeepsOn P I J Q' I' J') :
    Keeps P (fun g a => Q g a ∧ Q' g a) (fun s => I s ∧ I' s)
      (fun s task => J s task ∧ J' s task) where
  call := by
    intro g c e t s hq hsound hcall
    have hboth := Sound.and.mp hsound
    have hleaves := h.call hq.1 hboth.1 hcall
    exact hleaves.and hboth (h'.call hq.2 hboth.1 hboth.2 hcall hleaves)
  resume := by
    intro g i e task t s hq hsound hwaiting hresume
    have hboth := Sound.and.mp hsound
    have hleaves := h.resume hq.1 hboth.1 hwaiting hresume
    exact hleaves.and hboth (h'.resume hq.2 hboth.1 hboth.2 hwaiting hresume hleaves)

end Awaits
