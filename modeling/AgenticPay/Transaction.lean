import Mathlib.Algebra.Ring.Int.Defs
import Mathlib.Data.List.Basic
import Mathlib.Data.List.Infix
import Mathlib.Data.List.Nodup
import Mathlib.Data.List.Perm.Subperm

/-!
# Runs of transactional calls

A call against a state either returns a value together with the next state, or
traps. A trapped call leaves no trace: the state after it is the state before
it. A run is a finite list of calls, committed in order from a given state; no
bound on its length and no assumption on who sent which call is made here.
-/
namespace Transaction

universe u v w x

variable {σ : Type u} {κ : Type v} {ρ : Type w} {τ : Type x}

/-- What every call does to every state: a returned value and the next state, or a trap. -/
abbrev System (κ : Type v) (σ : Type u) (τ : Type x) (ρ : Type w) := κ → σ → Except τ (ρ × σ)

/-- A computation that returns has returned at each of its steps. -/
theorem bind_returns {α : Type v} {β : Type v} {x : Except τ α} {f : α → Except τ β} {b : β}
    (h : (x >>= f) = .ok b) : ∃ a, x = .ok a ∧ f a = .ok b := by
  cases x with
  | error trap => contradiction
  | ok a => exact ⟨a, rfl, h⟩

theorem map_returns {α : Type v} {β : Type w} {x : Except τ α} {f : α → β} {b : β}
    (h : x.map f = .ok b) : ∃ a, x = .ok a ∧ f a = b := by
  cases x with
  | error t => contradiction
  | ok a => exact ⟨a, rfl, Except.ok.inj h⟩

/-- Computations that go on alike from the same first step come to the same. -/
theorem map_bind_congr {α : Type v} {β γ : Type v} {x : Except τ α} {f g : α → Except τ β}
    {r : β → γ} (h : ∀ a, x = .ok a → (f a).map r = (g a).map r) :
    (x >>= f).map r = (x >>= g).map r := by
  cases x with
  | error trap => rfl
  | ok a => exact h a rfl

variable (sys : System κ σ τ ρ)

/-- The state a call leaves behind. A trap rolls back to the state it started from. -/
def commit (s : σ) (c : κ) : σ :=
  match sys c s with
  | .ok (_, s') => s'
  | .error _ => s

def run (s : σ) : List κ → σ
  | [] => s
  | c :: cs => run (commit sys s c) cs

@[simp] theorem run_nil (s : σ) : run sys s [] = s := rfl
@[simp] theorem run_cons (s : σ) (c : κ) (cs : List κ) :
    run sys s (c :: cs) = run sys (commit sys s c) cs := rfl

theorem run_append (s : σ) (cs ds : List κ) :
    run sys s (cs ++ ds) = run sys (run sys s cs) ds := by
  induction cs generalizing s with
  | nil => rfl
  | cons c cs ih => simpa using ih (commit sys s c)

theorem run_snoc (s : σ) (cs : List κ) (c : κ) :
    run sys s (cs ++ [c]) = commit sys (run sys s cs) c := by
  rw [run_append]; rfl

variable {sys}

theorem commit_of_ok {s s' : σ} {c : κ} {r : ρ} (h : sys c s = .ok (r, s')) :
    commit sys s c = s' := by simp [commit, h]

/-- A committed call either returned, and its state is the new one, or changed nothing. -/
theorem commit_cases (sys : System κ σ τ ρ) (s : σ) (c : κ) :
    (∃ r, sys c s = .ok (r, commit sys s c)) ∨ (∃ t, sys c s = .error t) ∧ commit sys s c = s := by
  cases h : sys c s with
  | ok r => exact .inl ⟨r.1, by simp [commit, h]⟩
  | error t => exact .inr ⟨⟨t, rfl⟩, by simp [commit, h]⟩

/-- A property kept by every call that returns is kept by every committed call. -/
theorem commit_preserves {I : σ → Prop} {s : σ} {c : κ}
    (hstep : ∀ r s', sys c s = .ok (r, s') → I s') (h : I s) : I (commit sys s c) := by
  obtain ⟨r, hr⟩ | ⟨_, he⟩ := commit_cases sys s c
  · exact hstep r _ hr
  · rwa [he]

/-- Every call of the run meets `P` at the state it is made in. -/
def Along (sys : System κ σ τ ρ) (P : σ → κ → Prop) (s : σ) : List κ → Prop
  | [] => True
  | c :: cs => P s c ∧ Along sys P (commit sys s c) cs

instance decidableAlong (P : σ → κ → Prop) [∀ s c, Decidable (P s c)] :
    (s : σ) → (cs : List κ) → Decidable (Along sys P s cs)
  | _, [] => isTrue trivial
  | s, c :: cs =>
    have := decidableAlong P (commit sys s c) cs
    inferInstanceAs (Decidable (P s c ∧ Along sys P (commit sys s c) cs))

@[simp] theorem along_nil (P : σ → κ → Prop) (s : σ) : Along sys P s [] := trivial
@[simp] theorem along_cons (P : σ → κ → Prop) (s : σ) (c : κ) (cs : List κ) :
    Along sys P s (c :: cs) ↔ P s c ∧ Along sys P (commit sys s c) cs := Iff.rfl

theorem along_append {P : σ → κ → Prop} {s : σ} {cs ds : List κ} :
    Along sys P s (cs ++ ds) ↔ Along sys P s cs ∧ Along sys P (run sys s cs) ds := by
  induction cs generalizing s with
  | nil => simp
  | cons c cs ih => simp [ih, and_assoc]

theorem along_snoc {P : σ → κ → Prop} {s : σ} {cs : List κ} {c : κ} :
    Along sys P s (cs ++ [c]) ↔ Along sys P s cs ∧ P (run sys s cs) c := by
  rw [along_append]; simp

/-- `Along` says the same of every call at the state the calls before it lead to. -/
theorem along_iff_initial {P : σ → κ → Prop} {s : σ} {cs : List κ} :
    Along sys P s cs ↔ ∀ mid c, mid ++ [c] <+: cs → P (run sys s mid) c := by
  induction cs using List.reverseRecOn with
  | nil => simp
  | append_singleton cs c ih =>
    rw [along_snoc, ih]
    constructor
    · rintro ⟨hall, hlast⟩ mid d hp
      rcases List.prefix_concat_iff.mp hp with he | hp
      · obtain ⟨rfl, hd⟩ := List.append_inj' he rfl
        obtain rfl : d = c := by simpa using hd
        exact hlast
      · exact hall mid d hp
    · intro hall
      exact ⟨fun mid d hp => hall mid d (hp.trans (List.prefix_append cs [c])),
        hall cs c List.prefix_rfl⟩

/-- A condition on the call alone holds along a run when it holds of each call of it. -/
theorem along_forall {P : κ → Prop} {s : σ} {cs : List κ} :
    Along sys (fun _ c => P c) s cs ↔ ∀ c ∈ cs, P c := by
  induction cs generalizing s with
  | nil => simp
  | cons c cs ih => simp [ih]

theorem Along.and {P Q : σ → κ → Prop} {s : σ} {cs : List κ}
    (hp : Along sys P s cs) (hq : Along sys Q s cs) :
    Along sys (fun s c => P s c ∧ Q s c) s cs := by
  induction cs generalizing s with
  | nil => trivial
  | cons c cs ih => exact ⟨⟨hp.1, hq.1⟩, ih hp.2 hq.2⟩

theorem Along.imp {P Q : σ → κ → Prop} {s : σ} {cs : List κ}
    (hpq : ∀ s c, P s c → Q s c) (h : Along sys P s cs) : Along sys Q s cs := by
  rw [along_iff_initial] at h ⊢
  exact fun mid c hp => hpq _ _ (h mid c hp)

theorem Along.initial {P : σ → κ → Prop} {s : σ} {cs mid : List κ}
    (h : Along sys P s cs) (hp : mid <+: cs) : Along sys P s mid := by
  obtain ⟨rest, rfl⟩ := hp
  exact (along_append.mp h).1

/-- The invariant rule: what holds at the start and is kept by every call that
meets `P` holds after every run whose calls all meet `P`. -/
theorem run_invariant {I : σ → Prop} {P : σ → κ → Prop} {s : σ} {cs : List κ}
    (hstep : ∀ s c, I s → P s c → I (commit sys s c)) (hs : I s) (hP : Along sys P s cs) :
    I (run sys s cs) := by
  induction cs generalizing s with
  | nil => exact hs
  | cons c cs ih => exact ih (hstep s c hs hP.1) hP.2

/-- What every state of a run satisfies can be used at each of its calls. -/
theorem along_of_invariant {I : σ → Prop} {P Q : σ → κ → Prop} {s : σ} {cs : List κ}
    (hstep : ∀ s c, I s → P s c → I (commit sys s c)) (hs : I s) (hP : Along sys P s cs)
    (hQ : ∀ s c, I s → P s c → Q s c) : Along sys Q s cs := by
  induction cs generalizing s with
  | nil => trivial
  | cons c cs ih => exact ⟨hQ s c hs hP.1, ih (hstep s c hs hP.1) hP.2⟩

/-- Where the calls that meet `P` keep `J`, and no other call leads from `J` to `I`, which `J` is
part of, a run stays in `I` exactly if all of its calls meet `P`. -/
theorem along_iff_all {I J : σ → Prop} {P : σ → κ → Prop} {s : σ} {cs : List κ}
    (hkeep : ∀ s c, J s → P s c → J (commit sys s c))
    (hback : ∀ s c, J s → I (commit sys s c) → P s c) (hJI : ∀ s, J s → I s) (hJ : J s) :
    Along sys P s cs ↔ ∀ mid, mid <+: cs → I (run sys s mid) := by
  induction cs generalizing s with
  | nil =>
    refine ⟨fun _ mid hp => ?_, fun _ => trivial⟩
    rw [List.prefix_nil.mp hp]
    exact hJI s hJ
  | cons c cs ih =>
    constructor
    · rintro ⟨hc, hcs⟩ mid hp
      cases mid with
      | nil => exact hJI s hJ
      | cons d mid =>
        obtain ⟨rfl, htail⟩ := List.cons_prefix_cons.mp hp
        exact (ih (hkeep s d hJ hc)).mp hcs mid htail
    · intro hall
      have hc : P s c := hback s c hJ (hall [c] ⟨cs, rfl⟩)
      refine ⟨hc, (ih (hkeep s c hJ hc)).mpr fun mid hp => ?_⟩
      exact hall (c :: mid) (List.cons_prefix_cons.mpr ⟨rfl, hp⟩)

/-- Where a call that meets `P` is one that leads to `I` again, a run stays in `I` exactly if all
of its calls meet `P`. -/
theorem along_iff_stays {I J : σ → Prop} {P : σ → κ → Prop} {s : σ} {cs : List κ}
    (hkeep : ∀ s c, J s → J (commit sys s c))
    (hstep : ∀ s c, J s → I s → (P s c ↔ I (commit sys s c))) (hJ : J s) (hI : I s) :
    Along sys P s cs ↔ ∀ mid, mid <+: cs → I (run sys s mid) :=
  along_iff_all (J := fun s => J s ∧ I s)
    (fun s c h hc => ⟨hkeep s c h.1, (hstep s c h.1 h.2).mp hc⟩)
    (fun s c h hc => (hstep s c h.1 h.2).mpr hc) (fun _ h => h.2) ⟨hJ, hI⟩

/-- The invariant rule for runs without any condition on their calls. -/
theorem run_preserves {I : σ → Prop} {s : σ}
    (hstep : ∀ s c, I s → I (commit sys s c)) (hs : I s) (cs : List κ) : I (run sys s cs) := by
  induction cs generalizing s with
  | nil => exact hs
  | cons c cs ih => exact ih (hstep s c hs)

/-- The invariant rule for properties that also speak of the calls made so far. -/
theorem run_history {I : List κ → σ → Prop} {P : σ → κ → Prop} {s : σ}
    (hs : I [] s)
    (hstep : ∀ cs c, I cs (run sys s cs) → P (run sys s cs) c →
      I (cs ++ [c]) (commit sys (run sys s cs) c))
    (cs : List κ) (hP : Along sys P s cs) : I cs (run sys s cs) := by
  induction cs using List.reverseRecOn with
  | nil => exact hs
  | append_singleton cs c ih =>
    obtain ⟨hcs, hc⟩ := along_snoc.mp hP
    rw [run_snoc]
    exact hstep cs c (ih hcs) hc

/-- The sum over a run of what each call contributes at the state it is made in. -/
def total (sys : System κ σ τ ρ) (f : σ → κ → Int) (s : σ) : List κ → Int
  | [] => 0
  | c :: cs => f s c + total sys f (commit sys s c) cs

@[simp] theorem total_nil (f : σ → κ → Int) (s : σ) : total sys f s [] = 0 := rfl

theorem total_append (f : σ → κ → Int) (s : σ) (cs ds : List κ) :
    total sys f s (cs ++ ds) = total sys f s cs + total sys f (run sys s cs) ds := by
  induction cs generalizing s with
  | nil => simp
  | cons c cs ih => simp [total, ih, Int.add_assoc]

theorem total_snoc (f : σ → κ → Int) (s : σ) (cs : List κ) (c : κ) :
    total sys f s (cs ++ [c]) = total sys f s cs + f (run sys s cs) c := by
  rw [total_append]; simp [total]

theorem total_nonneg {f : σ → κ → Int} (hf : ∀ s c, 0 ≤ f s c) (s : σ) (cs : List κ) :
    0 ≤ total sys f s cs := by
  induction cs generalizing s with
  | nil => exact Int.le_refl 0
  | cons c cs ih => exact Int.add_nonneg (hf s c) (ih (commit sys s c))

/-- A call that puts a flag up. -/
def rise (sys : System κ σ τ ρ) (flag : σ → Bool) (s : σ) (c : κ) : Int :=
  if flag (commit sys s c) && !flag s then 1 else 0

/-- A flag that no call takes down goes up at most once in a run. -/
theorem total_rise_le_one {I : σ → Prop} {flag : σ → Bool}
    (hstep : ∀ s c, I s → I (commit sys s c))
    (hkeep : ∀ s c, I s → flag s = true → flag (commit sys s c) = true)
    {s : σ} (hs : I s) (cs : List κ) : total sys (rise sys flag) s cs ≤ 1 := by
  have hcount : ∀ s, I s → total sys (rise sys flag) s cs =
      (flag (run sys s cs)).toInt - (flag s).toInt := by
    induction cs with
    | nil => simp
    | cons c cs ih =>
      intro s hs
      rw [total, ih _ (hstep s c hs), run_cons]
      have hrise : rise sys flag s c = (flag (commit sys s c)).toInt - (flag s).toInt := by
        cases hf : flag s with
        | false => cases hc : flag (commit sys s c) <;> simp only [rise, hf, hc] <;> rfl
        | true =>
          rw [rise, hkeep s c hs hf, hf]
          rfl
      omega
  rw [hcount s hs]
  cases flag (run sys s cs) <;> cases flag s <;> decide

end Transaction

/-!
## Runs that are watched

A note is kept beside the state of a system. Each call that returns brings it up to date, from the
state before the call and the one after it, and no call reads it.
-/
namespace Transaction

universe u v w x y

variable {σ : Type u} {κ : Type v} {ρ : Type w} {τ : Type x} {α : Type y}

def watching (sys : System κ σ τ ρ) (note : σ → κ → σ → α → α) : System κ (σ × α) τ ρ :=
  fun c p => (sys c p.1).map fun r => (r.1, (r.2, note p.1 c r.2 p.2))

variable {sys : System κ σ τ ρ} {note : σ → κ → σ → α → α}

/-- A watched call has returned and is noted, or has changed nothing. -/
theorem commit_watching (sys : System κ σ τ ρ) (note : σ → κ → σ → α → α) (p : σ × α) (c : κ) :
    (commit (watching sys note) p c =
        (commit sys p.1 c, note p.1 c (commit sys p.1 c) p.2)) ∨
      commit sys p.1 c = p.1 ∧ commit (watching sys note) p c = p := by
  cases h : sys c p.1 with
  | ok r =>
    obtain ⟨returned, s⟩ := r
    refine .inl (commit_of_ok (r := returned) ?_)
    rw [commit_of_ok h, watching, h]
    rfl
  | error trap =>
    refine .inr ⟨by rw [commit, h], ?_⟩
    rw [commit, watching, h]
    rfl

theorem commit_watching_fst (p : σ × α) (c : κ) :
    (commit (watching sys note) p c).1 = commit sys p.1 c := by
  obtain h | ⟨hsame, h⟩ := commit_watching sys note p c
  · rw [h]
  · rw [h, hsame]

/-- What is noted changes nothing of a run. -/
theorem run_watching_fst (p : σ × α) (cs : List κ) :
    (run (watching sys note) p cs).1 = run sys p.1 cs := by
  induction cs generalizing p with
  | nil => rfl
  | cons c cs ih => rw [run_cons, ih, commit_watching_fst, run_cons]

theorem along_watching {P : σ → κ → Prop} {p : σ × α} {cs : List κ} :
    Along (watching sys note) (fun p c => P p.1 c) p cs ↔ Along sys P p.1 cs := by
  induction cs generalizing p with
  | nil => exact Iff.rfl
  | cons c cs ih => rw [along_cons, along_cons, ih, commit_watching_fst]

end Transaction

/-!
## Systems that answer alike

Two systems take the same calls. Where related states answer a call alike exactly under a
condition on the call, and are related after it, whole runs answer alike exactly if the condition
holds along them.
-/
namespace Transaction

universe u v w x y

variable {κ : Type u} {σ : Type v} {σ' : Type w} {τ : Type x} {ρ : Type y}

def answer (sys : System κ σ τ ρ) (s : σ) (c : κ) : Except τ ρ := (sys c s).map Prod.fst

def answers (sys : System κ σ τ ρ) (s : σ) : List κ → List (Except τ ρ)
  | [] => []
  | c :: cs => answer sys s c :: answers sys (commit sys s c) cs

theorem commit_of_error {sys : System κ σ τ ρ} {s : σ} {c : κ} {t : τ}
    (h : sys c s = .error t) : commit sys s c = s := by
  rw [commit, h]

variable {sys : System κ σ τ ρ} {sys' : System κ σ' τ ρ} {R : σ → σ' → Prop} {P : σ → κ → Prop}

/-- How related states take a call. -/
structure Alike (sys : System κ σ τ ρ) (sys' : System κ σ' τ ρ) (R : σ → σ' → Prop)
    (P : σ → κ → Prop) : Prop where
  answers : ∀ {s t c}, R s t → P s c → answer sys s c = answer sys' t c
  related : ∀ {s t c}, R s t → P s c → R (commit sys s c) (commit sys' t c)
  differ : ∀ {s t c}, R s t → answer sys s c = answer sys' t c → P s c

theorem Alike.run (h : Alike sys sys' R P) {s : σ} {t : σ'} (hr : R s t) {cs : List κ}
    (hp : Along sys P s cs) : R (run sys s cs) (run sys' t cs) := by
  induction cs generalizing s t with
  | nil => exact hr
  | cons c cs ih => exact ih (h.related hr hp.1) hp.2

theorem Alike.answers_iff (h : Alike sys sys' R P) {s : σ} {t : σ'} (hr : R s t) {cs : List κ} :
    Transaction.answers sys s cs = Transaction.answers sys' t cs ↔ Along sys P s cs := by
  induction cs generalizing s t with
  | nil => exact iff_of_true rfl trivial
  | cons c cs ih =>
    rw [Transaction.answers, Transaction.answers, List.cons.injEq, along_cons]
    constructor
    · rintro ⟨hanswer, hrest⟩
      have hc := h.differ hr hanswer
      exact ⟨hc, (ih (h.related hr hc)).mp hrest⟩
    · rintro ⟨hc, hrest⟩
      exact ⟨h.answers hr hc, (ih (h.related hr hc)).mpr hrest⟩

end Transaction

/-!
## What a run has seen

The past-time operators over a run of transactional calls: some call met a
condition at the state it was made in, and some call met it with no call after
it meeting another one. Both are decided by the last call of the run and by the
run before it.
-/
namespace PastTime

open Transaction

universe u v w x

variable {σ : Type u} {κ : Type v} {ρ : Type w} {τ : Type x} (sys : System κ σ τ ρ)

/-- Some call of the run met `P`, and no call after it met `R`. -/
def Since (P R : σ → κ → Prop) (s : σ) (cs : List κ) : Prop :=
  ∃ pre c post, cs = pre ++ c :: post ∧ P (run sys s pre) c ∧
    Along sys (fun s c => ¬ R s c) (commit sys (run sys s pre) c) post

/-- Some call of the run met `P`. -/
def Once (P : σ → κ → Prop) (s : σ) (cs : List κ) : Prop := Since sys P (fun _ _ => False) s cs

variable {sys} {P R : σ → κ → Prop} {s : σ} {cs : List κ} {c : κ}

theorem since_snoc :
    Since sys P R s (cs ++ [c]) ↔
      P (run sys s cs) c ∨ (Since sys P R s cs ∧ ¬ R (run sys s cs) c) := by
  constructor
  · rintro ⟨pre, d, post, hcs, hP, hpost⟩
    rcases List.eq_nil_or_concat post with rfl | ⟨mid, e, rfl⟩
    · obtain ⟨rfl, hd⟩ := List.append_inj' hcs rfl
      obtain rfl : c = d := by simpa using hd
      exact .inl hP
    · rw [List.concat_eq_append, ← List.cons_append, ← List.append_assoc] at hcs
      obtain ⟨rfl, he⟩ := List.append_inj' hcs rfl
      obtain rfl : c = e := by simpa using he
      rw [List.concat_eq_append, along_snoc] at hpost
      refine .inr ⟨⟨pre, d, mid, rfl, hP, hpost.1⟩, ?_⟩
      rw [run_append]
      exact hpost.2
  · rintro (hP | ⟨⟨pre, d, post, rfl, hP, hpost⟩, hR⟩)
    · exact ⟨cs, c, [], rfl, hP, trivial⟩
    · refine ⟨pre, d, post ++ [c], by simp, hP, along_snoc.mpr ⟨hpost, ?_⟩⟩
      rw [run_append] at hR
      exact hR

theorem once_snoc : Once sys P s (cs ++ [c]) ↔ Once sys P s cs ∨ P (run sys s cs) c := by
  rw [Once, since_snoc]
  simp [Once, or_comm]

end PastTime

/-!
## Lists of attempts that may fail one by one

Each attempt either changes the state or fails and leaves it as it is, and a
failure does not stop the attempts after it. What is left at the end and which
attempts failed are two functions of the state at the start.
-/
namespace Attempts

universe u v

variable {ι : Type u} {β : Type v}

def final (attempt : ι → β → Option β) : List ι → β → β
  | [], b => b
  | i :: rest, b => final attempt rest ((attempt i b).getD b)

def failed (attempt : ι → β → Option β) : List ι → β → List ι
  | [], _ => []
  | i :: rest, b =>
    match attempt i b with
    | some b' => failed attempt rest b'
    | none => i :: failed attempt rest b

variable {attempt : ι → β → Option β}

@[simp] theorem final_nil (b : β) : final attempt [] b = b := rfl
@[simp] theorem failed_nil (b : β) : failed attempt [] b = [] := rfl

theorem final_cons_some {i : ι} {rest : List ι} {b b' : β} (h : attempt i b = some b') :
    final attempt (i :: rest) b = final attempt rest b' := by
  rw [final, h, Option.getD_some]

theorem final_cons_none {i : ι} {rest : List ι} {b : β} (h : attempt i b = none) :
    final attempt (i :: rest) b = final attempt rest b := by
  rw [final, h, Option.getD_none]

theorem failed_cons_some {i : ι} {rest : List ι} {b b' : β} (h : attempt i b = some b') :
    failed attempt (i :: rest) b = failed attempt rest b' := by
  rw [failed, h]

theorem failed_cons_none {i : ι} {rest : List ι} {b : β} (h : attempt i b = none) :
    failed attempt (i :: rest) b = i :: failed attempt rest b := by
  rw [failed, h]

/-- The failed attempts are some of the attempts, in the same order. -/
theorem failed_sublist (attempt : ι → β → Option β) (l : List ι) (b : β) :
    (failed attempt l b).Sublist l := by
  induction l generalizing b with
  | nil => exact List.Sublist.refl []
  | cons i rest ih =>
    cases h : attempt i b with
    | some b' =>
      rw [failed_cons_some h]
      exact (ih b').cons i
    | none =>
      rw [failed_cons_none h]
      exact (ih b).cons_cons i

/-- Where no attempt goes through at the start, none does later. -/
theorem final_of_stuck {l : List ι} {b : β} (h : ∀ i ∈ l, attempt i b = none) :
    final attempt l b = b := by
  induction l with
  | nil => rfl
  | cons i rest ih =>
    rw [final_cons_none (h i List.mem_cons_self)]
    exact ih fun j hj => h j (List.mem_cons_of_mem i hj)

/-- All attempts fail exactly when each of them fails at the start. -/
theorem failed_eq_self_iff {l : List ι} {b : β} :
    failed attempt l b = l ↔ ∀ i ∈ l, attempt i b = none := by
  induction l with
  | nil => simp
  | cons i rest ih =>
    cases h : attempt i b with
    | some b' =>
      rw [failed_cons_some h]
      constructor
      · intro heq
        have hle := (failed_sublist attempt rest b').length_le
        rw [heq, List.length_cons] at hle
        omega
      · intro hall
        have hnone := hall i List.mem_cons_self
        rw [h] at hnone
        contradiction
    | none =>
      rw [failed_cons_none h, List.cons.injEq, ih]
      simp [h]

theorem failed_eq_self_of_subset {l : List ι} {b : β} (hl : l.Nodup)
    (h : l ⊆ failed attempt l b) : failed attempt l b = l := by
  have hle : l.length ≤ (failed attempt l b).length := (hl.subperm h).length_le
  exact (failed_sublist attempt l b).eq_of_length_le hle

/-- A measure that each attempt that goes through moves by its own amount ends where
all amounts less those of the failed attempts take it. -/
theorem measure_final (μ : β → Int) (amount : ι → Int)
    (hmoves : ∀ i b b', attempt i b = some b' → μ b' = μ b + amount i) (l : List ι) (b : β) :
    μ (final attempt l b) + ((failed attempt l b).map amount).sum = μ b + (l.map amount).sum := by
  induction l generalizing b with
  | nil => simp
  | cons i rest ih =>
    cases h : attempt i b with
    | some b' =>
      have hrest := ih b'
      rw [hmoves i b b' h] at hrest
      rw [final_cons_some h, failed_cons_some h, List.map_cons, List.sum_cons]
      omega
    | none =>
      have hrest := ih b
      rw [final_cons_none h, failed_cons_none h, List.map_cons, List.map_cons, List.sum_cons,
        List.sum_cons]
      omega

end Attempts
