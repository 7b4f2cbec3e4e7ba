import Mathlib.Data.List.Nodup
import Mathlib.Data.List.Perm.Subperm
import Mathlib.Logic.Relation
import Mathlib.Order.RelClasses

/-!
# Parents of parents

Each thing has one parent, or none. Going up from parent to parent ends wherever it starts, and it
still does after the parent of a thing is changed to one that is not below it.
-/
namespace Ancestry

universe u

variable {α : Type u}

/-- From `x`, going up leads to `y`. -/
abbrev Above (parent : α → Option α) : α → α → Prop :=
  Relation.ReflTransGen fun x y => parent x = some y

/-- Going up ends, wherever it starts. -/
def Rooted (parent : α → Option α) : Prop := ∀ x, Acc (fun y x => parent x = some y) x

/-- What is passed on the way up, if it ends in so many steps. -/
def lineage (parent : α → Option α) : Nat → α → Option (List α)
  | 0, _ => none
  | steps + 1, x =>
    match parent x with
    | none => some [x]
    | some y => (lineage parent steps y).map (x :: ·)

variable {parent : α → Option α} {x y : α} {steps : Nat} {passed : List α}

theorem Rooted.acyclic (h : Rooted parent) (x : α) :
    ¬ Relation.TransGen (fun x y => parent x = some y) x x := by
  intro hcycle
  have hwf : WellFounded (Relation.TransGen fun y x => parent x = some y) :=
    WellFounded.transGen ⟨h⟩
  have hback := Relation.transGen_swap.mpr hcycle
  exact hwf.asymmetric x x hback hback

/-- What does not lead to a thing goes up as before when that thing gets another parent. -/
theorem ends_update [DecidableEq α] {r z : α} {next : Option α} (hz : ¬ Above parent z r)
    (h : Acc (fun y x => parent x = some y) z) :
    Acc (fun y x => Function.update parent r next x = some y) z := by
  induction h with
  | intro z _ ih =>
    constructor
    intro y hy
    have hne : z ≠ r := fun he => hz (he ▸ .refl)
    rw [Function.update_of_ne hne] at hy
    exact ih y hy fun hreach => hz (.head hy hreach)

/-- A parent is changed to one that is not below. -/
theorem Rooted.update [DecidableEq α] {r : α} {next : Option α} (h : Rooted parent)
    (hnext : ∀ y ∈ next, ¬ Above parent y r) : Rooted (Function.update parent r next) := by
  have hr : Acc (fun y x => Function.update parent r next x = some y) r := by
    constructor
    intro y hy
    rw [Function.update_self] at hy
    exact ends_update (hnext y hy) (h y)
  intro z
  induction h z with
  | intro z _ ih =>
    by_cases he : z = r
    · rw [he]
      exact hr
    · constructor
      intro y hy
      rw [Function.update_of_ne he] at hy
      exact ih y hy

/-! ## The way up -/

theorem lineage_mem (h : lineage parent steps x = some passed) :
    y ∈ passed ↔ Above parent x y := by
  induction steps generalizing x passed with
  | zero => cases h
  | succ steps ih =>
    rw [lineage] at h
    cases hx : parent x with
    | none =>
      rw [hx] at h
      cases h
      rw [List.mem_singleton]
      constructor
      · rintro rfl
        exact .refl
      · intro hreach
        obtain he | ⟨z, hz, -⟩ := hreach.cases_head
        · exact he.symm
        · rw [hx] at hz
          cases hz
    | some z =>
      rw [hx] at h
      obtain ⟨rest, hrest, rfl⟩ := Option.map_eq_some_iff.mp h
      rw [List.mem_cons, ih hrest]
      constructor
      · rintro (rfl | hreach)
        · exact .refl
        · exact .head hx hreach
      · intro hreach
        obtain he | ⟨z', hz, hreach⟩ := hreach.cases_head
        · exact .inl he.symm
        · obtain rfl := Option.some.inj (hx.symm.trans hz)
          exact .inr hreach

/-- What has been passed is passed once, so that going up ends when all of them have been. -/
theorem lineage_ends_from (h : Rooted parent) {keys seen : List α}
    (hkeys : ∀ x y, parent x = some y → x ∈ keys) (hnodup : seen.Nodup) (hseen : seen ⊆ keys)
    (hbelow : ∀ z ∈ seen, Relation.TransGen (fun x y => parent x = some y) z x)
    (hsteps : keys.length + 1 ≤ steps + seen.length) :
    ∃ passed, lineage parent steps x = some passed := by
  induction steps generalizing x seen with
  | zero =>
    have hle := (List.subperm_of_subset hnodup hseen).length_le
    omega
  | succ steps ih =>
    rw [lineage]
    cases hx : parent x with
    | none => exact ⟨[x], rfl⟩
    | some y =>
      have hnew : x ∉ seen := fun hmem => h.acyclic x (hbelow x hmem)
      obtain ⟨rest, hrest⟩ := ih (x := y) (List.nodup_cons.mpr ⟨hnew, hnodup⟩)
        (List.cons_subset.mpr ⟨hkeys x y hx, hseen⟩)
        (by
          intro z hz
          obtain rfl | hz := List.mem_cons.mp hz
          · exact .single hx
          · exact .tail (hbelow z hz) hx)
        (by
          rw [List.length_cons]
          omega)
      refine ⟨x :: rest, ?_⟩
      dsimp only
      rw [hrest]
      rfl

theorem lineage_ends (h : Rooted parent) {keys : List α}
    (hkeys : ∀ x y, parent x = some y → x ∈ keys) (x : α) :
    ∃ passed, lineage parent (keys.length + 1) x = some passed :=
  lineage_ends_from h hkeys List.nodup_nil (List.nil_subset keys)
    (fun _ hz => absurd hz List.not_mem_nil) (Nat.le_refl _)

end Ancestry
