import Mathlib.Algebra.BigOperators.Group.List.Basic
import Mathlib.Algebra.Order.BigOperators.Group.List
import Mathlib.Algebra.Order.Floor.Ring
import Mathlib.Data.List.Forall2
import Mathlib.Data.List.Sort
import Mathlib.Tactic.Linarith
import Mathlib.Tactic.Ring

/-!
# Rounding to whole parts by largest remainders

Values that add up to a whole number are rounded down, and what is missing is handed out in units,
first to the values that have lost most.
-/
namespace LargestRemainder

/-- A value by its place and by what it has lost. -/
structure Entry (K : Type*) where
  index : Nat
  remainder : K

variable {K : Type*} {es : List (Entry K)} {minors : List Int} {remaining : Int} {exact : List K}

/-- One unit for each entry, as long as units remain. -/
def handOut : Int → List (Entry K) → List Int → List Int
  | _, [], minors => minors
  | remaining, entry :: rest, minors =>
    if remaining ≤ 0 then minors
    else handOut (remaining - 1) rest (minors.modify entry.index (· + 1))

theorem length_handOut : (handOut remaining es minors).length = minors.length := by
  induction es generalizing remaining minors with
  | nil => rfl
  | cons entry rest ih =>
    rw [handOut]
    split_ifs
    · rfl
    · rw [ih, List.length_modify]

theorem sum_modify {i : Nat} (hi : i < minors.length) :
    (minors.modify i (· + 1)).sum = minors.sum + 1 := by
  induction minors generalizing i with
  | nil => cases hi
  | cons minor rest ih =>
    cases i with
    | zero =>
      rw [List.modify_zero_cons, List.sum_cons, List.sum_cons]
      omega
    | succ i =>
      rw [List.modify_succ_cons, List.sum_cons, List.sum_cons, ih (Nat.lt_of_succ_lt_succ hi)]
      omega

/-! ## The order -/

section Order

variable [LinearOrder K]

/-- The largest remainder first, and of equal ones the one that is first in place. -/
def Before (a b : Entry K) : Prop :=
  b.remainder < a.remainder ∨ a.remainder = b.remainder ∧ a.index ≤ b.index

instance : DecidableRel (Before (K := K)) := fun _ _ => inferInstanceAs (Decidable (_ ∨ _))

theorem before_total (a b : Entry K) : Before a b ∨ Before b a := by
  rcases lt_trichotomy a.remainder b.remainder with hlt | heq | hgt
  · exact .inr (.inl hlt)
  · rcases le_total a.index b.index with hle | hle
    · exact .inl (.inr ⟨heq, hle⟩)
    · exact .inr (.inr ⟨heq.symm, hle⟩)
  · exact .inl (.inl hgt)

theorem before_trans {a b c : Entry K} (hab : Before a b) (hbc : Before b c) : Before a c := by
  rcases hab with hab | ⟨hab, hi⟩
  · rcases hbc with hbc | ⟨hbc, _⟩
    · exact .inl (hbc.trans hab)
    · exact .inl (hbc ▸ hab)
  · rcases hbc with hbc | ⟨hbc, hj⟩
    · exact .inl (hab ▸ hbc)
    · exact .inr ⟨hab.trans hbc, hi.trans hj⟩

theorem sorted_pairwise (es : List (Entry K)) :
    (es.insertionSort Before).Pairwise fun a b => b.remainder ≤ a.remainder := by
  have : Std.Total (Before (K := K)) := ⟨before_total⟩
  have : IsTrans (Entry K) Before := ⟨fun _ _ _ => before_trans⟩
  refine (List.pairwise_insertionSort Before es).imp ?_
  rintro a b (hlt | ⟨heq, _⟩)
  · exact hlt.le
  · exact heq.ge

end Order

/-! ## The entries -/

variable [Field K] [LinearOrder K] [FloorRing K]

def entries (exact : List K) : List (Entry K) :=
  exact.mapIdx fun index value => ⟨index, value - ⌊value⌋⟩

def byRemainder (exact : List K) : List (Entry K) := (entries exact).insertionSort Before

def floors (exact : List K) : List Int := exact.map fun value => ⌊value⌋

theorem entries_index (exact : List K) :
    (entries exact).map (·.index) = List.range exact.length := by
  rw [entries]
  apply List.ext_getElem
  · simp
  · intro i _ _
    simp

theorem mem_entries {entry : Entry K} (h : entry ∈ entries exact) :
    ∃ value, exact[entry.index]? = some value ∧ entry.remainder = value - ⌊value⌋ := by
  obtain ⟨i, hi, rfl⟩ := List.mem_mapIdx.mp h
  exact ⟨exact[i], List.getElem?_eq_getElem hi, rfl⟩

theorem sum_remainder (exact : List K) :
    ((entries exact).map (·.remainder)).sum = exact.sum - ((floors exact).sum : Int) := by
  have hmap : (entries exact).map (·.remainder) =
      exact.map fun value => value - ((⌊value⌋ : Int) : K) := by
    rw [entries]
    apply List.ext_getElem
    · simp
    · intro i _ _
      simp
  rw [hmap]
  clear hmap
  induction exact with
  | nil => simp [floors]
  | cons value rest ih =>
    simp only [floors, List.map_cons, List.sum_cons] at ih ⊢
    rw [ih]
    push_cast
    ring

/-! ## Handing out -/

variable [IsStrictOrderedRing K]

/-- In the order of the remainders, as long as units remain every entry has lost something, and
there are entries enough for all units. -/
theorem handOut_cases (hrem : ∀ e ∈ es, 0 ≤ e.remainder ∧ e.remainder < 1)
    (hsorted : es.Pairwise fun a b => b.remainder ≤ a.remainder)
    (hindex : ∀ e ∈ es, e.index < minors.length) (hnodup : (es.map (·.index)).Nodup)
    (hpos : 0 ≤ remaining) (hsum : (remaining : K) ≤ (es.map (·.remainder)).sum) :
    (handOut remaining es minors).sum = minors.sum + remaining ∧
      ∀ i, (handOut remaining es minors)[i]? = minors[i]? ∨
        (handOut remaining es minors)[i]? = minors[i]?.map (· + 1) ∧
          ∃ e ∈ es, e.index = i ∧ 0 < e.remainder := by
  induction es generalizing remaining minors with
  | nil =>
    have hzero : remaining = 0 := by
      have hle : (remaining : K) ≤ (0 : Int) := by simpa using hsum
      exact le_antisymm (Int.cast_le.mp hle) hpos
    exact ⟨by rw [handOut, hzero, add_zero], fun i => .inl rfl⟩
  | cons entry rest ih =>
    rw [handOut]
    split_ifs with hdone
    · exact ⟨by omega, fun i => .inl rfl⟩
    · obtain ⟨⟨hlow, hhigh⟩, hrest⟩ := List.forall_mem_cons.mp hrem
      obtain ⟨hfirst, hsorted⟩ := List.pairwise_cons.mp hsorted
      obtain ⟨hinside, hindex⟩ := List.forall_mem_cons.mp hindex
      rw [List.map_cons, List.nodup_cons] at hnodup
      rw [List.map_cons, List.sum_cons] at hsum
      have hone : (1 : K) ≤ remaining := by exact_mod_cast (by omega : 1 ≤ remaining)
      have hentry : 0 < entry.remainder := by
        by_contra hnot
        have hall : ∀ r ∈ rest.map (·.remainder), r = 0 := by
          intro r hr
          obtain ⟨e, he, rfl⟩ := List.mem_map.mp hr
          exact le_antisymm ((hfirst e he).trans (not_lt.mp hnot)) (hrest e he).1
        rw [List.sum_eq_zero hall] at hsum
        linarith
      obtain ⟨htotal, hplaces⟩ := ih hrest hsorted
        (fun e he => (hindex e he).trans_eq (List.length_modify _ _ _).symm) hnodup.2
        (by omega : 0 ≤ remaining - 1) (by push_cast; linarith)
      refine ⟨by rw [htotal, sum_modify hinside]; omega, ?_⟩
      intro i
      by_cases hi : entry.index = i
      · subst hi
        right
        refine ⟨?_, entry, List.mem_cons_self, rfl, hentry⟩
        obtain hsame | ⟨_, e, he, heq, _⟩ := hplaces entry.index
        · rw [hsame, List.getElem?_modify_eq]
          rfl
        · exact absurd (List.mem_map.mpr ⟨e, he, heq⟩) hnodup.1
      · have hother : (minors.modify entry.index (· + 1))[i]? = minors[i]? :=
          List.getElem?_modify_ne _ _ hi
        obtain hsame | ⟨hmore, e, he, heq, hlost⟩ := hplaces i
        · exact .inl (hsame.trans hother)
        · exact .inr ⟨hother ▸ hmore, e, List.mem_cons_of_mem _ he, heq, hlost⟩

/-- The parts add up to the whole, and each is its value rounded down or up. -/
theorem handOut_spec {whole : Int} (h : exact.sum = whole) :
    (handOut (whole - (floors exact).sum) (byRemainder exact) (floors exact)).sum = whole ∧
      List.Forall₂ (fun value part => part = ⌊value⌋ ∨ part = ⌈value⌉) exact
        (handOut (whole - (floors exact).sum) (byRemainder exact) (floors exact)) := by
  have hperm : (byRemainder exact).Perm (entries exact) := List.perm_insertionSort _ _
  have hrem : ∀ e ∈ entries exact, 0 ≤ e.remainder ∧ e.remainder < 1 := by
    intro e he
    obtain ⟨value, _, hvalue⟩ := mem_entries he
    rw [hvalue]
    exact ⟨Int.fract_nonneg value, Int.fract_lt_one value⟩
  have hmissing : ((byRemainder exact).map (·.remainder)).sum =
      ((whole - (floors exact).sum : Int) : K) := by
    rw [(hperm.map _).sum_eq, sum_remainder, h, Int.cast_sub]
  have hpos : 0 ≤ whole - (floors exact).sum := by
    have hle : (0 : K) ≤ ((whole - (floors exact).sum : Int) : K) := by
      rw [← hmissing]
      refine List.sum_nonneg fun r hr => ?_
      obtain ⟨e, he, rfl⟩ := List.mem_map.mp hr
      exact (hrem e (hperm.mem_iff.mp he)).1
    exact_mod_cast hle
  have hindex : ∀ e ∈ byRemainder exact, e.index < (floors exact).length := by
    intro e he
    obtain ⟨value, hvalue, _⟩ := mem_entries (hperm.mem_iff.mp he)
    rw [floors, List.length_map]
    exact (List.getElem?_eq_some_iff.mp hvalue).1
  have hnodup : ((byRemainder exact).map (·.index)).Nodup := by
    rw [(hperm.map _).nodup_iff, entries_index]
    exact List.nodup_range
  obtain ⟨hsum, hplaces⟩ := handOut_cases (fun e he => hrem e (hperm.mem_iff.mp he))
    (sorted_pairwise _) hindex hnodup hpos hmissing.ge
  refine ⟨by rw [hsum]; omega, ?_⟩
  rw [List.forall₂_iff_get]
  refine ⟨by rw [length_handOut, floors, List.length_map], ?_⟩
  intro i hi hi'
  have hfloor : (floors exact)[i]? = some ⌊exact.get ⟨i, hi⟩⌋ := by
    rw [floors, List.getElem?_map, List.getElem?_eq_getElem hi]
    rfl
  have hpart := List.getElem?_eq_getElem hi'
  obtain hsame | ⟨hunit, e, he, rfl, hlost⟩ := hplaces i
  · rw [hsame, hfloor, Option.some_inj] at hpart
    exact .inl hpart.symm
  · right
    rw [hunit, hfloor, Option.map_some, Option.some_inj] at hpart
    obtain ⟨value, hvalue, hremainder⟩ := mem_entries (hperm.mem_iff.mp he)
    rw [List.getElem?_eq_getElem hi, Option.some_inj] at hvalue
    rw [hremainder, ← hvalue] at hlost
    have hmore : (⌊exact.get ⟨e.index, hi⟩⌋ : K) < exact.get ⟨e.index, hi⟩ := sub_pos.mp hlost
    have hceil : ⌈exact.get ⟨e.index, hi⟩⌉ = ⌊exact.get ⟨e.index, hi⟩⌋ + 1 := by
      rw [Int.ceil_eq_iff]
      push_cast
      exact ⟨by rwa [add_sub_cancel_right], (Int.lt_floor_add_one _).le⟩
    exact hpart.symm.trans hceil.symm

end LargestRemainder
