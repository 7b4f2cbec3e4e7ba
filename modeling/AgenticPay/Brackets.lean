import Mathlib.Algebra.Order.BigOperators.Group.List
import Mathlib.Algebra.Order.Ring.Defs
import Mathlib.Tactic.Linarith
import Mathlib.Tactic.Ring

/-!
# Brackets of a tariff

Brackets that follow one another from a start on, the last of them without an end. What lies in a
bracket is charged at its rate, and its fee is charged once when anything lies in it.
-/
namespace Brackets

structure Bracket (K : Type*) where
  lower : K
  upper : Option K
  rate : K
  fee : K

variable {K : Type*} {start lo lo' hi hi' x u : K} {b c : Bracket K} {bs rest : List (Bracket K)}

section Order

variable [LinearOrder K]

def Bracket.Contains (b : Bracket K) (x : K) : Prop := b.lower < x ∧ ∀ u ∈ b.upper, x ≤ u

/-- Each bracket begins where the one before it ends, and the last one has no end. -/
def Covers (start : K) : List (Bracket K) → Prop
  | [] => False
  | b :: rest => b.lower = start ∧ b.upper.elim (rest = []) fun u => start ≤ u ∧ Covers u rest

namespace Covers

theorem lower_le (h : Covers start bs) (hb : b ∈ bs) : start ≤ b.lower := by
  induction bs generalizing start with
  | nil => cases hb
  | cons c rest ih =>
    obtain ⟨hlower, hupper⟩ := h
    cases hb with
    | head => exact hlower.ge
    | tail _ hb =>
      cases hu : c.upper with
      | none =>
        rw [hu] at hupper
        rw [show rest = [] from hupper] at hb
        cases hb
      | some u =>
        rw [hu] at hupper
        exact hupper.1.trans (ih hupper.2 hb)

/-- What lies beyond the start lies in a bracket. -/
theorem exists_contains (h : Covers start bs) (hx : start < x) : ∃ b ∈ bs, b.Contains x := by
  induction bs generalizing start with
  | nil => exact h.elim
  | cons c rest ih =>
    obtain ⟨hlower, hupper⟩ := h
    cases hu : c.upper with
    | none =>
      refine ⟨c, List.mem_cons_self, hlower.trans_lt hx, ?_⟩
      intro u hmem
      rw [hu] at hmem
      cases hmem
    | some u =>
      rw [hu] at hupper
      rcases le_or_gt x u with hle | hgt
      · refine ⟨c, List.mem_cons_self, hlower.trans_lt hx, ?_⟩
        intro v hmem
        rw [hu] at hmem
        cases hmem
        exact hle
      · obtain ⟨b, hb, hcontains⟩ := ih hupper.2 hgt
        exact ⟨b, List.mem_cons_of_mem _ hb, hcontains⟩

/-- A bracket that contains `x` is the first one that ends not before `x`. -/
theorem contains_tail (h : Covers start (c :: rest)) (hb : b ∈ rest) (hcontains : b.Contains x) :
    ∃ u ∈ c.upper, u < x := by
  obtain ⟨_, hupper⟩ := h
  cases hu : c.upper with
  | none =>
    rw [hu] at hupper
    rw [show rest = [] from hupper] at hb
    cases hb
  | some u =>
    rw [hu] at hupper
    exact ⟨u, rfl, (hupper.2.lower_le hb).trans_lt hcontains.1⟩

theorem tail (h : Covers start (c :: rest)) (hrest : rest ≠ []) :
    ∃ u, c.upper = some u ∧ Covers u rest := by
  obtain ⟨_, hupper⟩ := h
  cases hu : c.upper with
  | none =>
    rw [hu] at hupper
    exact absurd hupper hrest
  | some u =>
    rw [hu] at hupper
    exact ⟨u, rfl, hupper.2⟩

/-- No two brackets contain the same. -/
theorem unique (h : Covers start bs) (hb : b ∈ bs) (hc : c ∈ bs) (hbx : b.Contains x)
    (hcx : c.Contains x) : b = c := by
  induction bs generalizing start with
  | nil => cases hb
  | cons a rest ih =>
    cases hb with
    | head =>
      cases hc with
      | head => rfl
      | tail _ hc =>
        obtain ⟨u, hu, hless⟩ := h.contains_tail hc hcx
        exact absurd (hbx.2 u hu) (not_le.mpr hless)
    | tail _ hb =>
      cases hc with
      | head =>
        obtain ⟨u, hu, hless⟩ := h.contains_tail hb hbx
        exact absurd (hcx.2 u hu) (not_le.mpr hless)
      | tail _ hc =>
        obtain ⟨u, _, hrest⟩ := h.tail (List.ne_nil_of_mem hb)
        exact ih hrest hb hc

theorem exists_unique (h : Covers start bs) (hx : start < x) : ∃! b, b ∈ bs ∧ b.Contains x := by
  obtain ⟨b, hb, hcontains⟩ := h.exists_contains hx
  exact ⟨b, ⟨hb, hcontains⟩, fun c ⟨hc, hcx⟩ => h.unique hc hb hcx hcontains⟩

end Covers

end Order

variable [CommRing K] [LinearOrder K]

/-- How much of the range from `lo` to `hi` lies in the bracket. -/
def Bracket.part (lo hi : K) (b : Bracket K) : K :=
  max 0 (b.upper.elim hi (min hi) - max lo b.lower)

def Bracket.charge (lo hi : K) (b : Bracket K) : K :=
  b.part lo hi * b.rate + if 0 < b.part lo hi then b.fee else 0

def charge (lo hi : K) (bs : List (Bracket K)) : K := (bs.map (·.charge lo hi)).sum

@[simp] theorem charge_cons (lo hi : K) (b : Bracket K) (rest : List (Bracket K)) :
    charge lo hi (b :: rest) = b.charge lo hi + charge lo hi rest := by
  rw [charge, charge, List.map_cons, List.sum_cons]

/-! ## One bracket -/

theorem Bracket.part_nonneg : 0 ≤ b.part lo hi := le_max_left _ _

/-- Below the bracket it makes no difference where the range begins. -/
theorem Bracket.part_from (hlo : lo ≤ b.lower) (hlo' : lo' ≤ b.lower) :
    b.part lo hi = b.part lo' hi := by
  rw [Bracket.part, Bracket.part, max_eq_right hlo, max_eq_right hlo']

theorem Bracket.charge_of_part (h : b.part lo hi = 0) : b.charge lo hi = 0 := by
  rw [Bracket.charge, h, zero_mul, if_neg (lt_irrefl 0), add_zero]

variable [IsStrictOrderedRing K]

theorem Bracket.part_below (h : hi ≤ max lo b.lower) : b.part lo hi = 0 := by
  have htop : b.upper.elim hi (min hi) ≤ hi := by
    cases b.upper with
    | none => exact le_refl hi
    | some u => exact min_le_left hi u
  rw [Bracket.part]
  exact max_eq_left (by linarith)

theorem Bracket.part_beyond (hu : b.upper = some u) (h : u ≤ lo) : b.part lo hi = 0 := by
  have htop : min hi u ≤ u := min_le_right hi u
  have hlower : lo ≤ max lo b.lower := le_max_left _ _
  rw [Bracket.part, hu]
  exact max_eq_left (by simp only [Option.elim]; linarith)

theorem Bracket.part_mono (h : hi ≤ hi') : b.part lo hi ≤ b.part lo hi' := by
  have htop : b.upper.elim hi (min hi) ≤ b.upper.elim hi' (min hi') := by
    cases b.upper with
    | none => exact h
    | some u => exact min_le_min_right u h
  exact max_le_max_left 0 (sub_le_sub_right htop _)

theorem Bracket.charge_nonneg (hrate : 0 ≤ b.rate) (hfee : 0 ≤ b.fee) : 0 ≤ b.charge lo hi := by
  have hpart : 0 ≤ b.part lo hi := b.part_nonneg
  have hrated := mul_nonneg hpart hrate
  rw [Bracket.charge]
  split_ifs
  · linarith
  · linarith

theorem Bracket.charge_mono (hrate : 0 ≤ b.rate) (hfee : 0 ≤ b.fee) (h : hi ≤ hi') :
    b.charge lo hi ≤ b.charge lo hi' := by
  have hpart : b.part lo hi ≤ b.part lo hi' := b.part_mono h
  have hrated := mul_le_mul_of_nonneg_right hpart hrate
  rw [Bracket.charge, Bracket.charge]
  split_ifs with hentered hentered'
  · linarith
  · exact absurd (lt_of_lt_of_le hentered hpart) hentered'
  · linarith
  · linarith

/-! ## All brackets -/

/-- The parts are all of the range. -/
theorem Covers.sum_part (h : Covers start bs) (hlo : start ≤ lo) (hhi : lo ≤ hi) :
    (bs.map (·.part lo hi)).sum = hi - lo := by
  induction bs generalizing start lo with
  | nil => exact h.elim
  | cons c rest ih =>
    obtain ⟨hlower, hupper⟩ := h
    rw [List.map_cons, List.sum_cons]
    cases hu : c.upper with
    | none =>
      rw [hu] at hupper
      rw [show rest = [] from hupper, List.map_nil, List.sum_nil, add_zero, Bracket.part, hu,
        hlower, max_eq_left hlo]
      exact max_eq_right (sub_nonneg.mpr hhi)
    | some u =>
      rw [hu] at hupper
      obtain ⟨_, hrest⟩ := hupper
      rcases le_or_gt u lo with hpast | hwithin
      · rw [Bracket.part_beyond hu hpast, zero_add]
        exact ih hrest hpast hhi
      · have hpart : c.part lo hi = min hi u - lo := by
          rw [Bracket.part, hu, hlower, max_eq_left hlo]
          exact max_eq_right (sub_nonneg.mpr (le_min hhi hwithin.le))
        rw [hpart]
        rcases le_or_gt hi u with hends | hgoes
        · have hzero : (rest.map (·.part lo hi)).sum = 0 := by
            refine List.sum_eq_zero ?_
            intro part hpart
            obtain ⟨d, hd, rfl⟩ := List.mem_map.mp hpart
            exact Bracket.part_below ((hends.trans (hrest.lower_le hd)).trans (le_max_right _ _))
          rw [hzero, min_eq_left hends, add_zero]
        · have hsame : rest.map (·.part lo hi) = rest.map (·.part u hi) :=
            List.map_congr_left fun b hb =>
              Bracket.part_from (hwithin.le.trans (hrest.lower_le hb)) (hrest.lower_le hb)
          rw [hsame, ih hrest (le_refl u) hgoes.le, min_eq_right hgoes.le]
          ring

/-- Brackets that the range does not come to charge nothing. -/
theorem charge_below (h : ∀ b ∈ bs, hi ≤ max lo b.lower) : charge lo hi bs = 0 := by
  refine List.sum_eq_zero ?_
  intro amount hamount
  obtain ⟨b, hb, rfl⟩ := List.mem_map.mp hamount
  exact Bracket.charge_of_part (Bracket.part_below (h b hb))

theorem charge_nothing : charge lo lo bs = 0 := charge_below fun _ _ => le_max_left _ _

theorem charge_nonneg (hbs : ∀ b ∈ bs, 0 ≤ b.rate ∧ 0 ≤ b.fee) : 0 ≤ charge lo hi bs := by
  refine List.sum_nonneg ?_
  intro amount hamount
  obtain ⟨b, hb, rfl⟩ := List.mem_map.mp hamount
  exact Bracket.charge_nonneg (hbs b hb).1 (hbs b hb).2

theorem charge_mono (hbs : ∀ b ∈ bs, 0 ≤ b.rate ∧ 0 ≤ b.fee) (h : hi ≤ hi') :
    charge lo hi bs ≤ charge lo hi' bs :=
  List.sum_le_sum fun b hb => Bracket.charge_mono (hbs b hb).1 (hbs b hb).2 h

/-! ## Walking through the brackets -/

/-- In the last bracket. -/
theorem charge_last (hlower : b.lower ≤ lo) (hu : b.upper = none) (h : lo < hi) :
    charge lo hi [b] = (hi - lo) * b.rate + b.fee := by
  have hpart : b.part lo hi = hi - lo := by
    rw [Bracket.part, hu, max_eq_left hlower]
    exact max_eq_right (sub_nonneg.mpr h.le)
  rw [charge_cons, Bracket.charge, hpart, if_pos (sub_pos.mpr h), charge, List.map_nil,
    List.sum_nil, add_zero]

/-- A bracket that the range begins behind is passed over. -/
theorem charge_past (hu : b.upper = some u) (h : u ≤ lo) :
    charge lo hi (b :: rest) = charge lo hi rest := by
  rw [charge_cons, Bracket.charge_of_part (Bracket.part_beyond hu h), zero_add]

/-- What lies in the first bracket is charged, and the rest is left for the others. -/
theorem charge_within {span : K} (hrest : Covers u rest) (hlower : b.lower ≤ lo)
    (hu : b.upper = some u) (hwithin : lo < u) (h : lo < hi)
    (hspan : span = min (hi - lo) (u - lo)) :
    charge lo hi (b :: rest) = span * b.rate + b.fee + charge (lo + span) hi rest := by
  have hpart : b.part lo hi = span := by
    have hshift : min hi u - lo = span := by
      rw [hspan]
      rcases le_total hi u with hle | hle
      · rw [min_eq_left hle, min_eq_left (sub_le_sub_right hle lo)]
      · rw [min_eq_right hle, min_eq_right (sub_le_sub_right hle lo)]
    rw [Bracket.part, hu, max_eq_left hlower, ← hshift]
    exact max_eq_right (sub_nonneg.mpr (le_min h.le hwithin.le))
  have hpos : 0 < span := by
    rw [hspan]
    exact lt_min (sub_pos.mpr h) (sub_pos.mpr hwithin)
  rw [charge_cons, Bracket.charge, hpart, if_pos hpos]
  congr 1
  rcases le_or_gt hi u with hends | hgoes
  · have hall : span = hi - lo := hspan.trans (min_eq_left (sub_le_sub_right hends lo))
    rw [hall, add_sub_cancel, charge_nothing]
    exact charge_below fun c hc => (hends.trans (hrest.lower_le hc)).trans (le_max_right _ _)
  · have hupto : span = u - lo := hspan.trans (min_eq_right (sub_le_sub_right hgoes.le lo))
    rw [hupto, add_sub_cancel, charge, charge]
    refine congrArg List.sum (List.map_congr_left fun c hc => ?_)
    have hsame : c.part lo hi = c.part u hi :=
      Bracket.part_from (hwithin.le.trans (hrest.lower_le hc)) (hrest.lower_le hc)
    rw [Bracket.charge, Bracket.charge, hsame]

end Brackets
