import Mathlib.Data.List.Basic
import Mathlib.Data.List.Induction
import Mathlib.Data.List.Nodup
import Mathlib.Logic.Function.Basic

/-!
# Arrays of keys with a position index

Each key of an array has its position, counted from one, in an index, and the
index of a key that is not in the array is zero. A key is removed by putting the
last one in its place and dropping the end of the array.
-/
namespace IndexedArray

universe u v

variable {α : Type u} {β : Type v}

/-- The array without its `i`th entry, whose place the last one has taken. -/
def swapPop (l : List α) (i : Nat) : List α :=
  match l.getLast? with
  | some last => (l.set i last).dropLast
  | none => []

theorem swapPop_last (l : List α) (a : α) : swapPop (l ++ [a]) l.length = l := by
  simp [swapPop, List.set_append_right]

theorem swapPop_inner (p q : List α) (a last : α) :
    swapPop (p ++ a :: q ++ [last]) p.length = p ++ last :: q := by
  have hlast : (p ++ a :: q ++ [last]).getLast? = some last := List.getLast?_concat
  have hset : (p ++ a :: q ++ [last]).set p.length last = p ++ last :: q ++ [last] := by
    simp [List.set_append_right]
  rw [swapPop, hlast]
  simp only [hset, List.dropLast_concat]

theorem getElem?_swapPop {l : List α} {i : Nat} {last : α} (hi : i < l.length)
    (hlast : l.getLast? = some last) (j : Nat) :
    (swapPop l i)[j]? =
      if j < l.length - 1 then if i = j then some last else l[j]? else none := by
  rw [swapPop, hlast]
  simp only [List.getElem?_dropLast, List.length_set, List.getElem?_set, if_pos hi]

theorem split_of_getElem? {l : List α} {i : Nat} {a : α} (h : l[i]? = some a) :
    ∃ p q, l = p ++ a :: q ∧ p.length = i := by
  obtain ⟨hi, ha⟩ := List.getElem?_eq_some_iff.mp h
  refine ⟨l.take i, l.drop (i + 1), ?_, List.length_take_of_le (Nat.le_of_lt hi)⟩
  rw [← ha, ← List.drop_eq_getElem_cons hi, List.take_append_drop]

/-- An entry is the last one, or it splits the array before the last one. -/
theorem split_at {l : List α} {i : Nat} {a : α} (h : l[i]? = some a) :
    (∃ p, l = p ++ [a] ∧ p.length = i) ∨
      ∃ p q last, l = p ++ a :: q ++ [last] ∧ p.length = i := by
  obtain ⟨p, q, hsplit, hlen⟩ := split_of_getElem? h
  cases q using List.reverseRecOn with
  | nil => exact .inl ⟨p, hsplit, hlen⟩
  | append_singleton q last =>
    refine .inr ⟨p, q, last, ?_, hlen⟩
    rw [List.append_assoc, List.cons_append]
    exact hsplit

/-- Removing an entry removes just this entry. -/
theorem perm_swapPop {l : List α} {i : Nat} {a : α} (h : l[i]? = some a) :
    l.Perm (a :: swapPop l i) := by
  obtain ⟨p, rfl, rfl⟩ | ⟨p, q, last, rfl, rfl⟩ := split_at h
  · rw [swapPop_last]
    exact List.perm_append_comm
  · rw [swapPop_inner, List.append_assoc]
    have hlast : (q ++ [last]).Perm ([last] ++ q) := List.perm_append_comm
    have hback : (a :: q ++ [last]).Perm (a :: last :: q) := hlast.cons a
    exact (hback.append_left p).trans List.perm_middle

theorem map_swapPop (f : α → β) (l : List α) (i : Nat) :
    (swapPop l i).map f = swapPop (l.map f) i := by
  rw [swapPop, swapPop, List.getLast?_map]
  cases l.getLast? with
  | none => rfl
  | some last => simp [List.map_set, List.map_dropLast]

/-- An entry is modified between what stands before and after it. -/
theorem modify_split {l : List α} {i : Nat} {a : α} (f : α → α) (h : l[i]? = some a) :
    ∃ p q, l = p ++ a :: q ∧ l.modify i f = p ++ f a :: q := by
  obtain ⟨p, q, rfl, rfl⟩ := split_of_getElem? h
  refine ⟨p, q, rfl, ?_⟩
  rw [List.modify_eq_take_cons_drop (by simp)]
  simp

/-- What a modification keeps of each entry it keeps of the array. -/
theorem map_modify {f : α → α} {g : α → β} (h : ∀ a, g (f a) = g a) (l : List α) (i : Nat) :
    (l.modify i f).map g = l.map g := by
  apply List.ext_getElem?
  intro j
  rw [List.getElem?_map, List.getElem?_map, List.getElem?_modify]
  cases l[j]? with
  | none => rfl
  | some a =>
    simp only [Option.map_some, Option.map_eq_map]
    split
    · rw [h]
    · rfl

/-- The keys of an array and an index into it, as inverse to each other. -/
structure Indexed (keys : List α) (pos : α → Nat) : Prop where
  at_ : ∀ {i k}, keys[i]? = some k → pos k = i + 1
  found : ∀ {k}, pos k ≠ 0 → keys[pos k - 1]? = some k

variable {keys : List α} {pos : α → Nat} {k : α} {i : Nat}

theorem indexed_nil : Indexed ([] : List α) (fun _ => 0) where
  at_ := by simp
  found := fun h => (h rfl).elim

namespace Indexed

theorem mem_iff (h : Indexed keys pos) : k ∈ keys ↔ pos k ≠ 0 := by
  constructor
  · intro hk
    obtain ⟨i, hi⟩ := List.mem_iff_getElem?.mp hk
    rw [h.at_ hi]
    exact Nat.succ_ne_zero i
  · intro hpos
    exact List.mem_iff_getElem?.mpr ⟨_, h.found hpos⟩

theorem unlisted (h : Indexed keys pos) (hk : k ∉ keys) : pos k = 0 := by
  by_contra hpos
  exact hk (h.mem_iff.mpr hpos)

theorem nodup (h : Indexed keys pos) : keys.Nodup := by
  rw [List.nodup_iff_injective_getElem]
  intro i j he
  have hi := h.at_ (List.getElem?_eq_getElem i.isLt)
  have hj := h.at_ (List.getElem?_eq_getElem j.isLt)
  have hsame : keys[i.val] = keys[j.val] := he
  rw [hsame, hj] at hi
  exact Fin.ext (by omega)

/-- A key that is not in the array is put at its end. -/
theorem push [DecidableEq α] (h : Indexed keys pos) (hk : pos k = 0) :
    Indexed (keys ++ [k]) (Function.update pos k (keys.length + 1)) where
  at_ := by
    intro i k' hi
    rw [List.getElem?_append] at hi
    split at hi
    · have hne : k' ≠ k := by
        rintro rfl
        rw [h.at_ hi] at hk
        omega
      rw [Function.update_of_ne hne, h.at_ hi]
    · have hzero : i - keys.length = 0 := by
        by_contra hne
        rw [List.getElem?_eq_none (by simp; omega)] at hi
        contradiction
      rw [hzero, List.getElem?_cons_zero, Option.some_inj] at hi
      subst hi
      rw [Function.update_self]
      omega
  found := by
    intro k' hpos
    by_cases he : k' = k
    · subst he
      simp
    · rw [Function.update_of_ne he] at hpos ⊢
      have hfound := h.found hpos
      have hlt := (List.getElem?_eq_some_iff.mp hfound).1
      rw [List.getElem?_append_left hlt, hfound]

/-- A key is removed by moving the last one to its place. -/
theorem swapPop [DecidableEq α] {last : α} (h : Indexed keys pos) (hi : keys[i]? = some k)
    (hlast : keys.getLast? = some last) :
    Indexed (swapPop keys i) (Function.update (Function.update pos last (i + 1)) k 0) := by
  have hend : keys[keys.length - 1]? = some last := by rw [← List.getLast?_eq_getElem?, hlast]
  have hposLast : pos last = keys.length - 1 + 1 := h.at_ hend
  have hposKey : pos k = i + 1 := h.at_ hi
  have hlt : i < keys.length := (List.getElem?_eq_some_iff.mp hi).1
  have hlookup := getElem?_swapPop hlt hlast
  constructor
  · intro j k' hj
    rw [hlookup] at hj
    split at hj
    · rename_i hinner
      split at hj
      · rename_i he
        obtain rfl : last = k' := Option.some.inj hj
        have hne : last ≠ k := by
          intro hsame
          rw [hsame, hposKey] at hposLast
          omega
        rw [Function.update_of_ne hne, Function.update_self, he]
      · rename_i hne
        have hpos := h.at_ hj
        have hneKey : k' ≠ k := by
          intro hsame
          rw [hsame, hposKey] at hpos
          omega
        have hneLast : k' ≠ last := by
          intro hsame
          rw [hsame, hposLast] at hpos
          omega
        rw [Function.update_of_ne hneKey, Function.update_of_ne hneLast, hpos]
    · contradiction
  · intro k' hpos
    have hneKey : k' ≠ k := by
      rintro rfl
      exact hpos (Function.update_self ..)
    rw [Function.update_of_ne hneKey] at hpos ⊢
    by_cases hsame : k' = last
    · subst hsame
      have hinner : i ≠ keys.length - 1 := by
        rintro rfl
        rw [hend, Option.some_inj] at hi
        exact hneKey hi
      rw [Function.update_self, hlookup, if_pos (by omega), if_pos (by omega)]
    · rw [Function.update_of_ne hsame] at hpos ⊢
      have hfound := h.found hpos
      have hbound := (List.getElem?_eq_some_iff.mp hfound).1
      have hinner : pos k' - 1 ≠ keys.length - 1 := by
        intro he
        rw [he, hend, Option.some_inj] at hfound
        exact hsame hfound.symm
      have hother : i ≠ pos k' - 1 := by
        intro he
        rw [← he, hi, Option.some_inj] at hfound
        exact hneKey hfound.symm
      rw [hlookup, if_pos (by omega), if_neg hother, hfound]

end Indexed

end IndexedArray
