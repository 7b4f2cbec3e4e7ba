import Mathlib.Algebra.BigOperators.Group.List.Basic
import Mathlib.Algebra.Order.BigOperators.Group.List
import Mathlib.Algebra.Ring.Int.Defs
import Mathlib.Algebra.Ring.Nat
import Mathlib.Data.List.AList
import Mathlib.Data.List.Nodup

/-!
# Tables of records that carry their keys

A map of the host whose values contain their own keys, in the order of insertion: setting a record
replaces the one with its key, or adds it at the end. No two records of a table have one key.
-/
namespace Records

universe u v w

variable {α : Type u} {κ : Type v}

structure Table (key : α → κ) where
  records : List α
  nodup : (records.map key).Nodup

variable {key : α → κ}

instance : Membership α (Table key) := ⟨fun t a => a ∈ t.records⟩

instance : EmptyCollection (Table key) := ⟨⟨[], List.nodup_nil⟩⟩

namespace Table

variable {t : Table key} {a b : α} {k : κ}

theorem key_injective (ha : a ∈ t) (hb : b ∈ t) (h : key a = key b) : a = b :=
  List.inj_on_of_nodup_map t.nodup ha hb h

theorem not_mem_empty (a : α) : a ∉ (∅ : Table key) := List.not_mem_nil

theorem records_injective {t t' : Table key} (h : t.records = t'.records) : t = t' := by
  cases t
  cases t'
  cases h
  rfl

variable [DecidableEq κ]

def get (t : Table key) (k : κ) : Option α := t.records.find? (key · = k)

def replace (key : α → κ) (a : α) (records : List α) : List α :=
  records.map fun b => if key b = key a then a else b

theorem replace_keys (a : α) (records : List α) :
    (replace key a records).map key = records.map key := by
  rw [replace, List.map_map]
  refine List.map_congr_left fun b _ => ?_
  by_cases h : key b = key a <;> simp [h]

def set (t : Table key) (a : α) : Table key :=
  if h : key a ∈ t.records.map key then ⟨replace key a t.records, by
    rw [replace_keys]
    exact t.nodup⟩
  else ⟨t.records ++ [a], by
    rw [List.map_append, List.map_singleton]
    exact t.nodup.append (List.nodup_singleton _) (List.disjoint_singleton.mpr h)⟩

theorem get_some (h : t.get k = some a) : a ∈ t ∧ key a = k :=
  ⟨List.mem_of_find?_eq_some h, by simpa using List.find?_some h⟩

theorem key_of_get (h : t.get k = some a) : key a = k := (get_some h).2

theorem get_of_mem (h : a ∈ t) : t.get (key a) = some a := by
  cases hget : t.get (key a) with
  | none => exact absurd (decide_eq_true rfl) (List.find?_eq_none.mp hget a h)
  | some b =>
    obtain ⟨hmem, hkey⟩ := get_some hget
    rw [key_injective hmem h hkey]

theorem get_eq_none : t.get k = none ↔ k ∉ t.records.map key := by
  simp only [get, List.find?_eq_none, decide_eq_true_eq, List.mem_map, not_exists, not_and]

theorem key_mem_of_get (h : t.get k = some a) : k ∈ t.records.map key :=
  List.mem_map.mpr ⟨a, get_some h⟩

/-- What a table that a record is set in holds. -/
theorem mem_set : b ∈ t.set a ↔ b = a ∨ (b ∈ t ∧ key b ≠ key a) := by
  rw [set]
  split
  next h =>
    obtain ⟨old, hold, hkey⟩ := List.mem_map.mp h
    constructor
    · intro hb
      obtain ⟨c, hc, rfl⟩ := List.mem_map.mp hb
      by_cases he : key c = key a
      · exact .inl (if_pos he)
      · rw [if_neg he]
        exact .inr ⟨hc, he⟩
    · rintro (rfl | ⟨hb, he⟩)
      · exact List.mem_map.mpr ⟨old, hold, if_pos hkey⟩
      · exact List.mem_map.mpr ⟨b, hb, if_neg he⟩
  next h =>
    constructor
    · intro hb
      rcases List.mem_append.mp hb with hb | hb
      · exact .inr ⟨hb, fun he => h (he ▸ List.mem_map_of_mem hb)⟩
      · exact .inl (List.mem_singleton.mp hb)
    · rintro (rfl | ⟨hb, _⟩)
      · exact List.mem_append_right _ (List.mem_singleton_self _)
      · exact List.mem_append_left _ hb

/-- A record that is added leaves the others. -/
theorem mem_set_fresh (h : t.get (key a) = none) (hb : b ∈ t) : b ∈ t.set a := by
  refine mem_set.mpr (.inr ⟨hb, fun he => ?_⟩)
  rw [← he, get_of_mem hb] at h
  contradiction

/-- What holds of all records of a table and of the one that is set. -/
theorem forall_set {P : α → Prop} (ha : P a) (h : ∀ b ∈ t, P b) : ∀ b ∈ t.set a, P b := by
  intro b hb
  obtain hnew | ⟨hb, -⟩ := mem_set.mp hb
  · rw [hnew]
    exact ha
  · exact h b hb

@[simp] theorem get_set_self (t : Table key) (a : α) : (t.set a).get (key a) = some a :=
  get_of_mem (mem_set.mpr (.inl rfl))

theorem get_set_ne (h : k ≠ key a) : (t.set a).get k = t.get k := by
  cases hget : t.get k with
  | none =>
    rw [get_eq_none] at hget ⊢
    rintro hmem
    obtain ⟨b, hb, rfl⟩ := List.mem_map.mp hmem
    rcases mem_set.mp hb with rfl | ⟨hb, _⟩
    · exact h rfl
    · exact hget (List.mem_map_of_mem hb)
  | some b =>
    obtain ⟨hb, rfl⟩ := get_some hget
    exact get_of_mem (mem_set.mpr (.inr ⟨hb, h⟩))

theorem get_set (t : Table key) (a : α) (k : κ) :
    (t.set a).get k = if k = key a then some a else t.get k := by
  split_ifs with h
  · rw [h, get_set_self]
  · exact get_set_ne h

/-- The records are those that are found under their keys. -/
theorem filterMap_get (t : Table key) : (t.records.map key).filterMap t.get = t.records := by
  rw [List.filterMap_map]
  have hget : ∀ a ∈ t.records, (t.get ∘ key) a = some a := fun a ha => get_of_mem ha
  rw [List.filterMap_congr hget, List.filterMap_some]

def remove (t : Table key) (k : κ) : Table key :=
  ⟨t.records.filter (key · ≠ k), t.nodup.sublist (List.filter_sublist.map key)⟩

theorem mem_remove : a ∈ t.remove k ↔ a ∈ t ∧ key a ≠ k := by
  refine List.mem_filter.trans (and_congr_right fun _ => ?_)
  exact decide_eq_true_iff

theorem get_remove (t : Table key) (k j : κ) :
    (t.remove k).get j = if j = k then none else t.get j := by
  split_ifs with h
  · rw [get_eq_none, h]
    intro hmem
    obtain ⟨a, ha, hkey⟩ := List.mem_map.mp hmem
    exact (mem_remove.mp ha).2 hkey
  · cases hget : t.get j with
    | none =>
      rw [get_eq_none] at hget ⊢
      exact fun hmem => hget ((List.filter_sublist.map key).subset hmem)
    | some a =>
      obtain ⟨ha, rfl⟩ := get_some hget
      exact get_of_mem (mem_remove.mpr ⟨ha, h⟩)

/-- A record that is removed and the others are all of them. -/
theorem perm_remove (h : a ∈ t) : (a :: (t.remove (key a)).records).Perm t.records := by
  obtain ⟨l, r, he⟩ := List.append_of_mem (show a ∈ t.records from h)
  have hnodup := t.nodup
  rw [he, List.map_append, List.map_cons, List.nodup_middle, List.nodup_cons,
    ← List.map_append] at hnodup
  have hothers : (l ++ r).filter (key · ≠ key a) = l ++ r := by
    refine List.filter_eq_self.mpr fun b hb => decide_eq_true fun hkey => hnodup.1 ?_
    exact hkey ▸ List.mem_map_of_mem hb
  have hself : [a].filter (key · ≠ key a) = [] := by simp
  have hremove : (t.remove (key a)).records = l ++ r := by
    show t.records.filter (key · ≠ key a) = l ++ r
    rw [he, ← hothers, List.filter_append, List.filter_append, ← List.singleton_append,
      List.filter_append, hself, List.nil_append]
  rw [hremove, he]
  exact List.perm_middle.symm

/-- Every record is changed, none of them in its key. -/
def map (t : Table key) (f : α → α) (h : ∀ a, key (f a) = key a) : Table key :=
  ⟨t.records.map f, by
    have hkeys : t.records.map (key ∘ f) = t.records.map key := List.map_congr_left fun a _ => h a
    rw [List.map_map, hkeys]
    exact t.nodup⟩

@[simp] theorem get_empty (k : κ) : (∅ : Table key).get k = none := rfl

theorem set_fresh (h : t.get (key a) = none) : (t.set a).records = t.records ++ [a] := by
  rw [set, dif_neg (get_eq_none.mp h)]

theorem set_found (h : t.get (key a) = some b) : (t.set a).records = replace key a t.records := by
  rw [set, dif_pos (key_mem_of_get h)]

/-- Of two records with one key, the one that is set last stays. -/
theorem set_set (h : key a = key b) : (t.set a).set b = t.set b := by
  refine records_injective ?_
  have hfound : (t.set a).get (key b) = some a := h ▸ get_set_self t a
  rw [set_found hfound]
  cases hget : t.get (key b) with
  | none =>
    have hfresh : key b ∉ t.records.map key := get_eq_none.mp hget
    rw [set_fresh hget, set_fresh (h ▸ hget), replace, List.map_append, List.map_singleton,
      if_pos h]
    refine congrArg (· ++ [b]) ((List.map_congr_left fun c hc => ?_).trans (List.map_id _))
    exact if_neg fun he => hfresh (List.mem_map.mpr ⟨c, hc, he⟩)
  | some old =>
    rw [set_found hget, set_found (h ▸ hget), replace, replace, replace, List.map_map]
    refine List.map_congr_left fun c _ => ?_
    by_cases hc : key c = key b
    · rw [Function.comp_apply, if_pos (hc.trans h.symm), if_pos h, if_pos hc]
    · have hne : key c ≠ key a := fun he => hc (he.trans h)
      rw [Function.comp_apply, if_neg hne, if_neg hc]

end Table

/-! ## Sums -/

section Sums

variable {M : Type w} [AddCommMonoid M] {t : Table key} {a b : α} {f g : α → M}

def total (f : α → M) (t : Table key) : M := (t.records.map f).sum

@[simp] theorem total_empty (f : α → M) : total f (∅ : Table key) = 0 := rfl

theorem total_nonneg [PartialOrder M] [IsOrderedAddMonoid M] (h : ∀ a ∈ t, 0 ≤ f a) :
    0 ≤ total f t :=
  List.sum_nonneg fun x hx => by
    obtain ⟨a, ha, rfl⟩ := List.mem_map.mp hx
    exact h a ha

theorem total_le_total [PartialOrder M] [IsOrderedAddMonoid M] (h : ∀ a ∈ t, f a ≤ g a) :
    total f t ≤ total g t :=
  List.sum_le_sum h

variable [DecidableEq κ]

theorem total_set_fresh (f : α → M) (h : t.get (key a) = none) :
    total f (t.set a) = total f t + f a := by
  rw [total, Table.set_fresh h, List.map_append, List.sum_append, List.map_singleton,
    List.sum_singleton, total]

/-- A record that is replaced takes its part with it. -/
theorem total_set_found (f : α → M) (h : t.get (key a) = some b) :
    total f (t.set a) + f b = total f t + f a := by
  obtain ⟨hmem, hkey⟩ := Table.get_some h
  rw [total, Table.set_found h, total]
  have hnodup := t.nodup
  replace hmem : b ∈ t.records := hmem
  generalize t.records = records at hmem hnodup
  induction records with
  | nil => exact absurd hmem List.not_mem_nil
  | cons c rest ih =>
    obtain ⟨hnotin, hnodup⟩ := List.nodup_cons.mp hnodup
    rw [Table.replace, List.map_cons, ← Table.replace, List.map_cons, List.sum_cons, List.map_cons,
      List.sum_cons]
    rcases List.mem_cons.mp hmem with rfl | hrest
    · have hsame : Table.replace key a rest = rest := by
        rw [Table.replace]
        refine (List.map_congr_left fun d hd => if_neg fun he => hnotin ?_).trans (List.map_id rest)
        exact List.mem_map.mpr ⟨d, hd, he.trans hkey.symm⟩
      rw [if_pos hkey, hsame]
      ac_rfl
    · have hne : key c ≠ key a := fun he =>
        hnotin (List.mem_map.mpr ⟨b, hrest, hkey.trans he.symm⟩)
      rw [if_neg hne, add_assoc, ih hrest hnodup, add_assoc]

variable [PartialOrder M] [IsOrderedAddMonoid M]

/-- A sum does not grow when no part does, that of the record that is replaced included. -/
theorem total_set_le (hfound : t.get (key a) = some b) (hnew : f a ≤ g b)
    (hkept : ∀ c ∈ t, key c ≠ key a → f c ≤ g c) : total f (t.set a) ≤ total g t := by
  obtain ⟨hmem, hkey⟩ := Table.get_some hfound
  rw [total, Table.set_found hfound, Table.replace, List.map_map]
  refine List.sum_le_sum fun c hc => ?_
  by_cases he : key c = key a
  · obtain rfl : c = b := Table.key_injective hc hmem (he.trans hkey.symm)
    rw [Function.comp_apply, if_pos he]
    exact hnew
  · rw [Function.comp_apply, if_neg he]
    exact hkept c hc he

end Sums

end Records

/-!
## Maps with one entry for each key

A map of the host is an association list without a repeated key. Counted here is
the number of its keys, and for a map into the integers the sum of its values:
what both become when an entry is set.
-/
namespace KeyedMap

universe u v

variable {κ : Type u} {υ : Type v}

abbrev Map (κ : Type u) (υ : Type v) := AList (fun _ : κ => υ)

def size (m : Map κ υ) : Nat := m.keys.length

@[simp] theorem size_empty : size (∅ : Map κ υ) = 0 := rfl

/-- A map whose keys are drawn from a list has at most as many of them. -/
theorem size_le_of_subset {m : Map κ υ} {l : List κ} (h : ∀ k ∈ m, k ∈ l) : size m ≤ l.length :=
  (List.subperm_of_subset m.keys_nodup fun _ hk => h _ (AList.mem_keys.mpr hk)).length_le

/-- The sum of the values. -/
def total (m : Map κ Int) : Int := (m.entries.map (·.2)).sum

section Insert

variable [DecidableEq κ] {m : Map κ υ} {k : κ}

theorem size_insert_of_notMem (h : k ∉ m) (v : υ) : size (m.insert k v) = size m + 1 := by
  rw [size, AList.keys_insert, List.erase_of_not_mem (AList.mem_keys.not.mp h)]
  rfl

theorem size_insert_of_mem (h : k ∈ m) (v : υ) : size (m.insert k v) = size m := by
  have hk : k ∈ m.keys := AList.mem_keys.mp h
  have hpos : 0 < m.keys.length := List.length_pos_of_mem hk
  rw [size, AList.keys_insert, List.length_cons, List.length_erase_of_mem hk, size]
  omega

theorem sum_kerase (k : κ) (l : List (Sigma fun _ : κ => Int)) :
    ((l.kerase k).map (·.2)).sum + (l.dlookup k).getD 0 = (l.map (·.2)).sum := by
  induction l with
  | nil => simp
  | cons e rest ih =>
    by_cases he : k = e.1
    · obtain ⟨_, v⟩ := e
      subst he
      simp [List.kerase_cons_eq, Int.add_comm]
    · rw [List.kerase_cons_ne he, List.dlookup_cons_ne rest e he, List.map_cons, List.sum_cons,
        List.map_cons, List.sum_cons, ← ih, Int.add_assoc]

/-- What setting an entry adds: the new value, less the value that was there. -/
theorem total_insert (m : Map κ Int) (k : κ) (v : Int) :
    total (m.insert k v) = total m - (m.lookup k).getD 0 + v := by
  have hsum := sum_kerase k m.entries
  have hcons : total (m.insert k v) = v + ((m.entries.kerase k).map (·.2)).sum := by
    rw [total, AList.entries_insert, List.map_cons, List.sum_cons]
  rw [hcons, total, ← hsum, AList.lookup]
  omega

theorem total_nonneg {m : Map κ Int} (h : ∀ k v, m.lookup k = some v → 0 ≤ v) : 0 ≤ total m := by
  refine List.sum_nonneg fun v hv => ?_
  obtain ⟨⟨k, u⟩, hmem, rfl⟩ := List.mem_map.mp hv
  exact h k u (AList.mem_lookup_iff.mpr hmem)

/-- Values that are not negative, after one of them is set. -/
theorem insert_nonneg {m : Map κ Int} (h : ∀ k v, m.lookup k = some v → 0 ≤ v) {k : κ} {v : Int}
    (hv : 0 ≤ v) : ∀ j u, (m.insert k v).lookup j = some u → 0 ≤ u := by
  intro j u hj
  by_cases he : j = k
  · rw [he, AList.lookup_insert] at hj
    exact Option.some.inj hj ▸ hv
  · rw [AList.lookup_insert_ne he] at hj
    exact h j u hj

theorem getD_nonneg {m : Map κ Int} (h : ∀ k v, m.lookup k = some v → 0 ≤ v) (k : κ) :
    0 ≤ (m.lookup k).getD 0 := by
  cases hv : m.lookup k with
  | none => exact le_rfl
  | some v => exact h k v hv

/-- No value exceeds the sum of values none of which is negative. -/
theorem getD_le_total {m : Map κ Int} (h : ∀ k v, m.lookup k = some v → 0 ≤ v) (k : κ) :
    (m.lookup k).getD 0 ≤ total m := by
  have hrest : 0 ≤ total (m.insert k 0) := total_nonneg (insert_nonneg h le_rfl)
  rw [total_insert] at hrest
  omega

end Insert

end KeyedMap
