import Mathlib.Data.List.Basic
import Mathlib.Data.List.Nodup
import Mathlib.Data.List.Range
import Mathlib.Logic.Function.Basic

/-!
# Tables that hand out their own keys

A table with a counter: a new entry takes the key after the counter and moves
the counter there. As long as the counter is never set back, every key is handed
out once, and no entry is overwritten by a new one.
-/
namespace Registry

universe u

variable {α : Type u}

/-- No entry lies beyond the counter. -/
def Bounded (table : Nat → Option α) (count : Nat) : Prop := ∀ id, count < id → table id = none

/-- The keys handed out so far: no key twice, and none beyond the counter. -/
structure HandedOut (ids : List Nat) (count : Nat) : Prop where
  distinct : ids.Nodup
  within : ∀ id ∈ ids, id ≤ count

/-- What an operation may do to a table with a counter: it hands out the keys
after the counter, as many as the counter moves, and fills no key beyond them. -/
structure Grows (table : Nat → Option α) (count : Nat) (table' : Nat → Option α) (count' : Nat)
    (handed : List Nat) : Prop where
  forward : count ≤ count'
  next : handed = List.range' (count + 1) (count' - count)
  beyond : ∀ id, count' < id → table id = none → table' id = none

variable {table table' : Nat → Option α} {count count' id : Nat} {ids handed : List Nat}

theorem bounded_empty : Bounded (fun _ => (none : Option α)) count := fun _ _ => rfl

theorem Bounded.le (h : Bounded table count) {a : α} (hid : table id = some a) : id ≤ count := by
  by_contra hlt
  rw [h id (by omega)] at hid
  contradiction

/-- An entry after a write to an entry that exists: the written one, or as before. -/
theorem overwrite_cases {k : Nat} {a b v : α} (hk : table k = some a) (hid : table id = some b) :
    (k = id ∧ a = b ∧ Function.update table k (some v) id = some v) ∨
      (k ≠ id ∧ Function.update table k (some v) id = some b) := by
  by_cases he : k = id
  · subst he
    exact .inl ⟨rfl, Option.some.inj (hk.symm.trans hid), Function.update_self ..⟩
  · refine .inr ⟨he, ?_⟩
    rw [Function.update_of_ne (Ne.symm he), hid]

/-- Such a write fills no key. -/
theorem overwrite_none {k : Nat} {a : α} {v : Option α} (hk : table k = some a)
    (hid : table id = none) : Function.update table k v id = none := by
  have hne : id ≠ k := by
    rintro rfl
    rw [hid] at hk
    contradiction
  rw [Function.update_of_ne hne, hid]

theorem overwrite_ne_some {k : Nat} {a b : α} {v : Option α} (hk : table k = some a)
    (hid : table id = none) : Function.update table k v id ≠ some b := by
  rw [overwrite_none hk hid]
  exact nofun

theorem handedOut_nil : HandedOut [] count := ⟨List.nodup_nil, by simp⟩

namespace Grows

theorem same : Grows table count table count [] where
  forward := le_rfl
  next := by simp
  beyond := fun _ _ h => h

/-- Writing to an entry that exists hands out nothing. -/
theorem overwrite {a : α} {v : Option α} (h : table id = some a) :
    Grows table count (Function.update table id v) count [] where
  forward := le_rfl
  next := by simp
  beyond := fun _ _ hk => overwrite_none h hk

theorem add {a : α} :
    Grows table count (Function.update table (count + 1) (some a)) (count + 1) [count + 1] where
  forward := Nat.le_succ count
  next := by simp
  beyond := by
    intro k hlt hk
    rw [Function.update_of_ne (by omega), hk]

theorem trans {table'' : Nat → Option α} {count'' : Nat} {handed' : List Nat}
    (h : Grows table count table' count' handed)
    (h' : Grows table' count' table'' count'' handed') :
    Grows table count table'' count'' (handed ++ handed') where
  forward := h.forward.trans h'.forward
  next := by
    have hle := h.forward
    have hle' := h'.forward
    have hmid : count' + 1 = count + 1 + (count' - count) := by omega
    have hlen : count' - count + (count'' - count') = count'' - count := by omega
    rw [h.next, h'.next, hmid, List.range'_append_1, hlen]
  beyond := fun k hlt hk => h'.beyond k hlt (h.beyond k (by have := h'.forward; omega) hk)

theorem mem_iff (h : Grows table count table' count' handed) :
    id ∈ handed ↔ count < id ∧ id ≤ count' := by
  have hle := h.forward
  rw [h.next, List.mem_range'_1]
  omega

/-- A key that is handed out has no entry. -/
theorem fresh (h : Grows table count table' count' handed) (hb : Bounded table count)
    (hid : id ∈ handed) : table id = none :=
  hb id (h.mem_iff.mp hid).1

theorem bounded (h : Grows table count table' count' handed) (hb : Bounded table count) :
    Bounded table' count' :=
  fun k hlt => h.beyond k hlt (hb k (by have := h.forward; omega))

theorem handedOut (h : Grows table count table' count' handed) (hi : HandedOut ids count) :
    HandedOut (ids ++ handed) count' where
  distinct := by
    have hnodup : handed.Nodup := by rw [h.next]; exact List.nodup_range'
    refine List.nodup_append'.mpr ⟨hi.distinct, hnodup, ?_⟩
    intro k hold hnew
    have hle := hi.within k hold
    have hlt := (h.mem_iff.mp hnew).1
    omega
  within := by
    intro k hk
    have hle := h.forward
    rcases List.mem_append.mp hk with hold | hnew
    · exact (hi.within k hold).trans hle
    · exact (h.mem_iff.mp hnew).2

end Grows

end Registry

/-!
## Moving entries of a keyed store

A migration that rewrites records in place of their old form goes through the
records one by one: it writes the converted record under its new key and then
erases the old key. What such a sweep leaves under a key depends on whether the
two keys of a record are two keys or one.
-/
namespace Relocation

universe u v w

variable {ι : Type u} {κ : Type v} {ν : Type w} [DecidableEq κ]
variable (source target : ι → κ) (convert : ν → ν)

/-- One record: written under its new key, then erased under its old one. -/
def move (i : ι) (store : κ → Option ν) : κ → Option ν :=
  Function.update (Function.update store (target i) ((store (source i)).map convert))
    (source i) none

def moveAll : List ι → (κ → Option ν) → κ → Option ν
  | [], store => store
  | i :: rest, store => moveAll rest (move source target convert i store)

variable {source target convert}

theorem move_other {i : ι} {key : κ} (store : κ → Option ν) (hs : key ≠ source i)
    (ht : key ≠ target i) : move source target convert i store key = store key := by
  rw [move, Function.update_of_ne hs, Function.update_of_ne ht]

/-- Where the new key is the old key, the erasure takes the new record with it. -/
theorem move_same {i : ι} (store : κ → Option ν) (h : source i = target i) :
    move source target convert i store (target i) = none := by
  rw [move, h, Function.update_self]

/-- A sweep leaves alone every key that is neither an old nor a new one. -/
theorem moveAll_other {ids : List ι} {key : κ} (store : κ → Option ν)
    (h : ∀ i ∈ ids, key ≠ source i ∧ key ≠ target i) :
    moveAll source target convert ids store key = store key := by
  induction ids generalizing store with
  | nil => rfl
  | cons i rest ih =>
    obtain ⟨⟨hs, ht⟩, hrest⟩ := List.forall_mem_cons.mp h
    rw [moveAll, ih _ hrest, move_other store hs ht]

/-- A sweep never fills a key that is empty and erases every record it moves in place. -/
theorem moveAll_same {ids : List ι} {key : κ} (store : κ → Option ν)
    (hsame : ∀ i ∈ ids, source i = target i)
    (hkey : store key = none ∨ ∃ i ∈ ids, key = target i) :
    moveAll source target convert ids store key = none := by
  induction ids generalizing store with
  | nil => simpa [moveAll] using hkey
  | cons i rest ih =>
    obtain ⟨hi, hrest⟩ := List.forall_mem_cons.mp hsame
    refine ih _ hrest ?_
    by_cases he : key = target i
    · exact .inl (by rw [he, move_same store hi])
    · rcases hkey with hnone | ⟨j, hj, hk⟩
      · exact .inl (by rw [move_other store (hi ▸ he) he, hnone])
      · rcases List.mem_cons.mp hj with rfl | hj
        · exact absurd hk he
        · exact .inr ⟨j, hj, hk⟩

end Relocation
