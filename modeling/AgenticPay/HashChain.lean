import Mathlib.Data.List.Induction
import Mathlib.Data.List.Infix
import Mathlib.Data.List.Nodup

/-!
# Chains of entries that are linked by their hashes

Every entry of a chain carries the hash of the one before it and its own. A chain is followed from
an anchor to its head, and it breaks at the first entry whose hashes do not fit.
-/
namespace HashChain

universe u v

/-- The hashes that an entry carries, and the one that its content has. -/
structure Links (E : Type u) (H : Type v) where
  previous : E → H
  hash : E → H
  digest : E → H

variable {E : Type u} {H : Type v} [DecidableEq H] (L : Links E H)

/-- The entry comes after the hash, and its own is that of its content. -/
def Links.Fits (anchor : H) (e : E) : Prop := L.previous e = anchor ∧ L.digest e = L.hash e

instance (anchor : H) (e : E) : Decidable (L.Fits anchor e) := inferInstanceAs (Decidable (_ ∧ _))

/-- The head that is reached from an anchor, unless the chain breaks. -/
def follow (anchor : H) : List E → Option H
  | [] => some anchor
  | e :: rest => if L.Fits anchor e then follow (L.hash e) rest else none

variable {L} {anchor head : H} {e e' : E} {l l' : List E}

@[simp] theorem follow_nil : follow L anchor [] = some anchor := rfl

theorem follow_cons : follow L anchor (e :: l) = some head ↔
    L.Fits anchor e ∧ follow L (L.hash e) l = some head := by
  rw [follow]
  split
  next h => simp [h]
  next h => simp [h]

theorem follow_append : follow L anchor (l ++ l') = (follow L anchor l).bind (follow L · l') := by
  induction l generalizing anchor with
  | nil => rfl
  | cons e l ih =>
    rw [List.cons_append, follow, follow]
    split
    · exact ih
    · rfl

theorem follow_snoc (h : follow L anchor l = some head) (hfits : L.Fits head e) :
    follow L anchor (l ++ [e]) = some (L.hash e) := by
  rw [follow_append, h, Option.bind_some, follow_cons]
  exact ⟨hfits, rfl⟩

/-- An end of a chain is followed from the hash before its first entry. -/
theorem follow_suffix (h : follow L anchor (l ++ l') = some head) :
    follow L ((l'.head?.map L.previous).getD head) l' = some head := by
  rw [follow_append] at h
  obtain ⟨mid, -, hrest⟩ := Option.bind_eq_some_iff.mp h
  cases l' with
  | nil => rfl
  | cons e rest =>
    rw [List.head?_cons, Option.map_some, Option.getD_some, (follow_cons.mp hrest).1.1]
    exact hrest

/-- Another content in the place of an entry, with the hashes that the entry had. -/
theorem follow_set (L : Links E H) (e' : E) {i : Nat} (h : follow L anchor l = some head)
    (hi : l[i]? = some e) (hprevious : L.previous e' = L.previous e)
    (hhash : L.hash e' = L.hash e) :
    follow L anchor (l.set i e') = if L.digest e' = L.digest e then some head else none := by
  induction l generalizing anchor i with
  | nil => simp at hi
  | cons first rest ih =>
    obtain ⟨hfits, hrest⟩ := follow_cons.mp h
    cases i with
    | zero =>
      obtain rfl : first = e := by simpa using hi
      have hiff : L.Fits anchor e' ↔ L.digest e' = L.digest first := by
        rw [Links.Fits, hprevious, hhash, hfits.1, hfits.2]
        exact and_iff_right rfl
      rw [List.set_cons_zero, follow, hhash, hrest]
      simp only [hiff]
    | succ i =>
      rw [List.set_cons_succ, follow, if_pos hfits]
      exact ih hrest (by simpa using hi)

/-! ## No hash comes twice -/

/-- Before an entry there is the anchor, or the hash of an entry that comes earlier. -/
theorem previous_mem (h : follow L anchor (l ++ [e]) = some head) : ∀ x ∈ l ++ [e],
    L.previous x = anchor ∨ ∃ y ∈ l, L.previous x = L.digest y := by
  induction l generalizing anchor with
  | nil =>
    intro x hx
    obtain rfl := List.mem_singleton.mp hx
    exact .inl (follow_cons.mp h).1.1
  | cons first rest ih =>
    intro x hx
    obtain ⟨hfits, hrest⟩ := follow_cons.mp h
    rcases List.mem_cons.mp hx with rfl | hx
    · exact .inl hfits.1
    · obtain hfirst | ⟨y, hy, heq⟩ := ih hrest x hx
      · exact .inr ⟨first, List.mem_cons_self, hfirst.trans hfits.2.symm⟩
      · exact .inr ⟨y, List.mem_cons_of_mem _ hy, heq⟩

/-- Where a hash tells what came before, and none is the anchor, the head is new. -/
theorem head_not_mem
    (hinj : ∀ x ∈ l, ∀ y ∈ l, L.digest x = L.digest y → L.previous x = L.previous y)
    (hanchor : ∀ x ∈ l, L.digest x ≠ anchor) (h : follow L anchor l = some head) :
    head ∉ l.map L.previous := by
  induction l using List.reverseRecOn generalizing head with
  | nil => exact List.not_mem_nil
  | append_singleton l e ih =>
    intro hmem
    obtain ⟨x, hx, hprevious⟩ := List.mem_map.mp hmem
    have hsplit := h
    rw [follow_append] at hsplit
    obtain ⟨mid, hmid, hlast⟩ := Option.bind_eq_some_iff.mp hsplit
    obtain ⟨hfits, hhead⟩ := follow_cons.mp hlast
    have hhead : L.digest e = head := hfits.2.trans (Option.some.inj hhead)
    have he : e ∈ l ++ [e] := List.mem_append_right _ (List.mem_singleton_self _)
    obtain hfirst | ⟨y, hy, heq⟩ := previous_mem h x hx
    · exact hanchor e he (hhead.trans (hprevious.symm.trans hfirst))
    · have hsame : L.previous e = L.previous y :=
        hinj e he y (List.mem_append_left _ hy) (hhead.trans (hprevious.symm.trans heq))
      refine ih (fun x hx y hy => ?_) (fun x hx => hanchor x (List.mem_append_left _ hx)) hmid
        (List.mem_map.mpr ⟨y, hy, hsame.symm.trans hfits.1⟩)
      exact hinj x (List.mem_append_left _ hx) y (List.mem_append_left _ hy)

theorem previous_nodup
    (hinj : ∀ x ∈ l, ∀ y ∈ l, L.digest x = L.digest y → L.previous x = L.previous y)
    (hanchor : ∀ x ∈ l, L.digest x ≠ anchor) (h : follow L anchor l = some head) :
    (l.map L.previous).Nodup := by
  induction l using List.reverseRecOn generalizing head with
  | nil => exact List.nodup_nil
  | append_singleton l e ih =>
    rw [follow_append] at h
    obtain ⟨mid, hmid, hlast⟩ := Option.bind_eq_some_iff.mp h
    obtain ⟨hfits, -⟩ := follow_cons.mp hlast
    have hinj' : ∀ x ∈ l, ∀ y ∈ l, L.digest x = L.digest y → L.previous x = L.previous y :=
      fun x hx y hy => hinj x (List.mem_append_left _ hx) y (List.mem_append_left _ hy)
    have hanchor' : ∀ x ∈ l, L.digest x ≠ anchor :=
      fun x hx => hanchor x (List.mem_append_left _ hx)
    rw [List.map_append, List.map_singleton]
    refine (ih hinj' hanchor' hmid).append (List.nodup_singleton _)
      (List.disjoint_singleton.mpr ?_)
    rw [hfits.1]
    exact head_not_mem hinj' hanchor' hmid

end HashChain

/-!
## Chains of blocks

Each block of a chain has the number after that of the block before it, and names that block by its
hash. A chain grows by blocks that are appended to it. Two chains that begin alike have a last
common ancestor.
-/
namespace Chains

universe u

variable {η : Type u}

structure Header (η : Type u) where
  number : Nat
  hash : η
  parentHash : η
  deriving DecidableEq

def Follows (a b : Header η) : Prop := b.number = a.number + 1 ∧ b.parentHash = a.hash

instance [DecidableEq η] (a b : Header η) : Decidable (Follows a b) :=
  inferInstanceAs (Decidable (_ ∧ _))

structure Chain (η : Type u) where
  blocks : List (Header η)
  nonempty : blocks ≠ []
  linked : blocks.IsChain Follows

namespace Chain

variable {c d : Chain η} {a b : Header η} {n k : Nat}

/-- The number of the first block. -/
def base (c : Chain η) : Nat := (c.blocks.head c.nonempty).number

/-- The number of the last block. -/
def height (c : Chain η) : Nat := c.base + (c.blocks.length - 1)

def head (c : Chain η) : Header η := c.blocks.getLast c.nonempty

def getBlock (c : Chain η) (n : Nat) : Option (Header η) :=
  if c.base ≤ n then c.blocks[n - c.base]? else none

theorem follows_getElem {i : Nat} (ha : c.blocks[i]? = some a) (hb : c.blocks[i + 1]? = some b) :
    Follows a b := by
  obtain ⟨_, rfl⟩ := List.getElem?_eq_some_iff.mp ha
  obtain ⟨hlt, rfl⟩ := List.getElem?_eq_some_iff.mp hb
  exact List.isChain_iff_getElem.mp c.linked i hlt

theorem number_getElem {i : Nat} (h : c.blocks[i]? = some b) : b.number = c.base + i := by
  induction i generalizing b with
  | zero =>
    rw [← List.head?_eq_getElem?, List.head?_eq_some_head c.nonempty] at h
    obtain rfl := Option.some.inj h
    rfl
  | succ i ih =>
    obtain ⟨hlt, -⟩ := List.getElem?_eq_some_iff.mp h
    obtain ⟨a, ha⟩ : ∃ a, c.blocks[i]? = some a :=
      ⟨_, List.getElem?_eq_getElem (Nat.lt_of_succ_lt hlt)⟩
    rw [(follows_getElem ha h).1, ih ha, Nat.add_assoc]

theorem getBlock_isSome : (c.getBlock n).isSome = true ↔ c.base ≤ n ∧ n ≤ c.height := by
  have hlength := List.length_pos_iff.mpr c.nonempty
  rw [getBlock, height]
  split
  next hbase =>
    rw [isSome_getElem?]
    omega
  next hbase => simp [hbase]

theorem getBlock_height (c : Chain η) : c.getBlock c.height = some c.head := by
  rw [getBlock, height, head, if_pos (Nat.le_add_right _ _), Nat.add_sub_cancel_left,
    ← List.getLast?_eq_getElem?, List.getLast?_eq_some_getLast c.nonempty]

theorem number_of_getBlock (h : c.getBlock n = some b) : b.number = n := by
  rw [getBlock] at h
  split_ifs at h with hbase
  rw [number_getElem h, Nat.add_sub_cancel' hbase]

@[simp] theorem head_number (c : Chain η) : c.head.number = c.height :=
  number_of_getBlock c.getBlock_height

/-- The next block names the one before it. -/
theorem parentHash_of_getBlock (ha : c.getBlock n = some a) (hb : c.getBlock (n + 1) = some b) :
    b.parentHash = a.hash := by
  rw [getBlock] at ha hb
  split_ifs at ha hb with hbase
  rw [show n + 1 - c.base = n - c.base + 1 by omega] at hb
  exact (follows_getElem ha hb).2

/-! ## Growth -/

/-- The second chain is the first one, with blocks appended. -/
def Grows (c d : Chain η) : Prop := c.blocks <+: d.blocks

instance [DecidableEq η] (c d : Chain η) : Decidable (Grows c d) :=
  inferInstanceAs (Decidable (c.blocks <+: d.blocks))

theorem Grows.refl (c : Chain η) : c.Grows c := List.prefix_rfl

theorem Grows.base (h : c.Grows d) : c.base = d.base :=
  congrArg Header.number (h.head c.nonempty)

theorem Grows.getBlock (h : c.Grows d) (hb : c.getBlock n = some b) : d.getBlock n = some b := by
  rw [Chain.getBlock, h.base] at hb
  rw [Chain.getBlock]
  split_ifs at hb ⊢ with hbase
  obtain ⟨rest, hblocks⟩ := h
  rw [← hblocks, List.getElem?_append_left (List.getElem?_eq_some_iff.mp hb).1]
  exact hb

/-! ## Ancestors -/

/-- The two chains are one up to this block and have no block in common after it. -/
structure LastCommon (c d : Chain η) (k : Nat) : Prop where
  found : (c.getBlock k).isSome = true
  shared : ∀ n ≤ k, c.getBlock n = d.getBlock n
  apart : ∀ n ≤ c.height, k < n → c.getBlock n ≠ d.getBlock n

/-- The second chain has every block from the last common ancestor up to its own height. -/
theorem LastCommon.getBlock_isSome (h : LastCommon c d k) (hk : k ≤ n) (hn : n ≤ d.height) :
    (d.getBlock n).isSome = true := by
  have hfound := h.found
  rw [h.shared k le_rfl, Chain.getBlock_isSome] at hfound
  exact Chain.getBlock_isSome.mpr ⟨hfound.1.trans hk, hn⟩

end Chain

end Chains
