import Mathlib.Data.Finset.Card
import Mathlib.Data.Finset.Dedup
import Mathlib.Data.List.Nodup
import Mathlib.Data.Set.Card

/-!
# Counters kept beside a record of who has voted

A vote is written down in a map, and a counter goes up. The counter is right when
it is the number of those that are written down.
-/
namespace Tally

universe u

variable {α : Type u} {recorded : α → Bool} {n : Nat} {a : α} {s : Set α}

def voters (recorded : α → Bool) : Set α := {a | recorded a = true}

theorem mem_voters : a ∈ voters recorded ↔ recorded a = true := Iff.rfl

/-- The counter is the number of those that are recorded. -/
def Counts (recorded : α → Bool) (n : Nat) : Prop := (voters recorded).encard = n

theorem counts_nobody : Counts (fun _ : α => false) 0 := by
  have hempty : voters (fun _ : α => false) = ∅ := by
    ext a
    simp [voters]
  rw [Counts, hempty, Set.encard_empty]
  rfl

theorem voters_update [DecidableEq α] (recorded : α → Bool) (a : α) :
    voters (Function.update recorded a true) = insert a (voters recorded) := by
  ext b
  rw [Set.mem_insert_iff, mem_voters, mem_voters]
  by_cases he : b = a
  · simp [he]
  · simp [he]

theorem Counts.vote [DecidableEq α] (h : Counts recorded n) (hnew : recorded a ≠ true) :
    Counts (Function.update recorded a true) (n + 1) := by
  rw [Counts] at h ⊢
  rw [voters_update, Set.encard_insert_of_notMem (mem_voters.not.mpr hnew), h]
  rfl

/-- The voters are written down in a list, too. -/
theorem counts_of_list [DecidableEq α] {l : List α} (hn : l.Nodup)
    (h : ∀ a, recorded a = true ↔ a ∈ l) : Counts recorded l.length := by
  have hsame : voters recorded = (l.toFinset : Set α) := by
    ext a
    rw [mem_voters, h a]
    simp
  rw [Counts, hsame, Set.encard_coe_eq_coe_finsetCard, List.toFinset_card_of_nodup hn]

/-- All that are recorded belong to `s`. -/
theorem Counts.among (h : Counts recorded n) (hsub : ∀ a, recorded a = true → a ∈ s) :
    {a | a ∈ s ∧ recorded a = true}.encard = n := by
  have hsame : {a | a ∈ s ∧ recorded a = true} = voters recorded := by
    ext a
    exact and_iff_right_of_imp (hsub a)
  rw [hsame]
  exact h

end Tally

/-!
## Votes counted against a changing membership

A vote is a list of voters, taken down as they came; the membership is a list
too, and may have changed since. What a quorum is about is the number of distinct
present members who voted, not the length of the list of voters. This file says
when the two agree.
-/
namespace Quorum

universe u

variable {α : Type u} [DecidableEq α]

/-- How many distinct members are among the voters. -/
def support (members votes : List α) : Nat := (members.toFinset ∩ votes.toFinset).card

/-- How many distinct members are not among the voters. -/
def remaining (members votes : List α) : Nat := (members.toFinset \ votes.toFinset).card

variable {members votes : List α} {threshold : Nat}

theorem support_le_length (members votes : List α) : support members votes ≤ votes.length :=
  (Finset.card_le_card Finset.inter_subset_right).trans votes.toFinset_card_le

theorem support_pos {a : α} (hm : a ∈ members) (hv : a ∈ votes) : 1 ≤ support members votes :=
  Finset.card_pos.mpr ⟨a, by simp [hm, hv]⟩

/-- The support is the whole list exactly when no voter has left. -/
theorem support_eq_length_iff (hv : votes.Nodup) :
    support members votes = votes.length ↔ ∀ a ∈ votes, a ∈ members := by
  rw [support, ← List.toFinset_card_of_nodup hv]
  constructor
  · intro hcard a ha
    have hsame : members.toFinset ∩ votes.toFinset = votes.toFinset :=
      Finset.eq_of_subset_of_card_le Finset.inter_subset_right hcard.ge
    have hin : a ∈ members.toFinset ∩ votes.toFinset := by rw [hsame]; simpa using ha
    simpa using (Finset.mem_inter.mp hin).1
  · intro hsub
    have hincl : votes.toFinset ⊆ members.toFinset := by
      intro a ha
      simpa using hsub a (by simpa using ha)
    rw [Finset.inter_eq_right.mpr hincl]

/-- A list of exactly `threshold` distinct voters is a quorum exactly when no voter has left. -/
theorem threshold_le_support_iff (hv : votes.Nodup) (hlen : votes.length = threshold) :
    threshold ≤ support members votes ↔ ∀ a ∈ votes, a ∈ members := by
  rw [← support_eq_length_iff hv, ← hlen]
  have hle := support_le_length members votes
  omega

/-- When a present member casts the vote that completes the count, there is a quorum
exactly when the voters before it are all still members. -/
theorem threshold_le_support_concat_iff {a : α} (hv : votes.Nodup) (hfirst : a ∉ votes)
    (hm : a ∈ members) (hlen : votes.length + 1 = threshold) :
    threshold ≤ support members (votes ++ [a]) ↔ ∀ b ∈ votes, b ∈ members := by
  have hnodup : (votes ++ [a]).Nodup :=
    hv.append (List.nodup_singleton a) (List.disjoint_singleton.mpr hfirst)
  have hlen' : (votes ++ [a]).length = threshold := by
    rw [List.length_append, List.length_singleton, hlen]
  rw [threshold_le_support_iff hnodup hlen', List.forall_mem_append, List.forall_mem_singleton]
  exact and_iff_left hm

/-- As many distinct members against as a quorum leaves room for, and one more,
leave too few for a quorum. -/
theorem remaining_lt (hv : votes.Nodup) (hsub : ∀ a ∈ votes, a ∈ members)
    (hlen : members.length - threshold + 1 ≤ votes.length) :
    remaining members votes < threshold := by
  have hincl : votes.toFinset ⊆ members.toFinset := by
    intro a ha
    simpa using hsub a (by simpa using ha)
  have hcard : votes.toFinset.card = votes.length := List.toFinset_card_of_nodup hv
  have hall : members.toFinset.card ≤ members.length := members.toFinset_card_le
  have hle : votes.toFinset.card ≤ members.toFinset.card := Finset.card_le_card hincl
  rw [remaining, Finset.card_sdiff_of_subset hincl]
  omega

end Quorum
