import AgenticPay.AuditRetention
import Mathlib.Tactic.Linarith

/-!
# Runs of the audit service

What is dropped is always the beginning of the chain, as long as archiving evicts no entry that was
logged after it has read the entries. Then no entry is lost, and the chain is valid at all times.
-/
namespace AuditService

open Awaits Transaction

def retained (s : State) : List LoggedEntry := s.entries.map (·.toLoggedEntry)

/-- The entry is in an archive that is complete. -/
def Archived (s : State) (entry : LoggedEntry) : Prop :=
  ∃ archive ∈ s.payloads, archive.id ∈ s.manifests ∧ entry ∈ archive.entries

/-- The entry is still there, or it has been written to an archive, or it was past the deletion age
when it was dropped. -/
def Accounted (s : State) (entry : LoggedEntry) : Prop :=
  entry ∈ retained s ∨ Archived s entry ∨ entry ∈ s.purged

/-- The entries and the hashes agree, the entries are in the order of their times, no two that were
logged have one identifier, and none of them is lost. -/
structure Kept (computeHash : String → String) (s : State) : Prop where
  chain : HashChain.follow (links computeHash) s.chainAnchor (retained s) = some s.currentHash
  sorted : (retained s).Pairwise (·.timestamp ≤ ·.timestamp)
  past : ∀ entry ∈ s.logged, entry.timestamp ≤ s.clock
  ids : (s.logged.map (·.id)).Nodup
  logged : retained s ⊆ s.logged
  accounted : ∀ entry ∈ s.logged, Accounted s entry

/-- The plan is one of entries that were logged. -/
def Read (policy : RetentionPolicy) (s : State) (plan : RetentionPlan) : Prop :=
  ∃ now ≤ s.clock, ∃ entries ⊆ s.logged, plan = planRetention policy now entries

def Holds (policy : RetentionPolicy) (s : State) : Waiting → Prop
  | .alerting _ => True
  | .makingDirectory plan => Read policy s plan
  | .writingPayload plan archive => Read policy s plan ∧ plan.archive ⊆ archive.entries
  | .writingManifest plan archive =>
    Read policy s plan ∧ plan.archive ⊆ archive.entries ∧ archive ∈ s.payloads
  | .enforced plan _ => Read policy s plan ∧ ∀ entry ∈ plan.archive, Archived s entry
  | .listing _ => True

/-! ## Conditions -/

def RetentionPlan.entries (plan : RetentionPlan) : List LoggedEntry :=
  plan.hot ++ plan.archive ++ plan.purge

/-- When archiving evicts, it has read all entries that are retained. -/
def Waiting.Complete (s : State) : Waiting → Prop
  | .alerting _ => True
  | .makingDirectory _ => True
  | .writingPayload _ _ => True
  | .writingManifest _ _ => True
  | .enforced plan _ => ∀ entry ∈ s.entries, entry.id ∈ plan.entries.map (·.id)
  | .listing _ => True

instance (s : State) : (task : Waiting) → Decidable (task.Complete s)
  | .alerting _ => isTrue trivial
  | .makingDirectory _ => isTrue trivial
  | .writingPayload _ _ => isTrue trivial
  | .writingManifest _ _ => isTrue trivial
  | .enforced plan _ =>
    inferInstanceAs (Decidable (∀ entry ∈ s.entries, entry.id ∈ plan.entries.map (·.id)))
  | .listing _ => isTrue trivial

def Undisturbed (g : Config State Waiting) : Act Call Told → Prop
  | .call .. => True
  | .resume i _ => ∀ task ∈ g.tasks[i]?, task.Complete g.state

instance (g : Config State Waiting) : (act : Act Call Told) → Decidable (Undisturbed g act)
  | .call .. => isTrue trivial
  | .resume i _ => inferInstanceAs (Decidable (∀ task ∈ g.tasks[i]?, task.Complete g.state))

variable {host : Host} {options : AuditServiceOptions} {policy : RetentionPolicy} {s s' : State}
  {computeHash : String → String} {now now' timestamp timestamp' : Int} {entry : LoggedEntry}
  {plan : RetentionPlan} {told : Told}

/-! ## Ages -/

theorem dayMs_pos : (0 : ℚ) < dayMs := by
  rw [dayMs]
  norm_num

theorem purge_iff : classifyAge timestamp now policy = .purge ↔
    policy.deleteAfterDays * dayMs ≤ ((now - timestamp : Int) : ℚ) := by
  rw [classifyAge, ← le_div_iff₀ dayMs_pos]
  split_ifs with hdelete harchive
  · exact iff_of_true rfl hdelete
  · exact iff_of_false nofun hdelete
  · exact iff_of_false nofun hdelete

theorem hot_iff : classifyAge timestamp now policy = .hot ↔
    ((now - timestamp : Int) : ℚ) < policy.deleteAfterDays * dayMs ∧
      ((now - timestamp : Int) : ℚ) < policy.archiveAfterDays * dayMs := by
  rw [classifyAge, ← div_lt_iff₀ dayMs_pos, ← div_lt_iff₀ dayMs_pos]
  split_ifs with hdelete harchive
  · exact iff_of_false nofun fun h => absurd h.1 (not_lt.mpr hdelete)
  · exact iff_of_false nofun fun h => absurd h.2 (not_lt.mpr harchive)
  · exact iff_of_true rfl ⟨not_le.mp hdelete, not_le.mp harchive⟩

/-- What is younger is hot as well. -/
theorem hot_mono (h : timestamp ≤ timestamp') (hhot : classifyAge timestamp now policy = .hot) :
    classifyAge timestamp' now policy = .hot := by
  have hage : ((now - timestamp' : Int) : ℚ) ≤ ((now - timestamp : Int) : ℚ) := by
    exact_mod_cast Int.sub_le_sub_left h now
  rw [hot_iff] at hhot ⊢
  exact ⟨hage.trans_lt hhot.1, hage.trans_lt hhot.2⟩

/-- What is past the deletion age stays so. -/
theorem purge_mono (h : now ≤ now') (hpurge : classifyAge timestamp now policy = .purge) :
    classifyAge timestamp now' policy = .purge := by
  have hage : ((now - timestamp : Int) : ℚ) ≤ ((now' - timestamp : Int) : ℚ) := by
    exact_mod_cast Int.sub_le_sub_right h timestamp
  rw [purge_iff] at hpurge ⊢
  exact hpurge.trans hage

/-- A condition that holds of the rest once it holds of an entry keeps an end of a sorted list. -/
theorem filter_suffix {α : Type*} {r : α → α → Prop} {p : α → Bool} {l : List α}
    (hl : l.Pairwise r) (hp : ∀ a b, r a b → p a = true → p b = true) :
    l.filter (! p ·) ++ l.filter p = l := by
  induction l with
  | nil => rfl
  | cons a l ih =>
    obtain ⟨ha, hrest⟩ := List.pairwise_cons.mp hl
    cases hpa : p a with
    | false =>
      rw [List.filter_cons_of_pos (by simp [hpa]), List.filter_cons_of_neg (by simp [hpa]),
        List.cons_append, ih hrest]
    | true =>
      have hall : ∀ b ∈ l, p b = true := fun b hb => hp a b (ha b hb) hpa
      have hnone : l.filter (! p ·) = [] := by
        rw [List.filter_eq_nil_iff]
        intro b hb
        simp [hall b hb]
      rw [List.filter_cons_of_neg (by simp [hpa]), List.filter_cons_of_pos (by simp [hpa]), hnone,
        List.filter_eq_self.mpr hall, List.nil_append]

/-! ## Steps -/

theorem kept_tick (told : Told) (h : Kept computeHash s) : Kept computeHash (s.tick told) where
  chain := h.chain
  sorted := h.sorted
  past entry hmem := (h.past entry hmem).trans (Int.le_add_of_nonneg_right (Int.natCast_nonneg _))
  ids := h.ids
  logged := h.logged
  accounted := h.accounted

/-- All that was logged and written is still there, and time has not gone back. -/
structure Extends (s s' : State) : Prop where
  clock : s.clock ≤ s'.clock
  logged : s.logged ⊆ s'.logged
  payloads : s.payloads ⊆ s'.payloads
  manifests : s.manifests ⊆ s'.manifests

theorem Extends.archived (h : Extends s s') (harchived : Archived s entry) : Archived s' entry := by
  obtain ⟨archive, hpayload, hmanifest, hentry⟩ := harchived
  exact ⟨archive, h.payloads hpayload, h.manifests hmanifest, hentry⟩

theorem Extends.read (h : Extends s s') (hread : Read policy s plan) : Read policy s' plan := by
  obtain ⟨now, hnow, entries, hentries, hplan⟩ := hread
  exact ⟨now, hnow.trans h.clock, entries, List.Subset.trans hentries h.logged, hplan⟩

/-- What a task knows stays true. -/
theorem Extends.holds (h : Extends s s') : ∀ task, Holds policy s task → Holds policy s' task
  | .alerting _, _ => trivial
  | .makingDirectory _, hread => h.read hread
  | .writingPayload _ _, ⟨hread, hentries⟩ => ⟨h.read hread, hentries⟩
  | .writingManifest _ _, ⟨hread, hentries, hpayload⟩ =>
    ⟨h.read hread, hentries, h.payloads hpayload⟩
  | .enforced _ _, ⟨hread, harchived⟩ =>
    ⟨h.read hread, fun entry hentry => h.archived (harchived entry hentry)⟩
  | .listing _, _ => trivial

theorem extends_tick (s : State) (told : Told) : Extends s (s.tick told) :=
  ⟨Int.le_add_of_nonneg_right (Int.natCast_nonneg _), List.Subset.refl _, List.Subset.refl _,
    List.Subset.refl _⟩

theorem Extends.trans {s'' : State} (h : Extends s s') (h' : Extends s' s'') : Extends s s'' :=
  ⟨h.clock.trans h'.clock, List.Subset.trans h.logged h'.logged,
    List.Subset.trans h.payloads h'.payloads, List.Subset.trans h.manifests h'.manifests⟩

/-- What is not in the files or in what was logged may change. -/
theorem Extends.of_eq (hclock : s'.clock = s.clock) (hlogged : s'.logged = s.logged)
    (hpayloads : s'.payloads = s.payloads) (hmanifests : s'.manifests = s.manifests) :
    Extends s s' :=
  ⟨hclock.ge, hlogged ▸ List.Subset.refl _, hpayloads ▸ List.Subset.refl _,
    hmanifests ▸ List.Subset.refl _⟩

/-! ## Logging and flagging -/

/-- The state with an entry at its end. -/
def State.add (entry : LoggedEntry) (s : State) : State :=
  { s with
    entries := s.entries ++ [⟨entry, none, none⟩]
    currentHash := entry.hash
    logged := s.logged ++ [entry] }

theorem retained_add : retained (s.add entry) = retained s ++ [entry] := by
  rw [retained, State.add, List.map_append, List.map_singleton, retained]

theorem extends_add : Extends s (s.add entry) :=
  ⟨le_refl _, List.subset_append_left _ _, List.Subset.refl _, List.Subset.refl _⟩

theorem Accounted.mono (h : Extends s s') (hretained : retained s ⊆ retained s')
    (hpurged : s.purged ⊆ s'.purged) (haccounted : Accounted s entry) : Accounted s' entry := by
  obtain hretain | harchived | hpurge := haccounted
  · exact .inl (hretained hretain)
  · exact .inr (.inl (h.archived harchived))
  · exact .inr (.inr (hpurged hpurge))

/-- An entry that is linked to the head and logged now. -/
theorem kept_add (h : Kept computeHash s) (htime : entry.timestamp = s.clock)
    (hprevious : entry.previousHash = s.currentHash)
    (hhash : entry.hash = generateEntryHash computeHash entry.toAuditContent)
    (hfresh : entry.id ∉ s.logged.map (·.id)) : Kept computeHash (s.add entry) where
  chain := by
    rw [retained_add]
    exact HashChain.follow_snoc h.chain ⟨hprevious, hhash.symm⟩
  sorted := by
    rw [retained_add, List.pairwise_append]
    refine ⟨h.sorted, List.pairwise_singleton _ _, fun old hold new hnew => ?_⟩
    obtain rfl := List.mem_singleton.mp hnew
    exact htime ▸ h.past old (h.logged hold)
  past e hmem := by
    obtain hold | hnew := List.mem_append.mp hmem
    · exact h.past e hold
    · obtain rfl := List.mem_singleton.mp hnew
      exact htime.le
  ids := by
    rw [State.add, List.map_append, List.map_singleton]
    exact h.ids.append (List.nodup_singleton _) (List.disjoint_singleton.mpr hfresh)
  logged := by
    rw [retained_add]
    exact List.append_subset.mpr ⟨List.Subset.trans h.logged (List.subset_append_left _ _),
      List.subset_append_right _ _⟩
  accounted e hmem := by
    obtain hold | hnew := List.mem_append.mp hmem
    · refine (h.accounted e hold).mono extends_add ?_ (List.Subset.refl _)
      rw [retained_add]
      exact List.subset_append_left _ _
    · refine .inl ?_
      rw [retained_add]
      exact List.mem_append_right _ hnew

theorem retained_flagFirst (entryId : String) (reasons : List String) (entries : List AuditEntry) :
    (flagFirst entryId reasons entries).map (·.toLoggedEntry) =
      entries.map (·.toLoggedEntry) := by
  induction entries with
  | nil => rfl
  | cons entry rest ih =>
    rw [flagFirst]
    split
    · rfl
    · rw [List.map_cons, ih, List.map_cons]

/-- Flags are no part of what was logged. -/
theorem kept_flag {entries : List AuditEntry} (h : Kept computeHash s)
    (hsame : entries.map (·.toLoggedEntry) = retained s) :
    Kept computeHash { s with entries } where
  chain := by
    rw [retained, hsame]
    exact h.chain
  sorted := by
    rw [retained, hsame]
    exact h.sorted
  past := h.past
  ids := h.ids
  logged := by
    rw [retained, hsame]
    exact h.logged
  accounted e hmem := by
    have hextends : Extends s { s with entries } := .of_eq rfl rfl rfl rfl
    have hretained : retained s ⊆ retained { s with entries } := by
      rw [← hsame]
      exact List.Subset.refl _
    exact (h.accounted e hmem).mono hextends hretained (List.Subset.refl _)

/-! ## Retention -/

section Evict

variable {kept : AuditEntry → Bool} {p : LoggedEntry → Bool}

theorem retained_advance (evicted : List AuditEntry) (s : State) :
    retained (advanceChainAnchor evicted s) = retained s := by
  rw [advanceChainAnchor]
  split <;> rfl

theorem extends_evict (policy : RetentionPolicy) (kept : AuditEntry → Bool) (s : State) :
    Extends s (evict policy kept s) := by
  dsimp only [evict, advanceChainAnchor]
  split <;> exact .of_eq rfl rfl rfl rfl

/-- What is kept depends on what was logged alone. -/
theorem map_filter (hp : ∀ entry ∈ s.entries, kept entry = p entry.toLoggedEntry) :
    (s.entries.filter kept).map (·.toLoggedEntry) = (retained s).filter p ∧
      (s.entries.filter (! kept ·)).map (·.toLoggedEntry) = (retained s).filter (! p ·) := by
  rw [retained, List.filter_map, List.filter_map]
  refine ⟨congrArg _ (List.filter_congr hp), congrArg _ (List.filter_congr fun entry hmem => ?_)⟩
  rw [hp entry hmem]
  rfl

theorem retained_evict (hp : ∀ entry ∈ s.entries, kept entry = p entry.toLoggedEntry) :
    retained (evict policy kept s) = (retained s).filter p := by
  rw [evict, retained_advance]
  exact (map_filter hp).1

theorem purged_evict (hp : ∀ entry ∈ s.entries, kept entry = p entry.toLoggedEntry) :
    (evict policy kept s).purged =
      s.purged ++ ((retained s).filter (! p ·)).filter (pastDeletion policy s.clock) := by
  rw [← (map_filter hp).2]
  dsimp only [evict, advanceChainAnchor]
  split <;> rfl

@[simp] theorem logged_evict (policy : RetentionPolicy) (kept : AuditEntry → Bool) (s : State) :
    (evict policy kept s).logged = s.logged := by
  dsimp only [evict, advanceChainAnchor]
  split <;> rfl

theorem currentHash_evict : (evict policy kept s).currentHash = s.currentHash := by
  dsimp only [evict, advanceChainAnchor]
  split <;> rfl

/-- The anchor goes on to the first entry that stays, or to the head. -/
theorem anchor_evict (hp : ∀ entry ∈ s.entries, kept entry = p entry.toLoggedEntry) :
    (evict policy kept s).chainAnchor = if (retained s).filter (! p ·) = [] then s.chainAnchor
      else (((retained s).filter p).head?.map (·.previousHash)).getD s.currentHash := by
  obtain ⟨hkept, hevicted⟩ := map_filter hp
  rw [← hkept, ← hevicted]
  dsimp only [evict, advanceChainAnchor]
  cases hlist : s.entries.filter (! kept ·) with
  | nil => simp
  | cons entry rest => simp [List.head?_map, Function.comp_def]

/-- An entry that goes is archived, or purged now. -/
theorem accounted_evict (h : ∀ entry ∈ s.logged, Accounted s entry)
    (hp : ∀ entry ∈ s.entries, kept entry = p entry.toLoggedEntry)
    (hgone : ∀ entry ∈ retained s, p entry = false →
      Archived s entry ∨ pastDeletion policy s.clock entry = true) :
    ∀ entry ∈ (evict policy kept s).logged, Accounted (evict policy kept s) entry := by
  have hextends := extends_evict policy kept s
  rw [logged_evict]
  intro entry hmem
  obtain hretain | harchived | hpurge := h entry hmem
  · cases hpe : p entry with
    | true =>
      refine .inl ?_
      rw [retained_evict hp]
      exact List.mem_filter.mpr ⟨hretain, hpe⟩
    | false =>
      obtain harchived | hpast := hgone entry hretain hpe
      · exact .inr (.inl (hextends.archived harchived))
      · refine .inr (.inr ?_)
        rw [purged_evict hp]
        have hdropped : entry ∈ (retained s).filter (! p ·) :=
          List.mem_filter.mpr ⟨hretain, by rw [hpe]; rfl⟩
        exact List.mem_append_right _ (List.mem_filter.mpr ⟨hdropped, hpast⟩)
  · exact .inr (.inl (hextends.archived harchived))
  · refine .inr (.inr ?_)
    rw [purged_evict hp]
    exact List.mem_append_left _ hpurge

/-- The entries that go are a beginning of the chain, and each of them is accounted for. -/
theorem kept_evict (h : Kept computeHash s)
    (hp : ∀ entry ∈ s.entries, kept entry = p entry.toLoggedEntry)
    (hmono : ∀ a b : LoggedEntry, a.timestamp ≤ b.timestamp → p a = true → p b = true)
    (hgone : ∀ entry ∈ retained s, p entry = false →
      Archived s entry ∨ pastDeletion policy s.clock entry = true) :
    Kept computeHash (evict policy kept s) := by
  have hextends := extends_evict policy kept s
  have hsplit := filter_suffix h.sorted hmono
  refine ⟨?_, ?_, ?_, ?_, ?_, accounted_evict h.accounted hp hgone⟩
  · rw [retained_evict hp, currentHash_evict, anchor_evict hp]
    have hchain := h.chain
    rw [← hsplit] at hchain
    split
    next hnil => rwa [hnil, List.nil_append] at hchain
    next => exact HashChain.follow_suffix hchain
  · rw [retained_evict hp]
    exact h.sorted.sublist List.filter_sublist
  · rw [logged_evict]
    exact fun entry hmem => (h.past entry hmem).trans hextends.clock
  · rw [logged_evict]
    exact h.ids
  · rw [retained_evict hp, logged_evict]
    exact List.Subset.trans (List.filter_subset_self _) h.logged

end Evict

theorem kept_clearOldEntries (h : Kept host.computeHash s) :
    Kept host.computeHash (clearOldEntries options s).2 := by
  rw [clearOldEntries]
  refine kept_evict (p := fun entry =>
      decide ((s.clock : ℚ) - options.policy.deleteAfterDays * dayMs ≤ (entry.timestamp : ℚ))) h
    (fun _ _ => rfl) (fun a b hab ha => ?_) fun entry _ hgone => .inr ?_
  · have hle : (a.timestamp : ℚ) ≤ b.timestamp := by exact_mod_cast hab
    exact decide_eq_true ((of_decide_eq_true ha).trans hle)
  · have hlt := not_le.mp (of_decide_eq_false hgone)
    refine decide_eq_true (purge_iff.mpr ?_)
    push_cast
    linarith

/-- Of two entries that were logged, the identifier tells which it is. -/
theorem eq_of_id (h : Kept computeHash s) {x y : LoggedEntry} (hx : x ∈ s.logged)
    (hy : y ∈ s.logged) (hid : x.id = y.id) : x = y :=
  List.inj_on_of_nodup_map h.ids hx hy hid

/-- Where the plan has read all that is retained, it keeps what was hot. -/
theorem hot_iff_read {entries : List LoggedEntry} (h : Kept computeHash s)
    (hentries : entries ⊆ s.logged) (hmem : entry ∈ retained s)
    (hread : entry.id ∈ (planRetention policy now entries).entries.map (·.id)) :
    ((planRetention policy now entries).hot.any (·.id = entry.id) = true ↔
      classifyAge entry.timestamp now policy = .hot) ∧ entry ∈ entries := by
  have hlogged := h.logged hmem
  have hin : entry ∈ entries := by
    obtain ⟨x, hx, hid⟩ := List.mem_map.mp hread
    have hx : x ∈ entries := by
      rw [RetentionPlan.entries, List.mem_append, List.mem_append] at hx
      obtain (hx | hx) | hx := hx <;> exact List.mem_of_mem_filter hx
    rwa [← eq_of_id h (hentries hx) hlogged hid]
  refine ⟨⟨fun hany => ?_, fun hhot => ?_⟩, hin⟩
  · obtain ⟨x, hx, hid⟩ := List.any_eq_true.mp hany
    obtain ⟨hmem, hhot⟩ := List.mem_filter.mp hx
    rw [← eq_of_id h (hentries hmem) hlogged (of_decide_eq_true hid)]
    exact of_decide_eq_true hhot
  · exact List.any_eq_true.mpr ⟨entry, List.mem_filter.mpr ⟨hin, decide_eq_true hhot⟩,
      decide_eq_true rfl⟩

theorem kept_evictUnread {archiveIds : List String} (h : Kept host.computeHash s)
    (hholds : Holds options.policy s (.enforced plan archiveIds))
    (hcomplete : (Waiting.enforced plan archiveIds).Complete s) :
    Kept host.computeHash (evictUnread options plan archiveIds s).2 := by
  obtain ⟨⟨now, hnow, entries, hentries, rfl⟩, harchived⟩ := hholds
  rw [evictUnread]
  have hread : ∀ entry ∈ retained s,
      entry.id ∈ (planRetention options.policy now entries).entries.map (·.id) := by
    intro entry hmem
    obtain ⟨e, he, rfl⟩ := List.mem_map.mp hmem
    exact hcomplete e he
  refine kept_evict (p := fun entry => classifyAge entry.timestamp now options.policy = .hot) h
    (fun entry hmem => ?_) (fun a b hab ha => decide_eq_true (hot_mono hab (of_decide_eq_true ha)))
    fun entry hmem hgone => ?_
  · have hretained : entry.toLoggedEntry ∈ retained s := List.mem_map_of_mem hmem
    have hiff := (hot_iff_read h hentries hretained (hread _ hretained)).1
    exact Bool.eq_iff_iff.mpr (hiff.trans decide_eq_true_iff.symm)
  · have hin := (hot_iff_read h hentries hmem (hread entry hmem)).2
    cases htier : classifyAge entry.timestamp now options.policy with
    | hot => exact absurd htier (of_decide_eq_false hgone)
    | archive => exact .inl (harchived entry (List.mem_filter.mpr ⟨hin, decide_eq_true htier⟩))
    | purge => exact .inr (decide_eq_true (purge_mono hnow htier))

/-! ## Turns -/

/-- What a turn leaves of what was kept before it. -/
structure Goes (host : Host) (options : AuditServiceOptions) (s : State) (ends : Ends) : Prop where
  kept : Kept host.computeHash ends.2
  later : Extends s ends.2
  tasks : ∀ task ∈ ends.1.tasks, Holds options.policy ends.2 task

theorem goes_done {r : Except Unit Response} (h : Kept host.computeHash s')
    (hextends : Extends s s') : Goes host options s (.done r, s') :=
  ⟨h, hextends, fun _ hmem => absurd hmem List.not_mem_nil⟩

theorem goes_waits {task : Waiting} (h : Kept host.computeHash s') (hextends : Extends s s')
    (htask : Holds options.policy s' task) : Goes host options s (.waits task, s') :=
  ⟨h, hextends, fun t hmem => by
    obtain rfl := List.mem_singleton.mp hmem
    exact htask⟩

theorem goes_alerted (h : Kept host.computeHash s') (hextends : Extends s s') :
    Goes host options s (alerted options entry s') := by
  rw [alerted]
  split
  · exact goes_waits h hextends trivial
  · exact goes_done h hextends

theorem read_planRetention (policy : RetentionPolicy) (h : Kept host.computeHash s) :
    Read policy s (planRetention policy s.clock (retained s)) :=
  ⟨s.clock, le_refl _, retained s, h.logged, rfl⟩

theorem goes_call (options : AuditServiceOptions) (c : Call) (told : Told)
    (h : Kept host.computeHash s) (hfresh : told.uuid ∉ s.logged.map (·.id)) :
    Goes host options s (call host options c told s) := by
  cases c with
  | logAction params => exact goes_alerted (kept_add h rfl rfl rfl hfresh) extends_add
  | flagSuspicious entryId reasons =>
    rw [call, flagSuspicious]
    split
    · exact goes_done h (.of_eq rfl rfl rfl rfl)
    · exact goes_alerted (kept_flag h (retained_flagFirst _ _ _)) (.of_eq rfl rfl rfl rfl)
  | clearOldEntries => exact goes_done (kept_clearOldEntries h) (extends_evict _ _ _)
  | archiveOldEntries =>
    have hread := read_planRetention options.policy h
    rw [call, archiveOldEntries]
    split
    next hempty =>
      refine goes_waits h (.of_eq rfl rfl rfl rfl) ⟨hread, fun entry hmem => ?_⟩
      rw [List.isEmpty_iff.mp hempty] at hmem
      exact absurd hmem List.not_mem_nil
    next => exact goes_waits h (.of_eq rfl rfl rfl rfl) hread

theorem newArchive_entries (entries : List LoggedEntry) :
    entries ⊆ (newArchive entries).entries := by
  dsimp only [newArchive]
  split <;> exact fun _ h => List.mem_mergeSort.mpr h

/-- Files that are added leave the entries. -/
theorem kept_files {payloads : List Archive} {manifests : List String}
    (h : Kept host.computeHash s) (hpayloads : s.payloads ⊆ payloads)
    (hmanifests : s.manifests ⊆ manifests) :
    Kept host.computeHash { s with payloads, manifests } where
  chain := h.chain
  sorted := h.sorted
  past := h.past
  ids := h.ids
  logged := h.logged
  accounted e hmem := by
    have hextends : Extends s { s with payloads, manifests } :=
      ⟨le_refl _, List.Subset.refl _, hpayloads, hmanifests⟩
    exact (h.accounted e hmem).mono hextends (List.Subset.refl _) (List.Subset.refl _)

theorem goes_resume (told : Told) {task : Waiting} (h : Kept host.computeHash s)
    (hholds : Holds options.policy s task) (hcomplete : task.Complete s) :
    Goes host options s (resume options task told s) := by
  have hsame : Extends s s := .of_eq rfl rfl rfl rfl
  cases task with
  | alerting entry => exact goes_done h hsame
  | makingDirectory plan =>
    rw [resume]
    split
    · exact goes_done h hsame
    · exact goes_waits h hsame ⟨hholds, newArchive_entries _⟩
  | writingPayload plan archive =>
    obtain ⟨hread, hentries⟩ := hholds
    rw [resume]
    split
    · exact goes_done h hsame
    · have hextends : Extends s { s with payloads := s.payloads ++ [archive] } :=
        ⟨le_refl _, List.Subset.refl _, List.subset_append_left _ _, List.Subset.refl _⟩
      exact goes_waits (kept_files h hextends.payloads hextends.manifests) hextends
        ⟨hextends.read hread, hentries, List.mem_append_right _ (List.mem_singleton_self _)⟩
  | writingManifest plan archive =>
    obtain ⟨hread, hentries, hpayload⟩ := hholds
    rw [resume]
    split
    · exact goes_done h hsame
    · have hextends : Extends s { s with manifests := s.manifests ++ [archive.id] } :=
        ⟨le_refl _, List.Subset.refl _, List.Subset.refl _, List.subset_append_left _ _⟩
      refine goes_waits (kept_files h hextends.payloads hextends.manifests) hextends
        ⟨hextends.read hread, fun entry hmem => ⟨archive, hpayload, ?_, hentries hmem⟩⟩
      exact List.mem_append_right _ (List.mem_singleton_self _)
  | enforced plan archiveIds =>
    exact goes_waits (kept_evictUnread h hholds hcomplete) (extends_evict _ _ _) trivial
  | listing result =>
    rw [resume]
    split <;> exact goes_done h hsame

theorem Goes.leaves {g : Config State Waiting} {ends : Ends}
    (h : Goes host options (g.state.tick told) ends) :
    Leaves (Kept host.computeHash) (Holds options.policy) g ends.1 ends.2 where
  state := h.kept
  stable task _ hholds := ((extends_tick _ _).trans h.later).holds task hholds
  tasks := h.tasks

theorem keeps_service : Keeps (service host options) Undisturbed (Kept host.computeHash)
    (Holds options.policy) where
  call := by
    intro g c told t s _ hsound hcall
    dsimp only [service] at hcall
    split at hcall
    next => contradiction
    next hfresh =>
      have hgoes := goes_call options c told (kept_tick told hsound.state) fun hmem => hfresh ?_
      · rw [Option.some.inj hcall] at hgoes
        exact hgoes.leaves
      · obtain ⟨entry, hentry, hid⟩ := List.mem_map.mp hmem
        exact List.any_eq_true.mpr ⟨entry, hentry, decide_eq_true hid⟩
  resume := by
    intro g i told task t s hundisturbed hsound hwaiting hresume
    have hholds := (extends_tick g.state told).holds task
      (hsound.tasks task (List.mem_of_getElem? hwaiting))
    have hgoes := goes_resume told (kept_tick told hsound.state) hholds
      (hundisturbed task hwaiting)
    have hends : resume options task told (g.state.tick told) = (t, s) := hresume
    rw [hends] at hgoes
    exact hgoes.leaves

/-! ## Runs -/

@[simp] theorem alerted_state (entry : LoggedEntry) (s : State) :
    (alerted options entry s).2 = s := by
  rw [alerted]
  split <;> rfl

theorem logged_call (host : Host) (options : AuditServiceOptions) (c : Call) (told : Told)
    (s : State) : s.logged <+: (call host options c told s).2.logged := by
  cases c with
  | logAction params =>
    rw [call, logAction, alerted_state]
    exact List.prefix_append _ _
  | flagSuspicious entryId reasons =>
    rw [call, flagSuspicious]
    split <;> simp
  | clearOldEntries => simp [call, clearOldEntries]
  | archiveOldEntries =>
    rw [call, archiveOldEntries]
    split <;> simp

theorem logged_resume (options : AuditServiceOptions) (task : Waiting) (told : Told) (s : State) :
    (resume options task told s).2.logged = s.logged := by
  cases task with
  | enforced plan archiveIds => simp [resume, evictUnread]
  | alerting entry => rfl
  | _ =>
    rw [resume]
    split <;> rfl

theorem logged_commit (g : Config State Waiting) (act : Act Call Told) :
    g.state.logged <+: (commit (machine (service host options)) g act).state.logged := by
  obtain hmoves | he := commit_moves (service host options) g act
  · generalize commit (machine (service host options)) g act = g' at hmoves
    cases hmoves with
    | @called c told t s hcalled =>
      dsimp only [service] at hcalled
      split at hcalled
      next => contradiction
      next =>
        have hlogged := logged_call host options c told (g.state.tick told)
        rwa [Option.some.inj hcalled] at hlogged
    | @resumed i told task t s waiting hresumed =>
      have hends : resume options task told (g.state.tick told) = (t, s) := hresumed
      have hlogged := logged_resume options task told (g.state.tick told)
      rw [hends] at hlogged
      rw [show s.logged = g.state.logged from hlogged]
  · rw [he]

/-- A service without entries, at any time and over any files. -/
def started (payloads : List Archive) (manifests : List String) (clock : Int) :
    Config State Waiting :=
  ⟨⟨[], "0000000000000000000000000000000000000000000000000000000000000000",
    "0000000000000000000000000000000000000000000000000000000000000000", payloads, manifests, clock,
    [], []⟩, []⟩

theorem sound_started (payloads : List Archive) (manifests : List String) (clock : Int) :
    Sound (Kept host.computeHash) (Holds options.policy) (started payloads manifests clock) where
  state := ⟨rfl, List.Pairwise.nil, fun _ h => absurd h List.not_mem_nil, List.nodup_nil,
    List.Subset.refl _, fun _ h => absurd h List.not_mem_nil⟩
  tasks _ h := absurd h List.not_mem_nil

/-- In every run in which archiving evicts no entry that it has not read: what was logged at any
time is accounted for at the end, and the chain is valid. -/
theorem audit_run {payloads : List Archive} {manifests : List String} {clock : Int}
    {acts more : List (Act Call Told)}
    (h : Along (machine (service host options)) Undisturbed (started payloads manifests clock)
      (acts ++ more)) :
    let s := (run (machine (service host options)) (started payloads manifests clock)
      (acts ++ more)).state
    (∀ entry ∈ (run (machine (service host options)) (started payloads manifests clock)
        acts).state.logged, Accounted s entry) ∧
      (verifyIntegrity host.computeHash s.chainAnchor s.currentHash s.entries).valid = true := by
  have hkept := (sound_run keeps_service h (sound_started payloads manifests clock)).state
  refine ⟨fun entry hmem => hkept.accounted entry ?_, verifyIntegrity_valid.mpr hkept.chain⟩
  rw [run_append]
  refine (run_preserves (I := fun g : Config State Waiting => _ <+: g.state.logged)
    (fun g act hbegins => hbegins.trans (logged_commit g act)) List.prefix_rfl more).subset hmem

/-! ## An entry that is logged while archiving waits -/

/-- Texts that are short and plain are safe as they are. -/
def plainHost : Host :=
  ⟨fun text => text, fun text _ => text, fun details => details, fun body => body⟩

def oneDay : AuditServiceOptions := ⟨⟨1, 2⟩, false⟩

def loginParams : LogParams :=
  ⟨none, "login", "session", none, none, none, none, none, none, none, none, none, none, none⟩

/-- An entry, and archiving half a day later. -/
def archivingBegun : List (Act Call Told) :=
  [.call (.logAction loginParams) ⟨0, "first", false⟩,
    .call .archiveOldEntries ⟨43200000, "unused", false⟩]

def archivingEnds : Act Call Told := .resume 0 ⟨0, "unused", false⟩

def loggedBetween : Act Call Told := .call (.logAction loginParams) ⟨1, "second", false⟩

theorem archiving_accounted :
    let s := (run (machine (service plainHost oneDay)) (started [] [] 0)
      (archivingBegun ++ [archivingEnds])).state
    (∀ entry ∈ (run (machine (service plainHost oneDay)) (started [] [] 0)
        archivingBegun).state.logged, Accounted s entry) ∧
      (verifyIntegrity plainHost.computeHash s.chainAnchor s.currentHash s.entries).valid = true :=
  audit_run (by decide +kernel)

/-- The entry is neither kept nor archived, and the head is left without it. -/
theorem loggedBetween_lost :
    let s := (run (machine (service plainHost oneDay)) (started [] [] 0)
      (archivingBegun ++ [loggedBetween, archivingEnds])).state
    (∃ entry ∈ s.logged, ¬ Accounted s entry) ∧
      (verifyIntegrity plainHost.computeHash s.chainAnchor s.currentHash s.entries).valid =
        false := by
  intro s
  refine ⟨?_, by decide +kernel⟩
  have hlogged : ∃ entry ∈ s.logged, entry.id = "second" := by decide +kernel
  obtain ⟨entry, hmem, hid⟩ := hlogged
  refine ⟨entry, hmem, ?_⟩
  rintro (hretained | ⟨archive, hpayload, -⟩ | hpurged)
  · have hfirst : ∀ entry ∈ retained s, entry.id = "first" := by decide +kernel
    exact absurd (hid.symm.trans (hfirst entry hretained)) (by decide)
  · have hnone : s.payloads.length = 0 := by decide +kernel
    rw [List.length_eq_zero_iff.mp hnone] at hpayload
    exact absurd hpayload List.not_mem_nil
  · have hnone : s.purged.length = 0 := by decide +kernel
    rw [List.length_eq_zero_iff.mp hnone] at hpurged
    exact absurd hpurged List.not_mem_nil

end AuditService
