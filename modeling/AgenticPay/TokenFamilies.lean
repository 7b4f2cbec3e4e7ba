import AgenticPay.TokenRotation
import Mathlib.Algebra.Order.Group.Int

/-!
# Families of refresh tokens

A turn adds a token, takes tokens out of use or deletes them. A token is added for the family of one
that a call has found live, possibly long before. So a family keeps its user and its deadline in
every interleaving, a family whose tokens are all revoked while no call holds one of them stays
revoked, and every live token of a family beyond the first is due to a rotation that came too late.
-/
namespace TokenRotation

open Records Awaits Transaction

/-- What a turn makes of the rows. -/
inductive Writes (hashToken : String → String) (told : Told) (task : Task) (rows : Rows) :
    Rows → Prop
  | same : Writes hashToken told task rows rows
  | first {family rawRefresh slidingExpiresAt}
      (waited : task = .creating family rawRefresh slidingExpiresAt)
      (fresh : rows.get told.id = none) :
      Writes hashToken told task rows
        (rows.set (firstToken hashToken family told.id rawRefresh slidingExpiresAt))
  | next {existing rawNew now config old} (waited : task = .rotating existing rawNew now config)
      (fresh : rows.get told.id = none)
      (found : (rows.set (nextToken hashToken existing told.id rawNew now
        (now + config.slidingTtlMs))).get existing.id = some old) :
      Writes hashToken told task rows ((rows.set (nextToken hashToken existing told.id rawNew now
        (now + config.slidingTtlMs))).set (old.revoke .rotated))
  | revoked {row reason} (found : rows.get row.id = some row) :
      Writes hashToken told task rows (rows.set (row.revoke reason))
  | revokedMany {p reason} : Writes hashToken told task rows (updateMany p reason rows)
  | deleted {p} : Writes hashToken told task rows (deleteMany p rows)

/-- What a turn leaves to wait for. -/
inductive Follows (task : Task) (rows : Rows) : Task → Prop
  | checking {existing now config} (found : existing ∈ rows) (live : existing.revoked = false) :
      Follows task rows (.checking existing now config)
  | counting {existing now config} (waited : task = .checking existing now config) :
      Follows task rows (.counting existing now config)
  | rotating {existing rawNew now config}
      (waited : task = .checking existing now config ∨ task = .counting existing now config)
      (current : isExpired now existing = false) :
      Follows task rows (.rotating existing rawNew now config)
  | reused {existing} (found : existing ∈ rows) :
      Follows task rows (.blacklisting existing.familyId .rotation)
  | revokingFamily {familyId after} (waited : task = .blacklisting familyId after) :
      Follows task rows (.revokingFamily familyId after)
  | signOut {userId tenantId familyId families}
      (listed : familyId :: families =
          ((rows.records.filter (ofUser userId tenantId)).map RefreshToken.familyId).dedup ∨
        ∃ before, task =
          .revokingFamily before (.signOut userId tenantId (familyId :: families))) :
      Follows task rows (.blacklisting familyId (.signOut userId tenantId families))
  | expiring {existing} : Follows task rows (.expiring existing)
  | revoking {tokenHash} : Follows task rows (.revoking tokenHash)
  | updatingAll {userId tenantId} : Follows task rows (.updatingAll userId tenantId)

variable {hashToken : String → String} {told : Told} {task next : Task} {s : State}
  {rows rows' : Rows} {row existing : RefreshToken} {response : Response} {id familyId : String}
  {reason : RevokeReason} {now : Int} {config : TokenRotationConfig} {g : Service}
  {families : Table Family.familyId}

theorem create_some (h : create row rows = some rows') :
    rows.get row.id = none ∧ rows' = rows.set row := by
  rw [create] at h
  split_ifs at h with hany
  refine ⟨?_, (Option.some.inj h).symm⟩
  rw [Table.get_eq_none]
  intro hmem
  obtain ⟨r, hr, hid⟩ := List.mem_map.mp hmem
  exact hany (List.any_eq_true.mpr ⟨r, hr, by simp [hid]⟩)

theorem findUnique_mem {tokenHash : String} (h : findUnique tokenHash rows = some row) :
    row ∈ rows := List.mem_of_find?_eq_some h

theorem update_some {target : Option RefreshToken} (h : update target reason rows = some rows') :
    ∃ row, target = some row ∧ rows' = rows.set (row.revoke reason) := by
  obtain ⟨row, htarget, hset⟩ := Option.map_eq_some_iff.mp h
  exact ⟨row, htarget, hset.symm⟩

theorem written_rows {result : Option Rows} :
    (written response s result).2.rows = result.getD s.rows := by
  cases result <;> rfl

theorem written_families {result : Option Rows} :
    (written response s result).2.families = s.families := by
  cases result <;> rfl

theorem written_tasks {result : Option Rows} : (written response s result).1.tasks = [] := by
  cases result <;> rfl

theorem writes_update {target : Option RefreshToken} (h : ∀ row ∈ target, row ∈ rows) :
    Writes hashToken told task rows ((update target reason rows).getD rows) := by
  cases hupdate : update target reason rows with
  | none => exact .same
  | some rows' =>
    obtain ⟨row, htarget, rfl⟩ := update_some hupdate
    exact .revoked (Table.get_of_mem (h row htarget))

theorem mem_of_get (h : rows.get id = some row) : row ∈ rows := (Table.get_some h).1

/-- Each turn writes in one of these ways. -/
theorem resume_writes (hashToken : String → String) (task : Task) (told : Told) (s : State) :
    Writes hashToken told task s.rows (resume hashToken task told s).2.rows := by
  cases task with
  | creating family rawRefresh slidingExpiresAt =>
    show Writes _ _ _ _ (written _ _ _).2.rows
    rw [written_rows]
    cases hcreate : create (firstToken hashToken family told.id rawRefresh slidingExpiresAt)
        (s.tick told.elapsed).rows with
    | none => exact .same
    | some rows' =>
      obtain ⟨hfresh, rfl⟩ := create_some hcreate
      exact .first rfl hfresh
  | finding rawToken now config => exact .same
  | checking existing now config =>
    rw [resume]
    split_ifs <;> exact .same
  | counting existing now config =>
    rw [resume]
    split_ifs <;> exact .same
  | expiring existing =>
    show Writes _ _ _ _ (written _ _ _).2.rows
    rw [written_rows]
    exact writes_update fun row hrow => mem_of_get hrow
  | rotating existing rawNew now config =>
    show Writes _ _ _ _ (written _ _ _).2.rows
    rw [written_rows]
    cases hrotate : rotate hashToken existing rawNew now config told.id
        (s.tick told.elapsed).rows with
    | none => exact .same
    | some rows' =>
      obtain ⟨created, hcreate, hupdate⟩ := Option.bind_eq_some_iff.mp hrotate
      obtain ⟨hfresh, rfl⟩ := create_some hcreate
      obtain ⟨old, hfound, rfl⟩ := update_some hupdate
      exact .next rfl hfresh hfound
  | blacklisting familyId after =>
    rw [resume]
    split_ifs <;> exact .same
  | revokingFamily familyId after => exact .revokedMany
  | seeking rawToken =>
    rw [resume]
    split
    · exact .same
    · split_ifs <;> exact .same
  | revoking tokenHash =>
    show Writes _ _ _ _ (written _ _ _).2.rows
    rw [written_rows]
    exact writes_update fun row hrow => findUnique_mem hrow
  | listing userId tenantId => exact .same
  | updatingAll userId tenantId => exact .revokedMany
  | pruning now => exact .deleted

theorem resume_families (hashToken : String → String) (task : Task) (told : Told) (s : State) :
    (resume hashToken task told s).2.families = s.families := by
  cases task with
  | creating family rawRefresh slidingExpiresAt => exact written_families
  | expiring existing => exact written_families
  | rotating existing rawNew now config => exact written_families
  | revoking tokenHash => exact written_families
  | finding rawToken now config => rfl
  | checking existing now config =>
    rw [resume]
    split_ifs <;> rfl
  | counting existing now config =>
    rw [resume]
    split_ifs <;> rfl
  | blacklisting familyId after =>
    rw [resume]
    split_ifs <;> rfl
  | seeking rawToken =>
    rw [resume]
    split
    · rfl
    · split_ifs <;> rfl
  | revokingFamily familyId after => rfl
  | listing userId tenantId => rfl
  | updatingAll userId tenantId => rfl
  | pruning now => rfl

theorem found_follows {target : Option RefreshToken} (h : ∀ row ∈ target, row ∈ rows)
    (hnext : next ∈ (found now config target).tasks) : Follows task rows next := by
  cases target with
  | none => exact absurd hnext List.not_mem_nil
  | some existing =>
    rw [found] at hnext
    split_ifs at hnext with hrevoked
    · obtain rfl := List.mem_singleton.mp hnext
      exact .reused (h existing rfl)
    · obtain rfl := List.mem_singleton.mp hnext
      exact .checking (h existing rfl) (Bool.eq_false_iff.mpr hrevoked)

theorem unrevoked_follows {secret : String}
    (hwaited : task = .checking existing now config ∨ task = .counting existing now config)
    (hnext : next ∈ (unrevoked existing now config secret).tasks) : Follows task rows next := by
  rw [unrevoked] at hnext
  split_ifs at hnext with hexpired
  · obtain rfl := List.mem_singleton.mp hnext
    exact .expiring
  · obtain rfl := List.mem_singleton.mp hnext
    exact .rotating hwaited (Bool.eq_false_iff.mpr hexpired)

theorem signOut_follows {userId tenantId : String} {listed : List String}
    (h : listed = ((rows.records.filter (ofUser userId tenantId)).map
        RefreshToken.familyId).dedup ∨
      ∃ before, task = .revokingFamily before (.signOut userId tenantId listed))
    (hnext : next ∈ (afterwards (.signOut userId tenantId listed)).tasks) :
    Follows task rows next := by
  cases listed with
  | nil =>
    obtain rfl := List.mem_singleton.mp hnext
    exact .updatingAll
  | cons familyId rest =>
    obtain rfl := List.mem_singleton.mp hnext
    exact .signOut h

/-- What a turn waits for next follows from what it has waited for and from the rows. -/
theorem resume_follows (h : next ∈ (resume hashToken task told s).1.tasks) :
    Follows task s.rows next := by
  cases task with
  | creating family rawRefresh slidingExpiresAt =>
    exact absurd (written_tasks ▸ h : next ∈ ([] : List Task)) List.not_mem_nil
  | expiring existing =>
    exact absurd (written_tasks ▸ h : next ∈ ([] : List Task)) List.not_mem_nil
  | rotating existing rawNew now config =>
    exact absurd (written_tasks ▸ h : next ∈ ([] : List Task)) List.not_mem_nil
  | revoking tokenHash =>
    exact absurd (written_tasks ▸ h : next ∈ ([] : List Task)) List.not_mem_nil
  | finding rawToken now config => exact found_follows (fun row hrow => findUnique_mem hrow) h
  | checking existing now config =>
    rw [resume] at h
    split_ifs at h
    · exact absurd h List.not_mem_nil
    · exact unrevoked_follows (.inl rfl) h
    · obtain rfl := List.mem_singleton.mp h
      exact .counting rfl
  | counting existing now config =>
    rw [resume] at h
    split_ifs at h
    · exact absurd h List.not_mem_nil
    · exact unrevoked_follows (.inr rfl) h
  | blacklisting familyId after =>
    obtain rfl := List.mem_singleton.mp h
    exact .revokingFamily rfl
  | revokingFamily familyId after =>
    cases after with
    | rotation => exact absurd h List.not_mem_nil
    | signOut userId tenantId listed => exact signOut_follows (.inr ⟨familyId, rfl⟩) h
  | seeking rawToken =>
    rw [resume] at h
    split at h
    · exact absurd h List.not_mem_nil
    · split_ifs at h
      · exact absurd h List.not_mem_nil
      · obtain rfl := List.mem_singleton.mp h
        exact .revoking
  | listing userId tenantId => exact signOut_follows (.inl rfl) h
  | updatingAll userId tenantId => exact absurd h List.not_mem_nil
  | pruning now => exact absurd h List.not_mem_nil

/-! ## What a family was issued with -/

/-- The token has the user and the deadline of the family, and was given out before that. -/
structure BelongsTo (family : Family) (row : RefreshToken) : Prop where
  familyId : row.familyId = family.familyId
  userId : row.userId = family.userId
  tenantId : row.tenantId = family.tenantId
  deadline : row.absoluteExpiresAt = family.absoluteExpiresAt
  timely : row.lastUsedAt ≤ family.absoluteExpiresAt

def Belongs (families : Table Family.familyId) (row : RefreshToken) : Prop :=
  ∃ family ∈ families, BelongsTo family row

/-- What is known of what a call has in hand. -/
def Honest (families : Table Family.familyId) : Task → Prop
  | .creating family _ _ => family ∈ families ∧ family.issuedAt ≤ family.absoluteExpiresAt
  | .checking existing _ _ => Belongs families existing
  | .counting existing _ _ => Belongs families existing
  | .rotating existing _ now _ => Belongs families existing ∧ now ≤ existing.absoluteExpiresAt
  | _ => True

theorem Belongs.revoke (h : Belongs families row) : Belongs families (row.revoke reason) := by
  obtain ⟨family, hmem, hrow⟩ := h
  exact ⟨family, hmem, ⟨hrow.familyId, hrow.userId, hrow.tenantId, hrow.deadline, hrow.timely⟩⟩

theorem Belongs.mono {families' : Table Family.familyId}
    (hle : ∀ family ∈ families, family ∈ families') (h : Belongs families row) :
    Belongs families' row := by
  obtain ⟨family, hmem, hrow⟩ := h
  exact ⟨family, hle family hmem, hrow⟩

theorem Honest.mono {families' : Table Family.familyId}
    (hle : ∀ family ∈ families, family ∈ families') (h : Honest families task) :
    Honest families' task := by
  cases task with
  | creating family rawRefresh slidingExpiresAt => exact ⟨hle family h.1, h.2⟩
  | checking existing now config => exact Belongs.mono hle h
  | counting existing now config => exact Belongs.mono hle h
  | rotating existing rawNew now config => exact ⟨h.1.mono hle, h.2⟩
  | finding => trivial
  | expiring => trivial
  | blacklisting => trivial
  | revokingFamily => trivial
  | seeking => trivial
  | revoking => trivial
  | listing => trivial
  | updatingAll => trivial
  | pruning => trivial

theorem mem_updateMany {p : RefreshToken → Bool} (h : row ∈ updateMany p reason rows) :
    ∃ old ∈ rows, row = if p old then old.revoke reason else old := by
  obtain ⟨old, hmem, hrow⟩ := List.mem_map.mp h
  exact ⟨old, hmem, hrow.symm⟩

theorem mem_deleteMany {p : RefreshToken → Bool} (h : row ∈ deleteMany p rows) : row ∈ rows :=
  (List.mem_filter.mp h).1

/-- A property of rows that revoking a row keeps is kept by a turn that adds no row without it. -/
theorem Writes.forall {P : RefreshToken → Prop} (h : Writes hashToken told task rows rows')
    (hrows : ∀ row ∈ rows, P row) (hrevoke : ∀ row reason, P row → P (row.revoke reason))
    (hfirst : ∀ family rawRefresh slidingExpiresAt,
      task = .creating family rawRefresh slidingExpiresAt →
        P (firstToken hashToken family told.id rawRefresh slidingExpiresAt))
    (hnext : ∀ existing rawNew now config, task = .rotating existing rawNew now config →
      P (nextToken hashToken existing told.id rawNew now (now + config.slidingTtlMs))) :
    ∀ row ∈ rows', P row := by
  cases h with
  | same => exact hrows
  | first waited fresh => exact Table.forall_set (hfirst _ _ _ waited) hrows
  | next waited fresh found =>
    have hset := Table.forall_set (hnext _ _ _ _ waited) hrows
    exact Table.forall_set (hrevoke _ _ (hset _ (mem_of_get found))) hset
  | revoked found => exact Table.forall_set (hrevoke _ _ (hrows _ (mem_of_get found))) hrows
  | revokedMany =>
    intro row hrow
    obtain ⟨old, hold, rfl⟩ := mem_updateMany hrow
    split
    · exact hrevoke _ _ (hrows old hold)
    · exact hrows old hold
  | deleted => exact fun row hrow => hrows row (mem_deleteMany hrow)

/-- All rows belong to families that were issued, and so does what the calls have in hand. -/
abbrev Issued : Service → Prop :=
  Sound (fun s => ∀ row ∈ s.rows, Belongs s.families row) fun s task => Honest s.families task

theorem Follows.honest (h : Follows task rows next) (hrows : ∀ row ∈ rows, Belongs families row)
    (htask : Honest families task) : Honest families next := by
  cases h with
  | checking found live => exact hrows _ found
  | counting waited =>
    subst waited
    exact htask
  | @rotating existing rawNew now config waited current =>
    have hexisting : Belongs families existing := by
      obtain rfl | rfl := waited
      · exact htask
      · exact htask
    refine ⟨hexisting, ?_⟩
    rw [isExpired, Bool.or_eq_false_iff, decide_eq_false_iff_not] at current
    exact Int.not_lt.mp current.1
  | reused found => trivial
  | revokingFamily waited => trivial
  | signOut listed => trivial
  | expiring => trivial
  | revoking => trivial
  | updatingAll => trivial

theorem call_families {c : Call} {t : Turn Task Response} {s' : State}
    (h : call c told s = some (t, s')) :
    s'.rows = s.rows ∧ (∀ family ∈ s.families, family ∈ s'.families) ∧
      ∀ next ∈ t.tasks, Honest s'.families next := by
  cases c with
  | issueTokenFamily userId tenantId config =>
    rw [call] at h
    split_ifs at h with hused
    cases h
    have hfresh : s.families.get told.familyId = none := by
      simpa [State.tick] using hused
    refine ⟨rfl, fun family hmem => Table.mem_set_fresh hfresh hmem, fun next hnext => ?_⟩
    obtain rfl := List.mem_singleton.mp hnext
    refine ⟨Table.mem_set.mpr (.inl rfl), ?_⟩
    exact Int.le_add_of_nonneg_right (Int.natCast_nonneg _)
  | rotateRefreshToken rawToken config =>
    cases h
    exact ⟨rfl, fun _ hmem => hmem, List.forall_mem_singleton.mpr trivial⟩
  | revokeToken rawToken =>
    cases h
    exact ⟨rfl, fun _ hmem => hmem, List.forall_mem_singleton.mpr trivial⟩
  | revokeAllUserTokens userId tenantId =>
    cases h
    exact ⟨rfl, fun _ hmem => hmem, List.forall_mem_singleton.mpr trivial⟩
  | pruneExpiredTokens =>
    cases h
    exact ⟨rfl, fun _ hmem => hmem, List.forall_mem_singleton.mpr trivial⟩

theorem turn_of_resume {t : Turn Task Response} {s' : State}
    (h : (program hashToken).resume task told s = (t, s')) :
    Writes hashToken told task s.rows s'.rows ∧ s'.families = s.families ∧
      ∀ next ∈ t.tasks, Follows task s.rows next := by
  have hturn : resume hashToken task told s = (t, s') := h
  have hwrites := resume_writes hashToken task told s
  have hfamilies := resume_families hashToken task told s
  have hfollows (next : Task) (hnext : next ∈ (resume hashToken task told s).1.tasks) :
      Follows task s.rows next := resume_follows hnext
  rw [hturn] at hwrites hfamilies hfollows
  exact ⟨hwrites, hfamilies, hfollows⟩

theorem keeps_issued : Keeps (program hashToken) (fun _ _ => True)
    (fun s => ∀ row ∈ s.rows, Belongs s.families row) (fun s task => Honest s.families task) where
  call := by
    intro g c told t s' _ hg hcall
    obtain ⟨hrows, hle, hnext⟩ := call_families hcall
    refine ⟨?_, fun task _ htask => htask.mono hle, hnext⟩
    rw [hrows]
    exact fun row hmem => (hg.state row hmem).mono hle
  resume := by
    intro g i told task t s' _ hg hwaiting hresume
    have htask := hg.tasks task (List.mem_of_getElem? hwaiting)
    obtain ⟨hwrites, hfamilies, hfollows⟩ := turn_of_resume hresume
    refine ⟨?_, ?_, fun next hnext => ?_⟩
    · rw [hfamilies]
      refine hwrites.forall hg.state (fun _ _ hrow => hrow.revoke) ?_ ?_
      · rintro family rawRefresh slidingExpiresAt rfl
        exact ⟨family, htask.1, ⟨rfl, rfl, rfl, rfl, htask.2⟩⟩
      · rintro existing rawNew now config rfl
        obtain ⟨⟨family, hmem, hrow⟩, hnow⟩ := htask
        exact ⟨family, hmem, ⟨hrow.familyId, hrow.userId, hrow.tenantId, hrow.deadline,
          hrow.deadline ▸ hnow⟩⟩
    · intro other _ hother
      rwa [hfamilies]
    · rw [hfamilies]
      exact (hfollows next hnext).honest hg.state htask

theorem issued_run (acts : List (Act Call Told)) : Issued (run (machine hashToken) empty acts) := by
  refine sound_run keeps_issued (along_forall.mpr fun _ _ => trivial) ⟨?_, ?_⟩
  · exact fun row hmem => absurd hmem (Table.not_mem_empty row)
  · exact fun task hmem => absurd hmem List.not_mem_nil

theorem families_commit (g : Service) (act : Act Call Told) :
    ∀ family ∈ g.state.families, family ∈ (commit (machine hashToken) g act).state.families := by
  obtain hmoves | he := commit_moves (program hashToken) g act
  · rw [machine]
    generalize commit (Awaits.machine (program hashToken)) g act = g' at hmoves
    cases hmoves with
    | called hcall => exact (call_families hcall).2.1
    | resumed hwaiting hresume =>
      rw [(turn_of_resume hresume).2.1]
      exact fun _ hmem => hmem
  · rw [machine, he]
    exact fun _ hmem => hmem

/-- The family that a call may still give a live token to. -/
def Task.bearer : Task → Option String
  | .creating family _ _ => some family.familyId
  | .checking existing _ _ => some existing.familyId
  | .counting existing _ _ => some existing.familyId
  | .rotating existing _ _ _ => some existing.familyId
  | _ => none

/-- The families of `S` have been issued, and all their tokens are revoked. -/
structure Revoked (S : String → Prop) (s : State) : Prop where
  issued : ∀ f, S f → (s.families.get f).isSome
  revoked : ∀ row ∈ s.rows, S row.familyId → row.revoked = true

/-- No call is about to give them a live token either. -/
abbrev Closed (S : String → Prop) : Service → Prop :=
  Sound (Revoked S) fun _ task => ∀ f ∈ task.bearer, ¬ S f

variable {S : String → Prop}

theorem Writes.closed (h : Writes hashToken told task rows rows')
    (hrows : ∀ row ∈ rows, S row.familyId → row.revoked = true)
    (htask : ∀ f ∈ task.bearer, ¬ S f) :
    ∀ row ∈ rows', S row.familyId → row.revoked = true := by
  refine h.forall hrows (fun _ _ _ _ => rfl) ?_ ?_
  · rintro family rawRefresh slidingExpiresAt rfl hS
    exact absurd hS (htask _ rfl)
  · rintro existing rawNew now config rfl hS
    exact absurd hS (htask _ rfl)

theorem Follows.closed (h : Follows task rows next)
    (hrows : ∀ row ∈ rows, S row.familyId → row.revoked = true)
    (htask : ∀ f ∈ task.bearer, ¬ S f) : ∀ f ∈ next.bearer, ¬ S f := by
  cases h with
  | checking found live =>
    rintro f ⟨⟩ hS
    rw [hrows _ found hS] at live
    contradiction
  | counting waited =>
    subst waited
    exact htask
  | rotating waited current =>
    obtain rfl | rfl := waited
    · exact htask
    · exact htask
  | reused found => exact fun _ h => nomatch h
  | revokingFamily waited => exact fun _ h => nomatch h
  | signOut listed => exact fun _ h => nomatch h
  | expiring => exact fun _ h => nomatch h
  | revoking => exact fun _ h => nomatch h
  | updatingAll => exact fun _ h => nomatch h

theorem isSome_set {f : String} {family : Family} (h : (families.get f).isSome) :
    ((families.set family).get f).isSome := by
  rw [Table.get_set]
  split_ifs
  · rfl
  · exact h

theorem keeps_closed : Keeps (program hashToken) (fun _ _ => True) (Revoked S)
    (fun _ task => ∀ f ∈ task.bearer, ¬ S f) where
  call := by
    intro g c told t s' _ hg hcall
    have hnone : ∀ f ∈ (none : Option String), ¬ S f :=
      fun f hf => absurd hf (Option.not_mem_none f)
    cases c with
    | issueTokenFamily userId tenantId config =>
      have hcall : call (.issueTokenFamily userId tenantId config) told g.state = some (t, s') :=
        hcall
      rw [call] at hcall
      split_ifs at hcall with hused
      cases hcall
      refine ⟨⟨fun f hS => isSome_set (hg.state.issued f hS), hg.state.revoked⟩,
        fun _ _ htask => htask, fun next hnext => ?_⟩
      obtain rfl := List.mem_singleton.mp hnext
      rintro f ⟨⟩ hS
      exact hused (hg.state.issued _ hS)
    | rotateRefreshToken rawToken config =>
      cases hcall
      exact ⟨⟨hg.state.issued, hg.state.revoked⟩, fun _ _ htask => htask,
        List.forall_mem_singleton.mpr hnone⟩
    | revokeToken rawToken =>
      cases hcall
      exact ⟨⟨hg.state.issued, hg.state.revoked⟩, fun _ _ htask => htask,
        List.forall_mem_singleton.mpr hnone⟩
    | revokeAllUserTokens userId tenantId =>
      cases hcall
      exact ⟨⟨hg.state.issued, hg.state.revoked⟩, fun _ _ htask => htask,
        List.forall_mem_singleton.mpr hnone⟩
    | pruneExpiredTokens =>
      cases hcall
      exact ⟨⟨hg.state.issued, hg.state.revoked⟩, fun _ _ htask => htask,
        List.forall_mem_singleton.mpr hnone⟩
  resume := by
    intro g i told task t s' _ hg hwaiting hresume
    have htask := hg.tasks task (List.mem_of_getElem? hwaiting)
    obtain ⟨hwrites, hfamilies, hfollows⟩ := turn_of_resume hresume
    refine ⟨⟨fun f hS => ?_, hwrites.closed hg.state.revoked htask⟩, fun _ _ hother => hother,
      fun next hnext => (hfollows next hnext).closed hg.state.revoked htask⟩
    rw [hfamilies]
    exact hg.state.issued f hS

theorem closed_run (h : Closed S g) (acts : List (Act Call Told)) :
    Closed S (run (machine hashToken) g acts) :=
  sound_run keeps_closed (along_forall.mpr fun _ _ => trivial) h

/-- No task holds a live token of these families. -/
def Unheld (S : String → Prop) (g : Service) : Prop := ∀ task ∈ g.tasks, ∀ f ∈ task.bearer, ¬ S f

theorem unheld_of_bearer (h : ∀ task ∈ g.tasks, task.bearer = none) : Unheld S g := by
  intro task htask f hf
  rw [h task htask] at hf
  exact absurd hf (Option.not_mem_none f)

theorem updateMany_revoked {p : RefreshToken → Bool}
    (hp : ∀ row ∈ rows, S row.familyId → row.revoked = false → p row = true) :
    ∀ row ∈ updateMany p reason rows, S row.familyId → row.revoked = true := by
  intro row hrow hS
  obtain ⟨old, hold, hnew⟩ := mem_updateMany hrow
  cases hpold : p old with
  | true =>
    rw [hnew, if_pos hpold]
    rfl
  | false =>
    rw [hnew, if_neg (Bool.eq_false_iff.mp hpold)] at hS ⊢
    by_contra hlive
    rw [hp old hold hS (Bool.eq_false_iff.mpr hlive)] at hpold
    contradiction

theorem closed_revokingFamily {i : Nat} {after : After}
    (hissued : (g.state.families.get familyId).isSome)
    (hwaiting : g.tasks[i]? = some (.revokingFamily familyId after))
    (hfree : Unheld (· = familyId) g) :
    Closed (· = familyId) (commit (machine hashToken) g (.resume i told)) := by
  have hturn : commit (machine hashToken) g (.resume i told) = _ :=
    commit_resumed (P := program hashToken) hwaiting rfl
  rw [hturn]
  refine ⟨⟨?_, updateMany_revoked (S := (· = familyId)) ?_⟩, ?_⟩
  · rintro f rfl
    exact hissued
  · intro row _ hfamily hlive
    simp [ofFamily, hfamily, hlive]
  · intro task htask f hf hS
    obtain hother | hnext := List.mem_append.mp htask
    · exact hfree task (List.eraseIdx_subset hother) f hf hS
    · cases after with
      | rotation => exact List.not_mem_nil hnext
      | signOut userId tenantId listed =>
        cases listed with
        | nil =>
          obtain rfl := List.mem_singleton.mp hnext
          contradiction
        | cons f rest =>
          obtain rfl := List.mem_singleton.mp hnext
          contradiction

/-- When a family is revoked after a reuse or a sign-out, and no other call holds a token of it that
it has found live, then no token of the family is live ever again and no later call rotates one,
in whatever order the calls go on and whether or not Redis answers. -/
theorem revoked_family_stays_revoked (acts later : List (Act Call Told)) (i : Nat) (told : Told)
    (familyId : String) (after : After)
    (hissued : ((run (machine hashToken) empty acts).state.families.get familyId).isSome)
    (hwaiting : (run (machine hashToken) empty acts).tasks[i]? =
      some (.revokingFamily familyId after))
    (hfree : Unheld (· = familyId) (run (machine hashToken) empty acts)) :
    let g := run (machine hashToken) empty (acts ++ .resume i told :: later)
    (∀ row ∈ g.state.rows, row.familyId = familyId → row.revoked = true) ∧
      Unheld (· = familyId) g := by
  intro g
  have hclosed : Closed (· = familyId) g := by
    show Closed _ (run (machine hashToken) empty (acts ++ .resume i told :: later))
    rw [run_append, run_cons]
    exact closed_run (closed_revokingFamily hissued hwaiting hfree) later
  exact ⟨hclosed.state.revoked, hclosed.tasks⟩

/-- A hash for runs that can be followed by hand. -/
def hashOf (raw : String) : String := "hash of " ++ raw

/-- A turn while Redis answers. -/
def drawing (id secret familyId : String) : Told := ⟨1000, true, id, secret, familyId⟩

/-- A token is rotated, and then it is used a second time. -/
def usedTwice : List (Act Call Told) :=
  [.call (.issueTokenFamily "user" "tenant" DEFAULT_CONFIG) (drawing "" "first" "family"),
    .resume 0 (drawing "1" "" ""),
    .call (.rotateRefreshToken "first" DEFAULT_CONFIG) (drawing "" "" ""),
    .resume 0 (drawing "" "" ""), .resume 0 (drawing "" "second" ""), .resume 0 (drawing "2" "" ""),
    .call (.rotateRefreshToken "first" DEFAULT_CONFIG) (drawing "" "" ""),
    .resume 0 (drawing "" "" ""), .resume 0 (drawing "" "" "")]

theorem revoked_family_stays_revoked_usedTwice :
    let g := run (machine hashOf) empty (usedTwice ++ .resume 0 (drawing "" "" "") ::
      [.call (.rotateRefreshToken "second" DEFAULT_CONFIG) (drawing "" "" ""),
        .resume 0 (drawing "" "" "")])
    (∀ row ∈ g.state.rows, row.familyId = "family" → row.revoked = true) ∧
      Unheld (· = "family") g :=
  revoked_family_stays_revoked usedTwice _ 0 (drawing "" "" "") "family" .rotation
    (by decide +kernel) rfl (unheld_of_bearer (by decide +kernel))

/-- The family has been issued to the user. -/
def IssuedTo (userId tenantId : String) (families : Table Family.familyId) (f : String) : Prop :=
  ∃ family ∈ families, family.familyId = f ∧ family.userId = userId ∧ family.tenantId = tenantId

/-- A token of a family that was issued to a user is a token of that user. -/
theorem Belongs.ofUser {userId tenantId : String} (h : Belongs families row)
    (hissued : IssuedTo userId tenantId families row.familyId) :
    row.userId = userId ∧ row.tenantId = tenantId := by
  obtain ⟨family, hmem, hrow⟩ := h
  obtain ⟨family', hmem', hid, huser, htenant⟩ := hissued
  obtain rfl : family' = family := Table.key_injective hmem' hmem (hid.trans hrow.familyId)
  exact ⟨hrow.userId.trans huser, hrow.tenantId.trans htenant⟩

theorem closed_updatingAll {i : Nat} {userId tenantId : String} (hrows : Issued g)
    (hwaiting : g.tasks[i]? = some (.updatingAll userId tenantId))
    (hfree : Unheld (IssuedTo userId tenantId g.state.families) g) :
    Closed (IssuedTo userId tenantId g.state.families)
      (commit (machine hashToken) g (.resume i told)) := by
  have hturn : commit (machine hashToken) g (.resume i told) = _ :=
    commit_resumed (P := program hashToken) hwaiting rfl
  rw [hturn]
  refine ⟨⟨?_, updateMany_revoked ?_⟩, ?_⟩
  · rintro f ⟨family, hmem, rfl, -⟩
    exact (congrArg Option.isSome (Table.get_of_mem hmem)).trans rfl
  · intro row hrow hissued hlive
    obtain ⟨huser, htenant⟩ := (hrows.state row hrow).ofUser hissued
    simp [ofUser, huser, htenant, hlive]
  · intro task htask f hf hS
    obtain hother | hnext := List.mem_append.mp htask
    · exact hfree task (List.eraseIdx_subset hother) f hf hS
    · exact absurd hnext List.not_mem_nil

/-- When a user is signed out everywhere, and no call under way holds a live token of the user, then
no token of a family that the user was issued before is live ever again. -/
theorem signed_out_stays_out (acts later : List (Act Call Told)) (i : Nat) (told : Told)
    (userId tenantId : String)
    (hwaiting : (run (machine hashToken) empty acts).tasks[i]? =
      some (.updatingAll userId tenantId))
    (hfree : Unheld (IssuedTo userId tenantId (run (machine hashToken) empty acts).state.families)
      (run (machine hashToken) empty acts)) :
    ∀ row ∈ (run (machine hashToken) empty (acts ++ .resume i told :: later)).state.rows,
      IssuedTo userId tenantId (run (machine hashToken) empty acts).state.families row.familyId →
        row.revoked = true := by
  rw [run_append, run_cons]
  exact (closed_run (closed_updatingAll (issued_run acts) hwaiting hfree) later).state.revoked

/-- A user with one token signs out. -/
def signingOut : List (Act Call Told) :=
  [.call (.issueTokenFamily "user" "tenant" DEFAULT_CONFIG) (drawing "" "first" "family"),
    .resume 0 (drawing "1" "" ""), .call (.revokeAllUserTokens "user" "tenant") (drawing "" "" ""),
    .resume 0 (drawing "" "" ""), .resume 0 (drawing "" "" ""), .resume 0 (drawing "" "" "")]

theorem signed_out_stays_out_signingOut :
    let g := run (machine hashOf) empty (signingOut ++ .resume 0 (drawing "" "" "") ::
      [.call (.rotateRefreshToken "first" DEFAULT_CONFIG) (drawing "" "" "")])
    g.state.rows.records.map (·.familyId) = ["family"] ∧
      ∀ row ∈ g.state.rows, row.familyId = "family" → row.revoked = true := by
  have hissued : IssuedTo "user" "tenant" (run (machine hashOf) empty signingOut).state.families
      "family" := ⟨_, .head _, rfl, rfl, rfl⟩
  refine ⟨by decide +kernel, fun row hrow hfamily => ?_⟩
  exact signed_out_stays_out signingOut _ 0 (drawing "" "" "") "user" "tenant" rfl
    (unheld_of_bearer (by decide +kernel)) row hrow (hfamily ▸ hissued)

/-! ## Live tokens of one family -/

/-- How many tokens of the family are live. -/
def live (familyId : String) (rows : Rows) : Int :=
  Records.total (fun row => (ofFamily familyId row).toInt) rows

/-- The first token of the family is still to be created. -/
def creates (familyId : String) : Task → Bool
  | .creating family _ _ => family.familyId = familyId
  | _ => false

/-- A rotation in the family whose token has gone out of use meanwhile. -/
def belated (familyId : String) (rows : Rows) : Task → Bool
  | .rotating existing _ _ _ =>
    match rows.get existing.id with
    | none => false
    | some row => existing.familyId = familyId && !ofFamily familyId row
  | _ => false

/-- The rotations that come too late. -/
def late (familyId : String) (g : Service) : Act Call Told → Int
  | .resume i _ => (g.tasks[i]?.elim false (belated familyId g.state.rows)).toInt
  | .call _ _ => 0

theorem ofFamily_revoke : ofFamily familyId (row.revoke reason) = false := by
  simp [ofFamily, RefreshToken.revoke]

theorem toInt_nonneg (b : Bool) : 0 ≤ b.toInt := by
  cases b <;> decide

theorem live_revoke {old : RefreshToken} (familyId : String) (reason : RevokeReason)
    (h : rows.get id = some old) :
    live familyId (rows.set (old.revoke reason)) + (ofFamily familyId old).toInt =
      live familyId rows := by
  have hget : rows.get (RefreshToken.id (old.revoke reason)) = some old :=
    (Table.key_of_get h).symm ▸ h
  have htotal := total_set_found (fun row => (ofFamily familyId row).toInt) hget
  rw [ofFamily_revoke] at htotal
  exact htotal.trans (Int.add_zero _)

theorem live_updateMany {p : RefreshToken → Bool} :
    live familyId (updateMany p reason rows) ≤ live familyId rows := by
  show ((rows.records.map _).map _).sum ≤ (rows.records.map _).sum
  rw [List.map_map]
  refine List.sum_le_sum fun row _ => ?_
  rw [Function.comp_apply]
  split
  · rw [ofFamily_revoke]
    exact toInt_nonneg _
  · exact le_rfl

theorem live_deleteMany {p : RefreshToken → Bool} :
    live familyId (deleteMany p rows) ≤ live familyId rows := by
  refine (List.filter_sublist.map _).sum_le_sum fun n hn => ?_
  obtain ⟨row, -, rfl⟩ := List.mem_map.mp hn
  exact toInt_nonneg _

/-- A turn brings a live token to a family only when it creates the first one or is belated. -/
theorem Writes.live_le (h : Writes hashToken told task rows rows') (familyId : String) :
    live familyId rows' ≤ live familyId rows + (creates familyId task).toInt +
      (belated familyId rows task).toInt := by
  have hcreates := toInt_nonneg (creates familyId task)
  have hbelated := toInt_nonneg (belated familyId rows task)
  cases h with
  | same => omega
  | @first family rawRefresh slidingExpiresAt waited fresh =>
    subst waited
    have htotal := total_set_fresh (fun row => (ofFamily familyId row).toInt)
      (show rows.get (RefreshToken.id
        (firstToken hashToken family told.id rawRefresh slidingExpiresAt)) = none from fresh)
    have hfirst : ofFamily familyId
        (firstToken hashToken family told.id rawRefresh slidingExpiresAt) =
          creates familyId (.creating family rawRefresh slidingExpiresAt) := Bool.and_true _
    rw [hfirst] at htotal
    exact htotal.le.trans (Int.le_add_of_nonneg_right hbelated)
  | @next existing rawNew now config old waited fresh found =>
    subst waited
    generalize hadded : nextToken hashToken existing told.id rawNew now
      (now + config.slidingTtlMs) = added at found ⊢
    have hid : RefreshToken.id added = told.id := by
      rw [← hadded]
      rfl
    have hfamily : ofFamily familyId added = decide (existing.familyId = familyId) := by
      rw [← hadded]
      exact Bool.and_true _
    have htotal : live familyId (rows.set added) = live familyId rows +
        (ofFamily familyId added).toInt := total_set_fresh _ (hid ▸ fresh)
    have hrevoke := live_revoke familyId .rotated found
    by_cases hsame : existing.id = told.id
    · obtain rfl : added = old := by
        rw [hsame, ← hid, Table.get_set_self] at found
        exact Option.some.inj found
      omega
    · rw [Table.get_set_ne (hid.symm ▸ hsame)] at found
      have hdue : (ofFamily familyId added).toInt ≤ (ofFamily familyId old).toInt +
          (belated familyId rows (.rotating existing rawNew now config)).toInt := by
        rw [belated, found, hfamily]
        show _ ≤ _ + (decide (existing.familyId = familyId) && !ofFamily familyId old).toInt
        cases decide (existing.familyId = familyId) <;> cases ofFamily familyId old <;> decide
      omega
  | @revoked row reason found =>
    have hrevoke := live_revoke familyId reason found
    have hold := toInt_nonneg (ofFamily familyId row)
    omega
  | revokedMany => exact live_updateMany.trans (by omega)
  | deleted => exact live_deleteMany.trans (by omega)

theorem Follows.creates (h : Follows task rows next) : creates familyId next = false := by
  cases h <;> rfl

theorem countP_creates {tasks : List Task} (h : ∀ next ∈ tasks, Follows task rows next) :
    tasks.countP (creates familyId) = 0 :=
  List.countP_eq_zero.mpr fun next hnext => Bool.eq_false_iff.mp (h next hnext).creates

/-- The live tokens of a family and the first one while it is still due, once the family has been
issued. -/
def surplus (familyId : String) (g : Service) : Int :=
  live familyId g.state.rows + g.tasks.countP (creates familyId) -
    (g.state.families.get familyId).isSome.toInt

/-- A task that is put in the line and creates no first token changes nothing. -/
theorem surplus_waits {task : Task} {s : State} (htask : creates familyId task = false)
    (hrows : s.rows = g.state.rows) (hfamilies : s.families = g.state.families) :
    surplus familyId ⟨s, g.tasks ++ [task]⟩ = surplus familyId g := by
  simp [surplus, htask, hrows, hfamilies]

theorem surplus_call {c : Call} {t : Turn Task Response} {s' : State}
    (h : (program hashToken).call c told g.state = some (t, s')) :
    surplus familyId ⟨s', g.tasks ++ t.tasks⟩ = surplus familyId g := by
  cases c with
  | issueTokenFamily userId tenantId config =>
    have hcall : call (.issueTokenFamily userId tenantId config) told g.state = some (t, s') := h
    rw [call] at hcall
    split_ifs at hcall with hused
    cases hcall
    replace hused : (g.state.families.get told.familyId).isSome = false :=
      Bool.eq_false_iff.mpr hused
    by_cases hsame : told.familyId = familyId
    · subst hsame
      simp [surplus, State.tick, Turn.tasks, creates, hused]
      omega
    · simp [surplus, State.tick, Turn.tasks, creates, Table.get_set, hsame, Ne.symm hsame]
  | rotateRefreshToken rawToken config =>
    cases h
    exact surplus_waits rfl rfl rfl
  | revokeToken rawToken =>
    cases h
    exact surplus_waits rfl rfl rfl
  | revokeAllUserTokens userId tenantId =>
    cases h
    exact surplus_waits rfl rfl rfl
  | pruneExpiredTokens =>
    cases h
    exact surplus_waits rfl rfl rfl

theorem surplus_resume {i : Nat} {t : Turn Task Response} {s' : State}
    (hwaiting : g.tasks[i]? = some task)
    (h : (program hashToken).resume task told g.state = (t, s')) :
    surplus familyId ⟨s', g.tasks.eraseIdx i ++ t.tasks⟩ ≤
      surplus familyId g + late familyId g (.resume i told) := by
  obtain ⟨hwrites, hfamilies, hfollows⟩ := turn_of_resume h
  have hlive := hwrites.live_le familyId
  have hlate : late familyId g (.resume i told) =
      (belated familyId g.state.rows task).toInt := by
    rw [late, hwaiting]
    rfl
  have hcount : g.tasks.countP (creates familyId) =
      (g.tasks.eraseIdx i).countP (creates familyId) + (creates familyId task).toNat := by
    obtain ⟨hlt, rfl⟩ := List.getElem?_eq_some_iff.mp hwaiting
    rw [← (List.getElem_cons_eraseIdx_perm hlt).countP_eq, List.countP_cons]
    cases creates familyId g.tasks[i] <;> rfl
  have hint : ((creates familyId task).toNat : Int) = (creates familyId task).toInt := by
    cases creates familyId task <;> rfl
  rw [surplus, surplus, hlate, hcount, hfamilies, List.countP_append, countP_creates hfollows]
  push_cast
  omega

theorem surplus_commit (g : Service) (act : Act Call Told) :
    surplus familyId (commit (machine hashToken) g act) ≤
      surplus familyId g + late familyId g act := by
  obtain hmoves | he := commit_moves (program hashToken) g act
  · rw [machine]
    generalize commit (Awaits.machine (program hashToken)) g act = g' at hmoves
    cases hmoves with
    | called hcall => exact (surplus_call hcall).le.trans (Int.le_add_of_nonneg_right le_rfl)
    | resumed hwaiting hresume => exact surplus_resume hwaiting hresume
  · rw [machine, he]
    refine Int.le_add_of_nonneg_right ?_
    cases act with
    | call c e => exact le_rfl
    | resume i e => exact toInt_nonneg _

/-- In every interleaving a family has at most one live token, and one more for each rotation whose
token was out of use by the time its transaction was carried out. -/
theorem live_tokens_bounded (familyId : String) (acts : List (Act Call Told)) :
    live familyId (run (machine hashToken) empty acts).state.rows ≤
      1 + total (machine hashToken) (late familyId) empty acts := by
  have hsurplus : surplus familyId (run (machine hashToken) empty acts) ≤
      total (machine hashToken) (late familyId) empty acts := by
    induction acts using List.reverseRecOn with
    | nil => exact le_rfl
    | append_singleton acts act ih =>
      rw [run_snoc, total_snoc]
      exact (surplus_commit _ act).trans (Int.add_le_add_right ih _)
  have hissued : ((run (machine hashToken) empty acts).state.families.get familyId).isSome.toInt ≤
      1 := by
    cases ((run (machine hashToken) empty acts).state.families.get familyId).isSome <;> decide
  rw [surplus] at hsurplus
  omega

/-- One token that is rotated by two calls at once. -/
def rotatedTwice : List (Act Call Told) :=
  [.call (.issueTokenFamily "user" "tenant" DEFAULT_CONFIG) (drawing "" "first" "family"),
    .resume 0 (drawing "1" "" ""),
    .call (.rotateRefreshToken "first" DEFAULT_CONFIG) (drawing "" "" ""),
    .call (.rotateRefreshToken "first" DEFAULT_CONFIG) (drawing "" "" ""),
    .resume 0 (drawing "" "" ""), .resume 0 (drawing "" "" ""), .resume 0 (drawing "" "second" ""),
    .resume 0 (drawing "" "third" ""), .resume 0 (drawing "2" "" ""), .resume 0 (drawing "3" "" "")]

example : live "family" (run (machine hashOf) empty rotatedTwice).state.rows = 2 := by
  decide +kernel

end TokenRotation
