import AgenticPay.MatchingEngine
import Mathlib.Algebra.Order.Field.Basic
import Mathlib.Data.List.Induction
import Mathlib.Tactic.Linarith

/-!
# What the matching engine comes to

Every record is matched once or left over, what is matched is within its tolerances, and no two
records that are left over could have been matched.
-/
namespace MatchingEngine

open Records

variable (opts : MatchingOptions)

/-! ## Conditions -/

structure ByReference (int ext : MatchCandidate) : Prop where
  currency : ext.currency = int.currency
  reference : ∃ ref, ref ≠ "" ∧ int.externalRef = some ref ∧ ext.externalRef = some ref
  amount : |ext.amount - int.amount| < amountEpsilon

structure ByAmount (int ext : MatchCandidate) : Prop where
  currency : ext.currency = int.currency
  amount : |ext.amount - int.amount| < amountEpsilon
  date : dateDeltaMs int ext ≤ opts.exactDateWindowMs

structure ByCloseness (int ext : MatchCandidate) (confidence : ℚ) : Prop where
  currency : ext.currency = int.currency
  amount : ∃ deltaPct, amountDeltaPct int ext = some deltaPct ∧
    deltaPct ≤ opts.amountTolerancePct ∧ confidence = confidenceOf opts deltaPct int ext
  date : dateDeltaMs int ext ≤ opts.fuzzyDateWindowMs
  confident : opts.minFuzzyConfidence ≤ confidence

/-- A match joins two records that one of the conditions holds of. -/
inductive Joined (m : MatchResult) (int ext : MatchCandidate) : Prop
  | reference (result : m = makeMatch int ext .exact 1) (condition : ByReference int ext)
  | amount (result : m = makeMatch int ext .exact 1) (condition : ByAmount opts int ext)
  | closeness {confidence : ℚ} (result : m = makeMatch int ext .fuzzy confidence)
      (condition : ByCloseness opts int ext confidence)
      (within : |ext.amount - int.amount| ≤ opts.amountTolerancePct * |int.amount|)

/-- The matched records and those that are left over are the records that were given. -/
structure Accounted (internal external : List MatchCandidate) (matched : List MatchResult)
    (unmatchedInternal unmatchedExternal : List MatchCandidate) : Prop where
  pairs : ∃ pairs : List (MatchCandidate × MatchCandidate),
    List.Forall₂ (fun m p => Joined opts m p.1 p.2) matched pairs ∧
      (pairs.map Prod.fst ++ unmatchedInternal).Perm internal ∧
        (pairs.map Prod.snd ++ unmatchedExternal).Perm external

/-- Every record occurs once, matched or not, and no two that are left over could be matched. -/
structure Reconciled (internal external : List MatchCandidate) (outcome : MatchingOutcome) :
    Prop where
  accounted : Accounted opts internal external outcome.matched outcome.unmatchedInternal
    outcome.unmatchedExternal
  internalOnce : (outcome.matched.map (·.internalId) ++
    outcome.unmatchedInternal.map (·.id)).Nodup
  externalOnce : (outcome.matched.map (·.externalId) ++
    outcome.unmatchedExternal.map (·.id)).Nodup
  maximal : ∀ int ∈ outcome.unmatchedInternal, ∀ ext ∈ outcome.unmatchedExternal,
    ¬ ByReference int ext ∧ ¬ ByAmount opts int ext ∧
      ∀ confidence, ¬ ByCloseness opts int ext confidence

variable {opts} {int ext : MatchCandidate} {r r' r₀ : Remaining} {pair : Pair} {confidence : ℚ}
  {internal external : List MatchCandidate} {matchType : MatchType}

/-! ## What the passes look for -/

theorem amountsEqual_iff {a b : ℚ} : amountsEqual a b = true ↔ |a - b| < amountEpsilon :=
  decide_eq_true_iff

theorem hasReference_iff {externalRef : Option String} :
    externalRef.any (· ≠ "") = true ↔ ∃ ref, ref ≠ "" ∧ externalRef = some ref := by
  cases externalRef with
  | none => simp
  | some ref => simp

theorem sameReference_iff : sameReference int ext = true ↔ ByReference int ext := by
  simp only [sameReference, Bool.and_eq_true, decide_eq_true_eq, amountsEqual_iff]
  constructor
  · rintro ⟨⟨hcurrency, href, hsame⟩, hamount⟩
    obtain ⟨ref, hne, hext⟩ := hasReference_iff.mp href
    exact ⟨hcurrency, ⟨ref, hne, hsame ▸ hext, hext⟩, hamount⟩
  · rintro ⟨hcurrency, ⟨ref, hne, hint, hext⟩, hamount⟩
    exact ⟨⟨hcurrency, hasReference_iff.mpr ⟨ref, hne, hext⟩, hext.trans hint.symm⟩, hamount⟩

theorem sameAmount_iff : sameAmount opts int ext = true ↔ ByAmount opts int ext := by
  simp only [sameAmount, Bool.and_eq_true, decide_eq_true_eq, amountsEqual_iff]
  constructor
  · rintro ⟨⟨hcurrency, hamount⟩, hdate⟩
    exact ⟨hcurrency, hamount, hdate⟩
  · rintro ⟨hcurrency, hamount, hdate⟩
    exact ⟨⟨hcurrency, hamount⟩, hdate⟩

theorem pairOf_eq_some : pairOf opts int ext = some pair ↔
    pair.internal = int ∧ pair.external = ext ∧ ByCloseness opts int ext pair.confidence := by
  rw [pairOf]
  by_cases hcurrency : ext.currency = int.currency
  · rw [if_neg (not_not.mpr hcurrency)]
    cases hdelta : amountDeltaPct int ext with
    | none =>
      constructor
      · exact fun h => by cases h
      · rintro ⟨-, -, hclose⟩
        obtain ⟨deltaPct, hsome, -⟩ := hclose.amount
        rw [hdelta] at hsome
        cases hsome
    | some deltaPct =>
      dsimp only
      constructor
      · intro h
        split_ifs at h with htolerance hdate hconfidence
        cases h
        exact ⟨rfl, rfl, hcurrency, ⟨deltaPct, hdelta, not_lt.mp htolerance, rfl⟩,
          not_lt.mp hdate, not_lt.mp hconfidence⟩
      · rintro ⟨rfl, rfl, hclose⟩
        obtain ⟨deltaPct', hsome, htolerance, hvalue⟩ := hclose.amount
        obtain rfl := Option.some.inj (hdelta.symm.trans hsome)
        have hconfident := hclose.confident
        rw [hvalue] at hconfident
        rw [if_neg (not_lt.mpr htolerance), if_neg (not_lt.mpr hclose.date),
          if_neg (not_lt.mpr hconfident), ← hvalue]
  · rw [if_pos hcurrency]
    constructor
    · exact fun h => by cases h
    · rintro ⟨-, -, hclose⟩
      exact absurd hclose.currency hcurrency

/-- A part of the amount that is tolerated is no more than the tolerance of the amount. -/
theorem ByCloseness.within (h : ByCloseness opts int ext confidence) :
    |ext.amount - int.amount| ≤ opts.amountTolerancePct * |int.amount| := by
  obtain ⟨deltaPct, hdelta, htolerance, -⟩ := h.amount
  rw [amountDeltaPct] at hdelta
  split_ifs at hdelta with hint hext
  · rw [hint, hext, sub_zero, abs_zero, mul_zero]
  · obtain rfl := Option.some.inj hdelta
    have hpos : 0 < |int.amount| := abs_pos.mpr hint
    exact (div_le_iff₀ hpos).mp htolerance

/-! ## Claims -/

/-- Nothing comes back to what remains. -/
structure Within (r₀ r : Remaining) : Prop where
  internal : ∀ a ∈ r.internal, a ∈ r₀.internal
  external : ∀ a ∈ r.external, a ∈ r₀.external

theorem Within.refl (r : Remaining) : Within r r := ⟨fun _ => id, fun _ => id⟩

theorem Within.trans (h : Within r₀ r) (h' : Within r r') : Within r₀ r' :=
  ⟨fun a ha => h.internal a (h'.internal a ha), fun a ha => h.external a (h'.external a ha)⟩

theorem claim_within : Within r (claim int ext matchType confidence r) :=
  ⟨fun _ ha => (Table.mem_remove.mp ha).1, fun _ ha => (Table.mem_remove.mp ha).1⟩

abbrev Remaining.Accounted (opts : MatchingOptions) (internal external : List MatchCandidate)
    (r : Remaining) : Prop :=
  MatchingEngine.Accounted opts internal external r.matched r.internal.records r.external.records

theorem perm_claimed {pairs : List MatchCandidate} {a : MatchCandidate}
    {t : Table MatchCandidate.id} {given : List MatchCandidate} (ha : a ∈ t)
    (h : (pairs ++ t.records).Perm given) :
    ((pairs ++ [a]) ++ (t.remove a.id).records).Perm given := by
  rw [List.append_assoc, List.singleton_append]
  exact ((Table.perm_remove ha).append_left pairs).trans h

/-- Two records that remain are claimed by a match that joins them. -/
theorem Remaining.Accounted.claim (h : r.Accounted opts internal external) (hint : int ∈ r.internal)
    (hext : ext ∈ r.external)
    (hjoined : Joined opts (makeMatch int ext matchType confidence) int ext) :
    (claim int ext matchType confidence r).Accounted opts internal external := by
  obtain ⟨pairs, hpairs, hinternal, hexternal⟩ := h.pairs
  refine ⟨pairs ++ [(int, ext)], ?_, ?_, ?_⟩
  · exact List.rel_append hpairs (.cons hjoined .nil)
  · rw [List.map_append]
    exact perm_claimed hint hinternal
  · rw [List.map_append]
    exact perm_claimed hext hexternal

/-- A record that was there is the one that its identifier still finds. -/
theorem mem_of_isSome {t t₀ : Table MatchCandidate.id} {a : MatchCandidate} (ha : a ∈ t₀)
    (hsub : ∀ a ∈ t, a ∈ t₀) (h : (t.get a.id).isSome = true) : a ∈ t := by
  obtain ⟨b, hb⟩ := Option.isSome_iff_exists.mp h
  obtain ⟨hmem, hid⟩ := Table.get_some hb
  exact Table.key_injective (hsub b hmem) ha hid ▸ hmem

/-! ## Steps -/

/-- What a step of a pass makes of what remains: nothing, or a claim of two records that a
condition holds of. -/
inductive Stepped (opts : MatchingOptions) (r : Remaining) : Remaining → Prop
  | same : Stepped opts r r
  | claimed {int ext : MatchCandidate} {matchType : MatchType} {confidence : ℚ}
      (internal : int ∈ r.internal) (external : ext ∈ r.external)
      (joined : Joined opts (makeMatch int ext matchType confidence) int ext) :
      Stepped opts r (claim int ext matchType confidence r)

theorem Stepped.within (h : Stepped opts r r') : Within r r' := by
  cases h with
  | same => exact .refl r
  | claimed _ _ _ => exact claim_within

theorem Stepped.accounted (h : Stepped opts r r') (hr : r.Accounted opts internal external) :
    r'.Accounted opts internal external := by
  cases h with
  | same => exact hr
  | claimed hint hext hjoined => exact hr.claim hint hext hjoined

/-- A step leaves the record alone unless it remains and there is one that it finds for it. -/
theorem matchReference_cases (r : Remaining) (int : MatchCandidate) :
    (matchReference r int = r ∧
      ((r.internal.get int.id).isSome = true → ∀ ext ∈ r.external, ¬ ByReference int ext)) ∨
    ∃ ext ∈ r.external, (r.internal.get int.id).isSome = true ∧ ByReference int ext ∧
      matchReference r int = claim int ext .exact 1 r := by
  rw [matchReference]
  split
  next hfound =>
    cases hfind : r.external.records.find? (sameReference int) with
    | none =>
      refine .inl ⟨rfl, fun _ ext hext href => ?_⟩
      exact List.find?_eq_none.mp hfind ext hext (sameReference_iff.mpr href)
    | some ext =>
      exact .inr ⟨ext, List.mem_of_find?_eq_some hfind, (Bool.and_eq_true_iff.mp hfound).1,
        sameReference_iff.mp (List.find?_some hfind), rfl⟩
  next hnone =>
    refine .inl ⟨rfl, fun hsome ext _ href => hnone ?_⟩
    obtain ⟨ref, hne, hint, -⟩ := href.reference
    exact Bool.and_eq_true_iff.mpr ⟨hsome, hasReference_iff.mpr ⟨ref, hne, hint⟩⟩

theorem matchAmount_cases (opts : MatchingOptions) (r : Remaining) (int : MatchCandidate) :
    (matchAmount opts r int = r ∧
      ((r.internal.get int.id).isSome = true → ∀ ext ∈ r.external, ¬ ByAmount opts int ext)) ∨
    ∃ ext ∈ r.external, (r.internal.get int.id).isSome = true ∧ ByAmount opts int ext ∧
      matchAmount opts r int = claim int ext .exact 1 r := by
  rw [matchAmount]
  have hsorted := List.perm_insertionSort (nearer int)
    (r.external.records.filter (sameAmount opts int))
  split
  next hfound =>
    cases hhead : ((r.external.records.filter (sameAmount opts int)).insertionSort
        (nearer int)).head? with
    | none =>
      refine .inl ⟨rfl, fun _ ext hext hamount => ?_⟩
      have hmem := hsorted.mem_iff.mpr
        (List.mem_filter.mpr ⟨hext, sameAmount_iff.mpr hamount⟩)
      rw [List.head?_eq_none_iff.mp hhead] at hmem
      cases hmem
    | some ext =>
      obtain ⟨hext, hamount⟩ := List.mem_filter.mp (hsorted.mem_iff.mp (List.mem_of_head? hhead))
      exact .inr ⟨ext, hext, hfound, sameAmount_iff.mp hamount, rfl⟩
  next hnone => exact .inl ⟨rfl, fun hsome => absurd hsome hnone⟩

theorem matchReference_stepped (hr : Within r₀ r) (hint : int ∈ r₀.internal) :
    Stepped opts r (matchReference r int) := by
  obtain ⟨he, -⟩ | ⟨ext, hext, hsome, href, he⟩ := matchReference_cases r int
  · rw [he]
    exact .same
  · rw [he]
    exact .claimed (mem_of_isSome hint hr.internal hsome) hext (.reference rfl href)

theorem matchAmount_stepped (hr : Within r₀ r) (hint : int ∈ r₀.internal) :
    Stepped opts r (matchAmount opts r int) := by
  obtain ⟨he, -⟩ | ⟨ext, hext, hsome, hamount, he⟩ := matchAmount_cases opts r int
  · rw [he]
    exact .same
  · rw [he]
    exact .claimed (mem_of_isSome hint hr.internal hsome) hext (.amount rfl hamount)

theorem mem_pairsOf : pair ∈ pairsOf opts r ↔ pair.internal ∈ r.internal ∧
    pair.external ∈ r.external ∧ ByCloseness opts pair.internal pair.external pair.confidence := by
  simp only [pairsOf, List.mem_flatMap, List.mem_filterMap, pairOf_eq_some]
  constructor
  · rintro ⟨int, hint, ext, hext, rfl, rfl, hclose⟩
    exact ⟨hint, hext, hclose⟩
  · rintro ⟨hint, hext, hclose⟩
    exact ⟨pair.internal, hint, pair.external, hext, rfl, rfl, hclose⟩

theorem matchPair_stepped (hr : Within r₀ r) (hpair : pair ∈ pairsOf opts r₀) :
    Stepped opts r (matchPair r pair) := by
  obtain ⟨hint, hext, hclose⟩ := mem_pairsOf.mp hpair
  rw [matchPair]
  split
  next hsome =>
    obtain ⟨hinternal, hexternal⟩ := Bool.and_eq_true_iff.mp hsome
    exact .claimed (mem_of_isSome hint hr.internal hinternal)
      (mem_of_isSome hext hr.external hexternal) (.closeness rfl hclose hclose.within)
  next => exact .same

/-! ## Passes -/

/-- A pass over anything whose steps are claims. -/
theorem pass_stepped {α : Type} {f : Remaining → α → Remaining} {l : List α}
    (hstep : ∀ r a, Within r₀ r → a ∈ l → Stepped opts r (f r a))
    (h : r₀.Accounted opts internal external) :
    Within r₀ (l.foldl f r₀) ∧ (l.foldl f r₀).Accounted opts internal external := by
  refine List.foldlRecOn (motive := fun r => Within r₀ r ∧ r.Accounted opts internal external)
    l f ⟨.refl r₀, h⟩ fun r hr a ha => ?_
  have hstepped := hstep r a hr.1 ha
  exact ⟨hr.1.trans hstepped.within, hstepped.accounted hr.2⟩

/-- What each step settles for its own item stays settled. -/
theorem pass_settles (opts : MatchingOptions) {α : Type} {f : Remaining → α → Remaining}
    {l : List α} (Settled : α → Remaining → Prop)
    (hstep : ∀ r a, Within r₀ r → a ∈ l → Stepped opts r (f r a))
    (hsettles : ∀ r a, Within r₀ r → a ∈ l → Settled a (f r a))
    (hkeep : ∀ r r' a, Within r r' → Settled a r → Settled a r') :
    Within r₀ (l.foldl f r₀) ∧ ∀ a ∈ l, Settled a (l.foldl f r₀) := by
  induction l using List.reverseRecOn with
  | nil => exact ⟨.refl r₀, fun a ha => absurd ha List.not_mem_nil⟩
  | append_singleton l b ih =>
    obtain ⟨hwithin, hsettled⟩ := ih
      (fun r a hr ha => hstep r a hr (List.mem_append_left _ ha))
      (fun r a hr ha => hsettles r a hr (List.mem_append_left _ ha))
    have hb : b ∈ l ++ [b] := List.mem_append_right _ (List.mem_singleton_self b)
    have hlast := (hstep _ b hwithin hb).within
    rw [List.foldl_append, List.foldl_cons, List.foldl_nil]
    refine ⟨hwithin.trans hlast, fun a ha => ?_⟩
    obtain ha | ha := List.mem_append.mp ha
    · exact hkeep _ _ a hlast (hsettled a ha)
    · rw [List.mem_singleton.mp ha]
      exact hsettles _ b hwithin hb

/-- The record has been matched, or none that remains can be matched with it. -/
def SettledBy (R : MatchCandidate → MatchCandidate → Prop) (int : MatchCandidate)
    (r : Remaining) : Prop :=
  int ∈ r.internal → ∀ ext ∈ r.external, ¬ R int ext

theorem SettledBy.keep {R : MatchCandidate → MatchCandidate → Prop} (hwithin : Within r r')
    (h : SettledBy R int r) : SettledBy R int r' :=
  fun hint ext hext => h (hwithin.internal int hint) ext (hwithin.external ext hext)

/-- A record that is claimed does not remain. -/
theorem settledBy_claim {R : MatchCandidate → MatchCandidate → Prop} :
    SettledBy R int (claim int ext matchType confidence r) :=
  fun hint => absurd rfl (Table.mem_remove.mp hint).2

theorem referencePass_settles (r : Remaining) :
    Within r (referencePass r) ∧ ∀ int ∈ r.internal, SettledBy ByReference int (referencePass r) :=
  pass_settles {} (SettledBy ByReference) (fun _ _ hr hint => matchReference_stepped hr hint)
    (by
      intro r' int _ _
      obtain ⟨he, hnone⟩ | ⟨ext, -, -, -, he⟩ := matchReference_cases r' int
      · rw [he]
        exact fun hint => hnone (Table.get_of_mem hint ▸ rfl)
      · rw [he]
        exact settledBy_claim)
    (fun _ _ _ hwithin => SettledBy.keep hwithin)

theorem amountPass_settles (opts : MatchingOptions) (r : Remaining) :
    Within r (amountPass opts r) ∧
      ∀ int ∈ r.internal, SettledBy (ByAmount opts) int (amountPass opts r) :=
  pass_settles opts (SettledBy (ByAmount opts)) (fun _ _ hr hint => matchAmount_stepped hr hint)
    (by
      intro r' int _ _
      obtain ⟨he, hnone⟩ | ⟨ext, -, -, -, he⟩ := matchAmount_cases opts r' int
      · rw [he]
        exact fun hint => hnone (Table.get_of_mem hint ▸ rfl)
      · rw [he]
        exact settledBy_claim)
    (fun _ _ _ hwithin => SettledBy.keep hwithin)

theorem mem_sorted : pair ∈ (pairsOf opts r).insertionSort before ↔ pair ∈ pairsOf opts r :=
  (List.perm_insertionSort before _).mem_iff

theorem fuzzyPass_settles (opts : MatchingOptions) (r : Remaining) :
    Within r (fuzzyPass opts r) ∧ ∀ pair ∈ (pairsOf opts r).insertionSort before,
      pair.internal ∈ (fuzzyPass opts r).internal →
        pair.external ∉ (fuzzyPass opts r).external := by
  refine pass_settles opts
    (fun (pair : Pair) r => pair.internal ∈ r.internal → pair.external ∉ r.external) ?_ ?_ ?_
  · exact fun _ _ hr hpair => matchPair_stepped hr (mem_sorted.mp hpair)
  · intro r' pair _ _ hint hext
    rw [matchPair] at hint hext
    split_ifs at hint hext with hsome
    · exact (Table.mem_remove.mp hint).2 rfl
    · rw [Table.get_of_mem hint, Table.get_of_mem hext] at hsome
      exact hsome rfl
  · exact fun _ _ _ hwithin h hint hext =>
      h (hwithin.internal _ hint) (hwithin.external _ hext)

/-! ## The engine -/

/-- What the tables hold when the identifiers are different. -/
theorem tableOf_records {records : List MatchCandidate}
    (h : (records.map MatchCandidate.id).Nodup) : (tableOf records).records = records := by
  rw [tableOf]
  induction records using List.reverseRecOn with
  | nil => rfl
  | append_singleton records a ih =>
    rw [List.map_append, List.map_singleton] at h
    obtain ⟨hnodup, -, hdisjoint⟩ := List.nodup_append.mp h
    rw [List.foldl_append, List.foldl_cons, List.foldl_nil, Table.set_fresh, ih hnodup]
    rw [Table.get_eq_none, ih hnodup]
    exact fun hmem => hdisjoint _ hmem _ (List.mem_singleton_self _) rfl

theorem remaining_accounted (hinternal : (internal.map MatchCandidate.id).Nodup)
    (hexternal : (external.map MatchCandidate.id).Nodup) :
    (remaining opts internal external).Accounted opts internal external := by
  have hstart : Remaining.Accounted opts internal external
      ⟨[], tableOf internal, tableOf external⟩ := by
    refine ⟨[], .nil, ?_, ?_⟩
    · exact .of_eq (tableOf_records hinternal)
    · exact .of_eq (tableOf_records hexternal)
  have hreference := (pass_stepped (fun _ _ hr hint => matchReference_stepped hr hint) hstart).2
  have hamount := (pass_stepped (fun _ _ hr hint => matchAmount_stepped hr hint) hreference).2
  exact (pass_stepped (fun _ _ hr hpair => matchPair_stepped hr (mem_sorted.mp hpair)) hamount).2

/-- Two records that remain after all passes satisfy none of the conditions. -/
theorem remaining_maximal (hint : int ∈ (remaining opts internal external).internal)
    (hext : ext ∈ (remaining opts internal external).external) :
    ¬ ByReference int ext ∧ ¬ ByAmount opts int ext ∧
      ∀ confidence, ¬ ByCloseness opts int ext confidence := by
  obtain ⟨hwithin₁, hreference⟩ :=
    referencePass_settles ⟨[], tableOf internal, tableOf external⟩
  obtain ⟨hwithin₂, hamount⟩ := amountPass_settles opts
    (referencePass ⟨[], tableOf internal, tableOf external⟩)
  obtain ⟨hwithin₃, hcloseness⟩ := fuzzyPass_settles opts
    (amountPass opts (referencePass ⟨[], tableOf internal, tableOf external⟩))
  have hint₂ := hwithin₃.internal int hint
  have hint₁ := hwithin₂.internal int hint₂
  have hext₂ := hwithin₃.external ext hext
  have hext₁ := hwithin₂.external ext hext₂
  refine ⟨?_, ?_, fun confidence hclose => ?_⟩
  · exact hreference int (hwithin₁.internal int hint₁) hint₁ ext hext₁
  · exact hamount int hint₁ hint₂ ext hext₂
  · exact hcloseness ⟨int, ext, confidence⟩
      (mem_sorted.mpr (mem_pairsOf.mpr ⟨hint₂, hext₂, hclose⟩)) hint hext

theorem joined_ids {matched : List MatchResult} {pairs : List (MatchCandidate × MatchCandidate)}
    (h : List.Forall₂ (fun m p => Joined opts m p.1 p.2) matched pairs) :
    matched.map (·.internalId) = (pairs.map Prod.fst).map (·.id) ∧
      matched.map (·.externalId) = (pairs.map Prod.snd).map (·.id) := by
  induction h with
  | nil => exact ⟨rfl, rfl⟩
  | cons hjoined _ ih =>
    have hids : ∀ {m : MatchResult} {int ext : MatchCandidate}, Joined opts m int ext →
        m.internalId = int.id ∧ m.externalId = ext.id := by
      intro m int ext hjoined
      cases hjoined with
      | reference result _ => exact ⟨result ▸ rfl, result ▸ rfl⟩
      | amount result _ => exact ⟨result ▸ rfl, result ▸ rfl⟩
      | closeness result _ _ => exact ⟨result ▸ rfl, result ▸ rfl⟩
    simp only [List.map_cons, ih.1, ih.2, (hids hjoined).1, (hids hjoined).2]
    exact ⟨trivial, trivial⟩

/-- The engine reconciles any two lists of records with different identifiers. -/
theorem runMatchingEngine_reconciles (opts : MatchingOptions)
    (hinternal : (internal.map MatchCandidate.id).Nodup)
    (hexternal : (external.map MatchCandidate.id).Nodup) :
    Reconciled opts internal external (runMatchingEngine opts internal external) := by
  have haccounted : (remaining opts internal external).Accounted opts internal external :=
    remaining_accounted hinternal hexternal
  obtain ⟨pairs, hpairs, hint, hext⟩ := haccounted.pairs
  refine ⟨haccounted, ?_, ?_, fun int hint ext hext => remaining_maximal hint hext⟩
  · show ((remaining opts internal external).matched.map (·.internalId) ++
      (remaining opts internal external).internal.records.map (·.id)).Nodup
    rw [(joined_ids hpairs).1, ← List.map_append]
    exact (hint.map _).nodup_iff.mpr hinternal
  · show ((remaining opts internal external).matched.map (·.externalId) ++
      (remaining opts internal external).external.records.map (·.id)).Nodup
    rw [(joined_ids hpairs).2, ← List.map_append]
    exact (hext.map _).nodup_iff.mpr hexternal

def recordOf (id : String) (source : ReconciliationSource) (amount : ℚ) : MatchCandidate :=
  ⟨id, source, none, none, amount, "USD", 0⟩

/-- Two payments of 100, and one of 101 at the bank. -/
def payments : List MatchCandidate := [recordOf "p1" .internal 100, recordOf "p2" .internal 100]

def statement : List MatchCandidate := [recordOf "b1" .bankStatement 101]

theorem statement_reconciled :
    Reconciled {} payments statement (runMatchingEngine {} payments statement) :=
  runMatchingEngine_reconciles {} (by decide) (by decide)

/-- The first of two records that are equally close is matched. -/
example : runMatchingEngine {} payments statement =
    ⟨[⟨"p1", "b1", .fuzzy, 65 / 100, 1⟩], [recordOf "p2" .internal 100], []⟩ := by
  decide +kernel

end MatchingEngine
