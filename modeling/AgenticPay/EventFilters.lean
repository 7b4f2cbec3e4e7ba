import AgenticPay.EventMatcher
import AgenticPay.Separators

/-!
# What a filter is to mean

A filter takes an event if one of its patterns matches the type and every condition
holds of what its path leads to. The matcher tests only the first operator of a
comparison, and it reads a pattern with a star as a regular expression. A step over
all elements of an array starts the path again at its second part, but whatever it
collects is an array, and no condition tells one array from another.
-/
namespace EventMatcher

open Globs

/-! ## The specification -/

inductive Operator where
  | eq (v : Data)
  | neq (v : Data)
  | gt (bound : ℚ)
  | gte (bound : ℚ)
  | lt (bound : ℚ)
  | lte (bound : ℚ)
  | oneOf (vs : List Data)
  | regex (expression : String)

variable (host : Host)

def Operator.holds (value : Data) : Operator → Bool
  | .eq v => strictEq value v
  | .neq v => !strictEq value v
  | .gt bound => above bound value
  | .gte bound => atLeast bound value
  | .lt bound => below bound value
  | .lte bound => atMost bound value
  | .oneOf vs => vs.any (strictEq value)
  | .regex expression => passes host expression value

/-- The operators that are present, in the order in which they are looked for. -/
def ComparisonCondition.operators (c : ComparisonCondition) : List Operator :=
  (c.eq.map Operator.eq).toList ++ ((c.neq.map Operator.neq).toList ++
    ((c.gt.map Operator.gt).toList ++ ((c.gte.map Operator.gte).toList ++
      ((c.lt.map Operator.lt).toList ++ ((c.lte.map Operator.lte).toList ++
        ((c.oneOf.map Operator.oneOf).toList ++ (c.regex.map Operator.regex).toList))))))

/-- What the parts of a path lead to: a star at an array leads to the results of the rest of the
path over all its elements. -/
def followPath : List String → Data → Data
  | [], current => current
  | part :: rest, current =>
    match current with
    | .array items =>
      if part = "*" then .array ((items.map (followPath rest)).filter (·.isDefined))
      else
        match host.index part with
        | some i => followPath rest (items[i]?.getD .undefined)
        | none => .undefined
    | .object members => followPath rest (member members part)
    | _ => .undefined

def MatchesPattern (pattern text : String) : Prop := Glob pattern.toList text.toList

def Holds (value : Data) : JsonPathCondition → Prop
  | .comparison c => ∀ op ∈ c.operators, op.holds host value = true
  | .string p => ∃ s, value = .string s ∧ MatchesPattern p s
  | .number q => value = .number q
  | .bool b => value = .bool b

def Intended (filter : FilterExpression) (event : WebhookEvent) : Prop :=
  (∀ patterns ∈ filter.eventTypes, patterns ≠ [] →
      ∃ p ∈ patterns, MatchesPattern p event.eventType) ∧
    ∀ conditions ∈ filter.jsonpath, ∀ c ∈ conditions,
      Holds host (followPath host (pathParts c.1) event.payload) c.2

/-! ## The parts of a filter -/

inductive Part where
  | pattern (p : String)
  | condition (path : String) (c : JsonPathCondition)

/-- The filter that has one part only. -/
def Part.filter : Part → FilterExpression
  | .pattern p => ⟨some [p], none⟩
  | .condition path c => ⟨none, some [(path, c)]⟩

def FilterExpression.parts (filter : FilterExpression) : List Part :=
  (filter.eventTypes.getD []).map .pattern ++
    (filter.jsonpath.getD []).map fun c => .condition c.1 c.2

/-- The regular expression of a pattern with a star takes a text exactly if the pattern does. -/
def FaithfulPattern (pattern text : String) : Prop :=
  starred pattern = true →
    (passes host (anchored pattern) (.string text) = true ↔ MatchesPattern pattern text)

/-- The characters that a regular expression reads in a way of its own, without dot and star. -/
def Special (c : Char) : Prop :=
  c ∈ ['^', '$', '+', '?', '(', ')', '[', ']', '|', Char.ofNat 92, Char.ofNat 123, Char.ofNat 125]

/-- What the regular expressions of the host do with the other characters. -/
structure LawfulRegExp : Prop where
  reads : ∀ pattern : String, (∀ c ∈ pattern.toList, ¬ Special c) →
    ∃ test, host.regExp (anchored pattern) = some test ∧
      ∀ text, test text = true ↔ Dotted pattern.toList text.toList

/-- A comparison has an operator, and none of the others fails where the first one holds. -/
def FaithfulCondition (value : Data) : JsonPathCondition → Prop
  | .comparison c => ∃ first, c.operators.head? = some first ∧
      (first.holds host value = true → ∀ op ∈ c.operators, op.holds host value = true)
  | .string p => ∀ s, value = .string s → FaithfulPattern host p s
  | .number _ => True
  | .bool _ => True

def Part.Faithful (event : WebhookEvent) : Part → Prop
  | .pattern p => FaithfulPattern host p event.eventType
  | .condition path c =>
    FaithfulCondition host (followPath host (pathParts path) event.payload) c

/-! ## Paths -/

variable {host} {value value' : Data} {pattern text : String} {filter : FilterExpression}
  {event : WebhookEvent}

/-- The same value, or two arrays. -/
def Alike (v v' : Data) : Prop := v = v' ∨ (∃ items, v = .array items) ∧ ∃ items, v' = .array items

/-- No path leads on from a value that has no parts. -/
theorem resolveFrom_leaf {parts rest : List String} {part : String} {current : Data}
    (harray : ∀ items, current = .array items → False)
    (hobject : ∀ members, current = .object members → False) :
    resolveFrom host parts (part :: rest) current = followPath host (part :: rest) current := by
  rw [resolveFrom, followPath]
  · exact harray
  · exact hobject
  · exact harray
  · exact hobject

/-- A path leads where it is to lead, or to another array. -/
theorem resolveFrom_alike (parts rest : List String) (current : Data) :
    Alike (resolveFrom host parts rest current) (followPath host rest current) := by
  induction rest generalizing current with
  | nil =>
    rw [resolveFrom, followPath]
    exact .inl rfl
  | cons part rest ih =>
    cases current with
    | array items =>
      rw [resolveFrom, followPath]
      by_cases hstar : part = "*"
      · rw [if_pos hstar, if_pos hstar]
        exact .inr ⟨⟨_, rfl⟩, _, rfl⟩
      · rw [if_neg hstar, if_neg hstar]
        cases host.index part with
        | none => exact .inl rfl
        | some i => exact ih _
    | object members =>
      rw [resolveFrom, followPath]
      exact ih _
    | _ => exact .inl (resolveFrom_leaf (by simp) (by simp))

/-! ## Conditions -/

theorem strictEq_array (items : List Data) (v : Data) : strictEq (.array items) v = false := by
  cases v <;> rfl

/-- No condition tells two arrays apart. -/
theorem matchesCondition_alike (h : Alike value value') (c : JsonPathCondition) :
    matchesJsonPathCondition host value c = matchesJsonPathCondition host value' c := by
  obtain rfl | ⟨⟨items, rfl⟩, items', rfl⟩ := h
  · rfl
  · have heq : strictEq (.array items) = strictEq (.array items') := by
      funext v
      rw [strictEq_array, strictEq_array]
    cases c with
    | comparison c =>
      simp only [matchesJsonPathCondition, matchesComparison, heq]
      rfl
    | string s =>
      simp only [matchesJsonPathCondition, heq]
      rfl
    | number q => rw [matchesJsonPathCondition, matchesJsonPathCondition, heq]
    | bool b => rw [matchesJsonPathCondition, matchesJsonPathCondition, heq]

/-- Only the first operator is tested. -/
theorem matchesComparison_first (value : Data) (c : ComparisonCondition) :
    matchesComparison host value c = (c.operators.head?.map (·.holds host value)).getD false := by
  obtain ⟨eq, neq, gt, gte, lt, lte, oneOf, regex⟩ := c
  cases eq with
  | some v => rfl
  | none =>
  cases neq with
  | some v => rfl
  | none =>
  cases gt with
  | some bound => rfl
  | none =>
  cases gte with
  | some bound => rfl
  | none =>
  cases lt with
  | some bound => rfl
  | none =>
  cases lte with
  | some bound => rfl
  | none =>
  cases oneOf with
  | some vs => rfl
  | none => cases regex <;> rfl

theorem strictEq_number (q : ℚ) : strictEq value (.number q) = true ↔ value = .number q := by
  cases value <;> simp [strictEq]

theorem strictEq_bool (b : Bool) : strictEq value (.bool b) = true ↔ value = .bool b := by
  cases value <;> simp [strictEq]

theorem strictEq_string (s : String) : strictEq value (.string s) = true ↔ value = .string s := by
  cases value <;> simp [strictEq]

theorem starred_iff : starred pattern = true ↔ '*' ∈ pattern.toList := List.contains_iff_mem

theorem matchesPattern_literal (h : ¬ starred pattern = true) :
    MatchesPattern pattern text ↔ pattern = text := by
  rw [MatchesPattern, glob_literal (starred_iff.not.mp h), String.toList_inj]

theorem exists_string_iff {p : String → Prop} {q : Prop} (value : Data)
    (hstring : ∀ s, value = .string s → (q ↔ p s)) (hother : (∀ s, value ≠ .string s) → ¬ q) :
    q ↔ ∃ s, value = .string s ∧ p s := by
  constructor
  · intro hq
    by_contra hnone
    refine hother (fun s hs => ?_) hq
    exact hnone ⟨s, hs, (hstring s hs).mp hq⟩
  · rintro ⟨s, hs, hp⟩
    exact (hstring s hs).mpr hp

/-- The type of an event is matched as it should be exactly if the pattern is faithful to it. -/
theorem matchesEventType_iff : (matchesEventType host text pattern = true ↔
    MatchesPattern pattern text) ↔ FaithfulPattern host pattern text := by
  rw [matchesEventType, FaithfulPattern]
  by_cases h : starred pattern = true
  · rw [if_pos h]
    exact ⟨fun hiff _ => hiff, fun hiff => hiff h⟩
  · rw [if_neg h, beq_iff_eq, matchesPattern_literal h]
    exact iff_of_true Iff.rfl fun hs => absurd hs h

/-- Without special characters a pattern is faithful exactly if the text does not match it only
because a dot stands for another character, or fail it only because a line ends in it. -/
theorem faithfulPattern_iff (hlaw : LawfulRegExp host)
    (hplain : ∀ c ∈ pattern.toList, ¬ Special c) : FaithfulPattern host pattern text ↔
      (starred pattern = true →
        (Dotted pattern.toList text.toList ↔ Glob pattern.toList text.toList)) := by
  obtain ⟨test, htest, hreads⟩ := hlaw.reads pattern hplain
  rw [FaithfulPattern, passes, htest]
  simp only [hreads]
  rfl

/-- So is any such pattern without a dot, for a text of one line. -/
theorem faithfulPattern_of_plain (hlaw : LawfulRegExp host)
    (hplain : ∀ c ∈ pattern.toList, ¬ Special c) (hdot : '.' ∉ pattern.toList)
    (hline : ∀ c ∈ text.toList, ¬ LineEnd c) : FaithfulPattern host pattern text :=
  (faithfulPattern_iff hlaw hplain).mpr fun _ => dotted_iff_glob hdot hline

theorem passes_other {expression : String} (h : ∀ s, value ≠ .string s) :
    passes host expression value = false := by
  cases value with
  | string s => exact absurd rfl (h s)
  | _ => rfl

theorem matchesString_iff (value : Data) (p : String) :
    (matchesJsonPathCondition host value (.string p) = true ↔ Holds host value (.string p)) ↔
      FaithfulCondition host value (.string p) := by
  simp only [matchesJsonPathCondition, Holds, FaithfulCondition]
  by_cases hstar : starred p = true
  · rw [if_pos hstar]
    constructor
    · rintro hiff s rfl _
      rw [hiff]
      constructor
      · rintro ⟨s', hs, hm⟩
        obtain rfl := Data.string.inj hs
        exact hm
      · exact fun hm => ⟨s, rfl, hm⟩
    · intro hfaithful
      refine exists_string_iff value (fun s hs => ?_) fun hother => ?_
      · rw [hs]
        exact hfaithful s hs hstar
      · rw [passes_other hother]
        decide
  · rw [if_neg hstar, strictEq_string]
    refine iff_of_true ?_ fun s _ h => absurd h hstar
    constructor
    · rintro rfl
      exact ⟨p, rfl, (matchesPattern_literal hstar).mpr rfl⟩
    · rintro ⟨s, rfl, hm⟩
      rw [(matchesPattern_literal hstar).mp hm]

theorem matchesComparison_iff (value : Data) (c : ComparisonCondition) :
    (matchesComparison host value c = true ↔ Holds host value (.comparison c)) ↔
      FaithfulCondition host value (.comparison c) := by
  rw [matchesComparison_first]
  simp only [Holds, FaithfulCondition]
  cases c.operators with
  | nil =>
    refine iff_of_false (fun hiff => ?_) ?_
    · exact Bool.false_ne_true (hiff.mpr (List.forall_mem_nil _))
    · rintro ⟨_, hnone, _⟩
      cases hnone
  | cons first rest =>
    rw [List.head?_cons, Option.map_some, Option.getD_some]
    constructor
    · exact fun hiff => ⟨first, rfl, hiff.mp⟩
    · rintro ⟨_, hfirst, hall⟩
      obtain rfl := Option.some.inj hfirst
      exact ⟨hall, fun h => h _ List.mem_cons_self⟩

/-- A condition is evaluated as it should be exactly if it is faithful to the value. -/
theorem matchesCondition_iff (value : Data) (c : JsonPathCondition) :
    (matchesJsonPathCondition host value c = true ↔ Holds host value c) ↔
      FaithfulCondition host value c := by
  cases c with
  | comparison c => exact matchesComparison_iff value c
  | string p => exact matchesString_iff value p
  | number q => exact iff_of_true (strictEq_number q) trivial
  | bool b => exact iff_of_true (strictEq_bool b) trivial

/-! ## Filters -/

/-- What the matcher makes of a filter, with the paths that it is to follow. -/
theorem evaluateFilter_iff : evaluateFilter host filter event = true ↔
    (∀ patterns ∈ filter.eventTypes, patterns ≠ [] →
      ∃ p ∈ patterns, matchesEventType host event.eventType p = true) ∧
    ∀ conditions ∈ filter.jsonpath, ∀ c ∈ conditions,
      matchesJsonPathCondition host (followPath host (pathParts c.1) event.payload) c.2 = true := by
  have htypes : matchesEventTypes host event.eventType filter.eventTypes = true ↔
      ∀ patterns ∈ filter.eventTypes, patterns ≠ [] →
        ∃ p ∈ patterns, matchesEventType host event.eventType p = true := by
    cases filter.eventTypes with
    | none => simp [matchesEventTypes]
    | some patterns => cases patterns <;> simp [matchesEventTypes]
  have hsame : ∀ c : String × JsonPathCondition,
      matchesJsonPathCondition host (resolveJsonPath host event.payload c.1) c.2 =
        matchesJsonPathCondition host (followPath host (pathParts c.1) event.payload) c.2 :=
    fun c => matchesCondition_alike (resolveFrom_alike _ _ _) c.2
  rw [evaluateFilter, ← htypes]
  by_cases h : matchesEventTypes host event.eventType filter.eventTypes = true
  · rw [if_pos h, and_iff_right h]
    cases filter.jsonpath with
    | none => simp
    | some conditions => simp [evaluateJsonPathConditions, hsame]
  · rw [if_neg h]
    exact iff_of_false Bool.false_ne_true fun hboth => h hboth.1

theorem mem_parts_pattern {patterns : List String} {p : String}
    (h : patterns ∈ filter.eventTypes) (hp : p ∈ patterns) : .pattern p ∈ filter.parts := by
  rw [FilterExpression.parts, h]
  exact List.mem_append_left _ (List.mem_map.mpr ⟨p, hp, rfl⟩)

theorem mem_parts_condition {conditions : List (String × JsonPathCondition)}
    {c : String × JsonPathCondition} (h : conditions ∈ filter.jsonpath) (hc : c ∈ conditions) :
    .condition c.1 c.2 ∈ filter.parts := by
  rw [FilterExpression.parts, h]
  exact List.mem_append_right _ (List.mem_map.mpr ⟨c, hc, rfl⟩)

/-- A filter whose parts are all faithful means what it is to mean. -/
theorem intended_of_faithful (h : ∀ part ∈ filter.parts, part.Faithful host event) :
    evaluateFilter host filter event = true ↔ Intended host filter event := by
  rw [evaluateFilter_iff, Intended]
  refine and_congr ?_ ?_
  · refine forall₂_congr fun patterns hpatterns => forall_congr' fun _ => ?_
    refine exists_congr fun p => and_congr_right fun hp => ?_
    exact matchesEventType_iff.mpr (h _ (mem_parts_pattern hpatterns hp))
  · refine forall₂_congr fun conditions hconditions => forall₂_congr fun c hc => ?_
    exact (matchesCondition_iff _ _).mpr (h _ (mem_parts_condition hconditions hc))

/-- A filter of one part means what it is to mean exactly if the part is faithful. -/
theorem intended_part_iff (part : Part) :
    (evaluateFilter host part.filter event = true ↔ Intended host part.filter event) ↔
      part.Faithful host event := by
  rw [evaluateFilter_iff, Intended]
  cases part with
  | pattern p =>
    simp only [Part.filter, Part.Faithful, ← matchesEventType_iff]
    simp
  | condition path c =>
    simp only [Part.filter, Part.Faithful, ← matchesCondition_iff]
    simp

theorem parts_filter (part : Part) : part.filter.parts = [part] := by
  cases part <;> rfl

/-- A filter means what it is to mean if all its parts are faithful, and only then do all filters
of its parts. -/
theorem evaluateFilterExpr_intended (host : Host) (text : String) (filter : FilterExpression)
    (event : WebhookEvent) (hne : text ≠ "") (hparse : host.parse text = some filter) :
    ((∀ part ∈ filter.parts, part.Faithful host event) →
        (evaluateFilterExpr host (some text) event = true ↔ Intended host filter event)) ∧
      ((∀ sub : FilterExpression, sub.parts ⊆ filter.parts →
          (evaluateFilter host sub event = true ↔ Intended host sub event)) ↔
        ∀ part ∈ filter.parts, part.Faithful host event) := by
  refine ⟨fun h => ?_, fun h part hpart => ?_, fun h sub hsub => ?_⟩
  · rw [evaluateFilterExpr]
    simp only [if_neg hne, hparse]
    exact intended_of_faithful h
  · refine (intended_part_iff part).mp (h part.filter ?_)
    rw [parts_filter]
    exact List.cons_subset.mpr ⟨hpart, List.nil_subset _⟩
  · exact intended_of_faithful fun part hpart => h part (hsub hpart)

/-- A host that reads one filter, which asks for an amount above 1 and below 5. -/
def between : FilterExpression :=
  ⟨none, some [("amount", .comparison ⟨none, none, some 1, none, some 5, none, none, none⟩)]⟩

def betweenText : String := "\x7b\"jsonpath\":\x7b\"amount\":\x7b\"gt\":1,\"lt\":5\x7d\x7d\x7d"

def betweenHost : Host :=
  { parse := fun text => if text = betweenText then some between else none
    index := fun _ => none
    regExp := fun _ => none }

def paymentOf (amount : ℚ) : WebhookEvent :=
  ⟨"payment.completed", .object [("amount", .number amount)]⟩

theorem evaluateFilterExpr_intended_between :
    ((∀ part ∈ between.parts, part.Faithful betweenHost (paymentOf 3)) →
        (evaluateFilterExpr betweenHost (some betweenText) (paymentOf 3) = true ↔
          Intended betweenHost between (paymentOf 3))) ∧
      ((∀ sub : FilterExpression, sub.parts ⊆ between.parts →
          (evaluateFilter betweenHost sub (paymentOf 3) = true ↔
            Intended betweenHost sub (paymentOf 3))) ↔
        ∀ part ∈ between.parts, part.Faithful betweenHost (paymentOf 3)) :=
  evaluateFilterExpr_intended betweenHost betweenText between (paymentOf 3) (by decide)
    (by simp [betweenHost])

/-- An amount of 10 is above 1, and is taken although it is not below 5. -/
theorem evaluateFilterExpr_skips_operators :
    evaluateFilterExpr betweenHost (some betweenText) (paymentOf 10) = true ∧
      ¬ Intended betweenHost between (paymentOf 10) := by
  have hpath : followPath betweenHost (pathParts "amount") (paymentOf 10).payload = .number 10 := by
    have hparts : pathParts "amount" = ["amount"] := by decide
    rw [hparts]
    rfl
  constructor
  · have hread : betweenHost.parse betweenText = some between := by simp [betweenHost]
    rw [evaluateFilterExpr]
    simp only [if_neg (show betweenText ≠ "" by decide), hread]
    rw [evaluateFilter_iff]
    refine ⟨fun _ h => (by cases h), fun conditions h c hc => ?_⟩
    obtain rfl := Option.some.inj h
    obtain rfl := List.mem_singleton.mp hc
    rw [hpath]
    rfl
  · intro h
    have hholds := h.2 _ rfl _ List.mem_cons_self
    rw [hpath] at hholds
    have hbelow := hholds (.lt 5) (by simp [ComparisonCondition.operators])
    exact absurd hbelow (by decide)

end EventMatcher
