import Mathlib.Algebra.Order.Field.Rat
import Mathlib.Data.List.Basic

/-!
# The event matcher of the webhooks

A subscription can have a filter, a text of JSON with patterns for the type of an
event and with conditions on what the paths of its payload lead to. Payloads are
JSON data with exact numbers, whose objects have the members that they are written
with. What the host makes of a filter's text, of a part of a path as the place in an
array, and of a regular expression is given.
-/
namespace EventMatcher

inductive Data where
  | undefined
  | null
  | bool (b : Bool)
  | number (q : ℚ)
  | string (s : String)
  | array (items : List Data)
  | object (members : List (String × Data))

def Data.isDefined : Data → Bool
  | .undefined => false
  | _ => true

/-- `===`, of a value of the payload and one of the filter: two arrays or two objects are never the
same. -/
def strictEq : Data → Data → Bool
  | .undefined, .undefined => true
  | .null, .null => true
  | .bool a, .bool b => a == b
  | .number a, .number b => a == b
  | .string a, .string b => a == b
  | _, _ => false

structure ComparisonCondition where
  eq : Option Data
  neq : Option Data
  gt : Option ℚ
  gte : Option ℚ
  lt : Option ℚ
  lte : Option ℚ
  oneOf : Option (List Data)
  regex : Option String

inductive JsonPathCondition where
  | string (s : String)
  | number (q : ℚ)
  | bool (b : Bool)
  | comparison (c : ComparisonCondition)

structure FilterExpression where
  eventTypes : Option (List String)
  jsonpath : Option (List (String × JsonPathCondition))

structure WebhookEvent where
  eventType : String
  payload : Data

/-- What the host computes: a filter from its text, the place in an array from a part of a path, and
the test of a regular expression, unless it is none. -/
structure Host where
  parse : String → Option FilterExpression
  index : String → Option Nat
  regExp : String → Option (String → Bool)

variable (host : Host)

/-! ## Paths -/

/-- `replace(/^\$\.?/, '')`. -/
def dropRoot : List Char → List Char
  | '$' :: '.' :: rest => rest
  | '$' :: rest => rest
  | path => path

def pathParts (path : String) : List String :=
  ((dropRoot path.toList).splitOn '.').map String.ofList

/-- A member of an object. -/
def member (members : List (String × Data)) (key : String) : Data :=
  (members.lookup key).getD .undefined

theorem sizeOf_undefined : sizeOf Data.undefined = 1 := rfl

theorem sizeOf_item (items : List Data) (i : Nat) :
    sizeOf (items[i]?.getD .undefined) < sizeOf (Data.array items) := by
  rw [Data.array.sizeOf_spec]
  cases h : items[i]? with
  | none =>
    rw [Option.getD_none, sizeOf_undefined]
    have : 0 < sizeOf items := by cases items <;> simp
    omega
  | some v =>
    have := List.sizeOf_lt_of_mem (List.mem_of_getElem? h)
    rw [Option.getD_some]
    omega

theorem sizeOf_member (members : List (String × Data)) (key : String) :
    sizeOf (member members key) < sizeOf (Data.object members) := by
  rw [member, Data.object.sizeOf_spec]
  induction members with
  | nil =>
    rw [List.lookup_nil, Option.getD_none, sizeOf_undefined]
    exact Nat.lt_succ_self 1
  | cons m rest ih =>
    obtain ⟨name, v⟩ := m
    rw [List.lookup_cons]
    have hsize : sizeOf ((name, v) :: rest) = 1 + (1 + sizeOf name + sizeOf v) + sizeOf rest := rfl
    cases key == name with
    | true =>
      rw [Option.getD_some, hsize]
      omega
    | false =>
      rw [hsize]
      simp only at ih ⊢
      omega

/-- The loop of `resolveJsonPath` over the rest of the parts of a path. -/
def resolveFrom (parts : List String) : List String → Data → Data
  | [], current => current
  | part :: rest, .array items =>
    if part = "*" then
      let path := String.intercalate "." (parts.drop 1)
      .array ((items.attach.map fun item =>
        resolveFrom (pathParts path) (pathParts path) item.1).filter (·.isDefined))
    else
      match host.index part with
      | some i => resolveFrom parts rest (items[i]?.getD .undefined)
      | none => .undefined
  | part :: rest, .object members => resolveFrom parts rest (member members part)
  | _ :: _, _ => .undefined
termination_by _ current => sizeOf current
decreasing_by
  · have := List.sizeOf_lt_of_mem item.2
    rw [Data.array.sizeOf_spec]
    omega
  · exact sizeOf_item items i
  · exact sizeOf_member members part

def resolveJsonPath (obj : Data) (path : String) : Data :=
  resolveFrom host (pathParts path) (pathParts path) obj

/-! ## Conditions -/

def above (bound : ℚ) : Data → Bool
  | .number q => q > bound
  | _ => false

def atLeast (bound : ℚ) : Data → Bool
  | .number q => q ≥ bound
  | _ => false

def below (bound : ℚ) : Data → Bool
  | .number q => q < bound
  | _ => false

def atMost (bound : ℚ) : Data → Bool
  | .number q => q ≤ bound
  | _ => false

/-- The test of an expression, which a text that is none fails. -/
def passes (expression : String) : Data → Bool
  | .string s =>
    match host.regExp expression with
    | some test => test s
    | none => false
  | _ => false

def matchesComparison (value : Data) (condition : ComparisonCondition) : Bool :=
  match condition.eq with
  | some v => strictEq value v
  | none =>
  match condition.neq with
  | some v => !strictEq value v
  | none =>
  match condition.gt with
  | some bound => above bound value
  | none =>
  match condition.gte with
  | some bound => atLeast bound value
  | none =>
  match condition.lt with
  | some bound => below bound value
  | none =>
  match condition.lte with
  | some bound => atMost bound value
  | none =>
  match condition.oneOf with
  | some vs => vs.any (strictEq value)
  | none =>
  match condition.regex with
  | some expression => passes host expression value
  | none => false

/-- `'^' + pattern.replace(/\*/g, '.*') + '$'`. -/
def anchored (pattern : String) : String :=
  let body := pattern.toList.flatMap fun c => if c = '*' then ['.', '*'] else [c]
  String.ofList ('^' :: (body ++ ['$']))

def starred (pattern : String) : Bool := pattern.toList.contains '*'

def matchesJsonPathCondition (value : Data) : JsonPathCondition → Bool
  | .comparison c => matchesComparison host value c
  | .string s => if starred s then passes host (anchored s) value else strictEq value (.string s)
  | .number q => strictEq value (.number q)
  | .bool b => strictEq value (.bool b)

def evaluateJsonPathConditions (payload : Data) (conditions : List (String × JsonPathCondition)) :
    Bool :=
  conditions.all fun c => matchesJsonPathCondition host (resolveJsonPath host payload c.1) c.2

/-! ## Filters -/

def matchesEventType (eventType pattern : String) : Bool :=
  if starred pattern then passes host (anchored pattern) (.string eventType)
  else pattern == eventType

/-- The patterns are looked at if there are any. -/
def matchesEventTypes (eventType : String) : Option (List String) → Bool
  | some patterns => patterns.isEmpty || patterns.any (matchesEventType host eventType)
  | none => true

def evaluateFilter (filter : FilterExpression) (event : WebhookEvent) : Bool :=
  if matchesEventTypes host event.eventType filter.eventTypes = true then
    match filter.jsonpath with
    | some conditions => evaluateJsonPathConditions host event.payload conditions
    | none => true
  else false

/-- A subscription without a filter, or with one that cannot be read, takes every event. -/
def evaluateFilterExpr (expr : Option String) (event : WebhookEvent) : Bool :=
  match expr with
  | none => true
  | some text =>
    if text = "" then true
    else
      match host.parse text with
      | some filter => evaluateFilter host filter event
      | none => true

end EventMatcher
