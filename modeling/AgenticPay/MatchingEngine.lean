import AgenticPay.BillingTypes
import AgenticPay.Records
import Mathlib.Algebra.Order.Field.Rat
import Mathlib.Algebra.Order.Group.Unbundled.Abs
import Mathlib.Data.List.Sort

/-!
# The matching engine of the reconciliation

Internal and external records are matched in three passes: by their references, by equal amounts at
about the same time, and by amounts and times that are close. Amounts and scores are exact numbers,
times and windows are milliseconds.
-/
namespace MatchingEngine

open Records

inductive ReconciliationSource where
  | internal
  | bankStatement
  | pspSettlement
  | onchain
  deriving DecidableEq

inductive MatchType where
  | exact
  | fuzzy
  deriving DecidableEq

structure MatchCandidate where
  id : String
  source : ReconciliationSource
  externalRef : Option String
  paymentId : Option String
  amount : ℚ
  currency : String
  occurredAt : Int
  deriving DecidableEq

structure MatchResult where
  internalId : String
  externalId : String
  matchType : MatchType
  confidence : ℚ
  amountDelta : ℚ
  deriving DecidableEq

structure MatchingOptions where
  amountTolerancePct : ℚ := 2 / 100
  exactDateWindowMs : ℚ := 5 * 60 * 1000
  fuzzyDateWindowMs : ℚ := 3 * 24 * 60 * 60 * 1000
  minFuzzyConfidence : ℚ := 3 / 10

structure MatchingOutcome where
  matched : List MatchResult
  unmatchedInternal : List MatchCandidate
  unmatchedExternal : List MatchCandidate
  deriving DecidableEq

def amountEpsilon : ℚ := 1 / 10 ^ 8

def amountsEqual (a b : ℚ) : Bool := |a - b| < amountEpsilon

def clamp (n least most : ℚ) : ℚ := min most (max least n)

/-- How close to zero a difference is, against the tolerance for it. -/
def scoreFor (delta tolerance : ℚ) : ℚ :=
  if delta ≤ 0 then 1 else if tolerance ≤ 0 then 0 else clamp (1 - delta / tolerance) 0 1

def amountScoreFor (deltaPct tolerancePct : ℚ) : ℚ := scoreFor deltaPct tolerancePct

def dateScoreFor (deltaMs windowMs : ℚ) : ℚ := scoreFor deltaMs windowMs

def makeMatch (int ext : MatchCandidate) (matchType : MatchType) (confidence : ℚ) : MatchResult :=
  ⟨int.id, ext.id, matchType, Billing.roundMoney confidence 4,
    Billing.roundMoney (ext.amount - int.amount) 8⟩

/-- What is matched, and what remains on both sides. -/
structure Remaining where
  matched : List MatchResult
  internal : Table MatchCandidate.id
  external : Table MatchCandidate.id

def tableOf (records : List MatchCandidate) : Table MatchCandidate.id :=
  records.foldl Table.set ∅

def claim (int ext : MatchCandidate) (matchType : MatchType) (confidence : ℚ) (r : Remaining) :
    Remaining :=
  ⟨r.matched ++ [makeMatch int ext matchType confidence], r.internal.remove int.id,
    r.external.remove ext.id⟩

/-- The distance in time. -/
def dateDeltaMs (int ext : MatchCandidate) : ℚ := |(ext.occurredAt : ℚ) - int.occurredAt|

variable (opts : MatchingOptions)

/-! ## Exact matches -/

/-- Both have the same reference, which is not empty. -/
def sameReference (int ext : MatchCandidate) : Bool :=
  ext.currency = int.currency &&
    (ext.externalRef.any (· ≠ "") && ext.externalRef = int.externalRef) &&
    amountsEqual ext.amount int.amount

def matchReference (r : Remaining) (int : MatchCandidate) : Remaining :=
  if (r.internal.get int.id).isSome && int.externalRef.any (· ≠ "") then
    match r.external.records.find? (sameReference int) with
    | some ext => claim int ext .exact 1 r
    | none => r
  else r

/-- Both have the same amount at about the same time. -/
def sameAmount (int ext : MatchCandidate) : Bool :=
  ext.currency = int.currency && amountsEqual ext.amount int.amount &&
    dateDeltaMs int ext ≤ opts.exactDateWindowMs

def nearer (int a b : MatchCandidate) : Prop := dateDeltaMs int a ≤ dateDeltaMs int b

instance (int : MatchCandidate) : DecidableRel (nearer int) :=
  fun a b => inferInstanceAs (Decidable (dateDeltaMs int a ≤ dateDeltaMs int b))

def matchAmount (r : Remaining) (int : MatchCandidate) : Remaining :=
  if (r.internal.get int.id).isSome then
    match ((r.external.records.filter (sameAmount opts int)).insertionSort (nearer int)).head? with
    | some ext => claim int ext .exact 1 r
    | none => r
  else r

/-! ## Fuzzy matches -/

structure Pair where
  internal : MatchCandidate
  external : MatchCandidate
  confidence : ℚ

/-- The difference as a part of the internal amount. There is none if that amount is zero and the
other one is not: what is infinite is beyond every tolerance. -/
def amountDeltaPct (int ext : MatchCandidate) : Option ℚ :=
  if int.amount = 0 then
    if ext.amount = 0 then some 0 else none
  else some (|ext.amount - int.amount| / |int.amount|)

/-- The score of a pair that differs by a part of its amount. -/
def confidenceOf (deltaPct : ℚ) (int ext : MatchCandidate) : ℚ :=
  amountScoreFor deltaPct opts.amountTolerancePct * (7 / 10) +
    dateScoreFor (dateDeltaMs int ext) opts.fuzzyDateWindowMs * (3 / 10)

/-- A pair that is close enough. -/
def pairOf (int ext : MatchCandidate) : Option Pair :=
  if ext.currency ≠ int.currency then none
  else
    match amountDeltaPct int ext with
    | none => none
    | some deltaPct =>
      if opts.amountTolerancePct < deltaPct then none
      else if opts.fuzzyDateWindowMs < dateDeltaMs int ext then none
      else if confidenceOf opts deltaPct int ext < opts.minFuzzyConfidence then none
      else some ⟨int, ext, confidenceOf opts deltaPct int ext⟩

def pairsOf (r : Remaining) : List Pair :=
  r.internal.records.flatMap fun int => r.external.records.filterMap (pairOf opts int)

/-- The higher confidence comes first, and of equal ones the smaller distance in time. -/
def before (a b : Pair) : Prop :=
  if b.confidence ≠ a.confidence then b.confidence ≤ a.confidence
  else dateDeltaMs a.internal a.external ≤ dateDeltaMs b.internal b.external

instance : DecidableRel before := fun a b =>
  inferInstanceAs (Decidable (if b.confidence ≠ a.confidence then b.confidence ≤ a.confidence
    else dateDeltaMs a.internal a.external ≤ dateDeltaMs b.internal b.external))

def matchPair (r : Remaining) (pair : Pair) : Remaining :=
  if (r.internal.get pair.internal.id).isSome && (r.external.get pair.external.id).isSome then
    claim pair.internal pair.external .fuzzy pair.confidence r
  else r

/-! ## The three passes -/

def referencePass (r : Remaining) : Remaining := r.internal.records.foldl matchReference r

def amountPass (r : Remaining) : Remaining := r.internal.records.foldl (matchAmount opts) r

def fuzzyPass (r : Remaining) : Remaining :=
  ((pairsOf opts r).insertionSort before).foldl matchPair r

def remaining (internal external : List MatchCandidate) : Remaining :=
  fuzzyPass opts (amountPass opts (referencePass ⟨[], tableOf internal, tableOf external⟩))

def runMatchingEngine (internal external : List MatchCandidate) : MatchingOutcome :=
  let r := remaining opts internal external
  ⟨r.matched, r.internal.records, r.external.records⟩

end MatchingEngine
