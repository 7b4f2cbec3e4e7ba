import AgenticPay.Soroban
import Mathlib.Data.List.Sort

/-!
# The swap aggregator contract

Admin settings, the whitelist, the search for a route and its execution. The
decentralized exchanges are other contracts, all of their state is one state
`δ`, and what they answer is a parameter: nothing is assumed of a quote or of an
output. A swap that an exchange does not revert takes its input from the caller;
what has been taken from whom is kept beside the storage.
-/
namespace SwapAggregatorContract

open Soroban Contract

def maxSlippageBps : Nat := 5000
def maxPriceImpactBps : Nat := 5000
def maxFeeBps : Nat := 200

inductive AggregatorError where
  | alreadyInitialized | unauthorized | noDexAvailable | noRouteFound | slippageTooHigh
  | slippageExceeded | priceImpactTooHigh | invalidAmount | feeTooHigh | dexCallFailed
  | allRoutesFailed | insufficientLiquidity | partialFillDetected | notInitialized
  deriving DecidableEq, Repr

def AggregatorError.code : AggregatorError → Nat
  | .alreadyInitialized => 1
  | .unauthorized => 2
  | .noDexAvailable => 3
  | .noRouteFound => 4
  | .slippageTooHigh => 5
  | .slippageExceeded => 6
  | .priceImpactTooHigh => 7
  | .invalidAmount => 8
  | .feeTooHigh => 9
  | .dexCallFailed => 10
  | .allRoutesFailed => 11
  | .insufficientLiquidity => 12
  | .partialFillDetected => 13
  | .notInitialized => 14

structure RouteLeg where
  dexId : String
  dexAddress : Address
  tokenIn : Address
  tokenOut : Address
  splitBps : Nat
  expectedOut : Int
  deriving DecidableEq, Repr

structure SwapRoute where
  legs : List RouteLeg
  expectedOut : Int
  dexFees : Int
  isMultiHop : Bool
  deriving DecidableEq, Repr

structure SwapQuote where
  route : SwapRoute
  expectedOut : Int
  minAmountOut : Int
  slippageBps : Nat
  priceImpactBps : Nat
  isSplit : Bool
  deriving DecidableEq, Repr

structure DexEntry where
  dexId : String
  dexAddress : Address
  active : Bool
  deriving DecidableEq, Repr

/-- A direct quote: the exchange, and the output it quotes. -/
structure DirectQuote where
  dexId : String
  dexAddress : Address
  out : Int
  deriving DecidableEq, Repr

/-- What `try_invoke_contract::<i128, _>` sees of a call of another contract: the call
reverts, or it returns with effect, a value that is an `i128` or one that is not. -/
inductive Answer (δ : Type) where
  | reverted
  | returned (value : Option Int) (next : δ)

/-- The exchanges: the answers of each to `get_swap` and to `swap`. -/
structure Dex (δ : Type) where
  quote : Address → Address → Address → Int → δ → Answer δ
  swap : Address → Address → Address → Address → Int → Int → δ → Answer δ

/-- The instance storage, and beside it the state of the exchanges and, for each caller and
each token, what their swaps have taken. -/
structure Storage (δ : Type) where
  admin : Option Address
  feeBps : Option Nat
  init : Option Bool
  dexList : Option (List DexEntry)
  dex : δ
  spent : Address → Address → Int

inductive Event where
  | swapExecuted (caller tokenIn tokenOut : Address) (amountIn amountOut protocolFee : Int)
      (legs priceImpactBps : Nat) (isSplit : Bool)
  | dexAdded (dexId : String) (dexAddress : Address)
  | dexRemoved (dexId : String)
  | routeFallback (failedDexId : String) (reasonCode : Nat)
  deriving DecidableEq, Repr

variable {δ : Type}

abbrev World (δ : Type) := Soroban.World (Storage δ) Event

abbrev Entry (δ α : Type) := Contract (Storage δ) Event α

/-- `get_dex_entries`. -/
def Storage.dexEntries (s : Storage δ) : List DexEntry := s.dexList.getD []

/-- `get_dex_list`. -/
def Storage.activeIds (s : Storage δ) : List String :=
  (s.dexEntries.filter (·.active)).map (·.dexId)

/-- `get_fee_bps`. -/
def Storage.fee (s : Storage δ) : Nat := s.feeBps.getD 30

/-- What a swap takes: `amount` of `token` from `caller`. -/
def Storage.take (s : Storage δ) (caller token : Address) (amount : Int) : Storage δ :=
  { s with spent := fun a t => if a = caller ∧ t = token then s.spent a t + amount
                               else s.spent a t }

/-! ## Admin and whitelist -/

def admin : Entry δ Address := do
  let stored ← read (·.admin)
  okOr stored AggregatorError.notInitialized.code

def requireAdmin : Entry δ Unit := do
  let admin ← admin
  requireAuth admin

/-- The entry point `initialize`, whose name is reserved here. -/
def initializeContract (admin : Address) (feeBps : Nat) : Entry δ Unit := do
  let init ← read (·.init)
  ensure (init = none) AggregatorError.alreadyInitialized.code
  ensure (¬ feeBps > maxFeeBps) AggregatorError.feeTooHigh.code
  requireAuth admin
  write ({ · with admin := some admin })
  write ({ · with feeBps := some feeBps })
  write ({ · with init := some true })

def setAdmin (newAdmin : Address) : Entry δ Unit := do
  let current ← admin
  requireAuth current
  requireAuth newAdmin
  write ({ · with admin := some newAdmin })

def setFee (feeBps : Nat) : Entry δ Unit := do
  requireAdmin
  ensure (¬ feeBps > maxFeeBps) AggregatorError.feeTooHigh.code
  write ({ · with feeBps := some feeBps })

/-- The loop of `add_dex`: the first entry of this id is replaced, or one is appended. -/
def putEntry (dexId : String) (dexAddress : Address) : List DexEntry → List DexEntry
  | [] => [{ dexId, dexAddress, active := true }]
  | entry :: rest =>
    if entry.dexId = dexId then { dexId, dexAddress, active := true } :: rest
    else entry :: putEntry dexId dexAddress rest

def addDex (dexId : String) (dexAddress : Address) : Entry δ Unit := do
  requireAdmin
  write fun s => { s with dexList := some (putEntry dexId dexAddress s.dexEntries) }
  publish (.dexAdded dexId dexAddress)

def removeDex (dexId : String) : Entry δ Unit := do
  requireAdmin
  write fun s => { s with dexList := some (s.dexEntries.filter (·.dexId ≠ dexId)) }
  publish (.dexRemoved dexId)

def listDexes : Entry δ (List String) := read (·.activeIds)

def feeBps : Entry δ Nat := read (·.fee)

/-! ## Quoting -/

/-- `try_invoke_contract` of `get_swap`; `none` for anything but an `i128`. -/
def invokeQuote (dex : Dex δ) (dexAddress tokenIn tokenOut : Address) (amountIn : Int) :
    Entry δ (Option Int) := fun _ w =>
  match dex.quote dexAddress tokenIn tokenOut amountIn w.storage.dex with
  | .reverted => .ok (none, w)
  | .returned value next => .ok (value, { w with storage := { w.storage with dex := next } })

/-- Step 1 of `find_best_route`, with `direct_quotes` so far. -/
def collectQuotes (dex : Dex δ) (tokenIn tokenOut : Address) (amountIn : Int) :
    List DexEntry → List DirectQuote → Entry δ (List DirectQuote)
  | [], directQuotes => pure directQuotes
  | entry :: rest, directQuotes =>
    if entry.active = false then collectQuotes dex tokenIn tokenOut amountIn rest directQuotes
    else do
      let quoteResult ← invokeQuote dex entry.dexAddress tokenIn tokenOut amountIn
      match quoteResult with
      | none => collectQuotes dex tokenIn tokenOut amountIn rest directQuotes
      | some out =>
        if out > 0 then
          collectQuotes dex tokenIn tokenOut amountIn rest
            (directQuotes ++ [{ dexId := entry.dexId, dexAddress := entry.dexAddress, out }])
        else collectQuotes dex tokenIn tokenOut amountIn rest directQuotes

/-- Step 2 of `find_best_route`, a stable insertion sort, the highest quote first. -/
def sortQuotes (directQuotes : List DirectQuote) : List DirectQuote :=
  directQuotes.insertionSort fun a b => b.out ≤ a.out

def scaleQuote (fullQuote fullIn partialIn : Int) : Entry δ Int :=
  if fullIn = 0 then pure 0
  else do
    let product ← mulI128 fullQuote partialIn
    return product.tdiv fullIn

def estimateDexFee (amountOut : Int) (feeBps : Nat) : Entry δ Int := do
  let product ← mulI128 amountOut feeBps
  return product.tdiv 10000

/-- The cast `x as u32`. -/
def asU32 (x : Int) : Nat := (x % 2 ^ 32).toNat

def computePriceImpactBps (dexFees expectedOut : Int) : Entry δ Nat :=
  if expectedOut ≤ 0 then pure 0
  else do
    let product ← mulI128 dexFees 10000
    return asU32 (product.tdiv expectedOut)

def directLeg (quote : DirectQuote) (tokenIn tokenOut : Address) (splitBps : Nat)
    (expectedOut : Int) : RouteLeg :=
  { dexId := quote.dexId, dexAddress := quote.dexAddress, tokenIn, tokenOut, splitBps,
    expectedOut }

/-- Step 3a: the single route over the best quote, as `best_route` and `best_out`. -/
def singleCandidate (tokenIn tokenOut : Address) :
    List DirectQuote → Entry δ (Option SwapRoute × Int)
  | [] => pure (none, 0)
  | top :: _ => do
    let dexFees ← estimateDexFee top.out 30
    return (some
      { legs := [directLeg top tokenIn tokenOut 10000 top.out], expectedOut := top.out, dexFees,
        isMultiHop := false }, top.out)

/-- Step 3b: half of the amount over each of the two best quotes, when that gives more. -/
def splitCandidate (tokenIn tokenOut : Address) (amountIn : Int) :
    List DirectQuote → Option SwapRoute × Int → Entry δ (Option SwapRoute × Int)
  | d0 :: d1 :: _, best => do
    let halfIn := amountIn.tdiv 2
    let remainder ← subI128 amountIn halfIn
    let out0 ← scaleQuote d0.out amountIn halfIn
    let out1 ← scaleQuote d1.out amountIn remainder
    let splitOut ← addI128 out0 out1
    if splitOut > best.2 then do
      let dexFees ← estimateDexFee splitOut 30
      return (some
        { legs := [directLeg d0 tokenIn tokenOut 5000 out0,
            directLeg d1 tokenIn tokenOut 5000 out1],
          expectedOut := splitOut, dexFees, isMultiHop := false }, splitOut)
    else return best
  | _, best => pure best

/-- `try_multihop_route`, where `xlm` is the intermediate token. -/
def tryMultihopRoute (dex : Dex δ) (xlm : Address) (dexEntries : List DexEntry)
    (tokenIn tokenOut : Address) (amountIn : Int) : Entry δ (Option SwapRoute) :=
  match dexEntries.find? (·.active) with
  | none => pure none
  | some best => do
    let leg1Result ← invokeQuote dex best.dexAddress tokenIn xlm amountIn
    match leg1Result.filter (0 < ·) with
    | none => return none
    | some midOut => do
      let leg2Result ← invokeQuote dex best.dexAddress xlm tokenOut midOut
      match leg2Result.filter (0 < ·) with
      | none => return none
      | some finalOut => do
        let dexFees ← estimateDexFee finalOut 60
        return some
          { legs :=
              [{ dexId := best.dexId, dexAddress := best.dexAddress, tokenIn, tokenOut := xlm,
                 splitBps := 10000, expectedOut := midOut },
               { dexId := best.dexId, dexAddress := best.dexAddress, tokenIn := xlm, tokenOut,
                 splitBps := 10000, expectedOut := finalOut }],
            expectedOut := finalOut, dexFees, isMultiHop := true }

/-- Step 3c: two hops over `xlm`, when that gives more. -/
def hopCandidate (dex : Dex δ) (xlm : Address) (dexEntries : List DexEntry)
    (tokenIn tokenOut : Address) (amountIn : Int) (directQuotes : List DirectQuote)
    (best : Option SwapRoute × Int) : Entry δ (Option SwapRoute × Int) :=
  if best.2 > 0 ∧ directQuotes.length ≥ 1 then do
    let hopRoute ← tryMultihopRoute dex xlm dexEntries tokenIn tokenOut amountIn
    match hopRoute with
    | none => return best
    | some hop => if hop.expectedOut > best.2 then return (some hop, hop.expectedOut)
                  else return best
  else pure best

def findBestRoute (dex : Dex δ) (xlm : Address) (tokenIn tokenOut : Address) (amountIn : Int)
    (slippageBps : Nat) : Entry δ SwapQuote := do
  let dexEntries ← read (·.dexEntries)
  ensure (dexEntries ≠ []) AggregatorError.noDexAvailable.code
  let collected ← collectQuotes dex tokenIn tokenOut amountIn dexEntries []
  let directQuotes := sortQuotes collected
  let single ← singleCandidate tokenIn tokenOut directQuotes
  let split ← splitCandidate tokenIn tokenOut amountIn directQuotes single
  let best ← hopCandidate dex xlm dexEntries tokenIn tokenOut amountIn directQuotes split
  let route ← okOr best.1 AggregatorError.noRouteFound.code
  ensure (¬ route.expectedOut ≤ 0) AggregatorError.insufficientLiquidity.code
  let priceImpactBps ← computePriceImpactBps route.dexFees route.expectedOut
  let tolerance ← mulI128 route.expectedOut slippageBps
  let minAmountOut ← subI128 route.expectedOut (tolerance.tdiv 10000)
  return { route, expectedOut := best.2, minAmountOut, slippageBps, priceImpactBps,
           isSplit := route.legs.length > 1 ∧ route.isMultiHop = false }

def getQuote (dex : Dex δ) (xlm : Address) (tokenIn tokenOut : Address) (amountIn : Int)
    (slippageBps : Nat) : Entry δ SwapQuote := do
  ensure (¬ amountIn ≤ 0) AggregatorError.invalidAmount.code
  ensure (¬ slippageBps > maxSlippageBps) AggregatorError.slippageTooHigh.code
  let dexes ← read (·.activeIds)
  ensure (dexes ≠ []) AggregatorError.noDexAvailable.code
  findBestRoute dex xlm tokenIn tokenOut amountIn slippageBps

/-! ## Execution -/

/-- `try_invoke_contract` of `swap`. What it returns is taken from the caller in any case. -/
def invokeSwap (dex : Dex δ) (dexAddress caller tokenIn tokenOut : Address)
    (amountIn minAmountOut : Int) : Entry δ (Option Int) := fun _ w =>
  match dex.swap dexAddress caller tokenIn tokenOut amountIn minAmountOut w.storage.dex with
  | .reverted => .ok (none, w)
  | .returned value next =>
    .ok (value, { w with storage := { w.storage.take caller tokenIn amountIn with dex := next } })

def tryExecuteLeg (dex : Dex δ) (caller dexAddress tokenIn tokenOut : Address)
    (amountIn minAmountOut : Int) : Entry δ (Except AggregatorError Int) := do
  let result ← invokeSwap dex dexAddress caller tokenIn tokenOut amountIn minAmountOut
  match result with
  | some out => if out ≥ minAmountOut then return .ok out else return .error .slippageExceeded
  | none => return .error .dexCallFailed

/-- The loop of `execute_split`, with `total_out` so far. -/
def splitLoop (dex : Dex δ) (caller : Address) (amountIn minAmountOut : Int) :
    List RouteLeg → Int → Entry δ Int
  | [], totalOut => pure totalOut
  | leg :: rest, totalOut => do
    let share ← mulI128 amountIn leg.splitBps
    let floor ← mulI128 minAmountOut leg.splitBps
    let result ← tryExecuteLeg dex caller leg.dexAddress leg.tokenIn leg.tokenOut
      (share.tdiv 10000) (floor.tdiv 10000)
    match result with
    | .error _ => do
      publish (.routeFallback leg.dexId 3)
      fail AggregatorError.dexCallFailed.code
    | .ok out => do
      let totalOut ← addI128 totalOut out
      splitLoop dex caller amountIn minAmountOut rest totalOut

def executeSplit (dex : Dex δ) (caller : Address) (amountIn minAmountOut : Int)
    (legs : List RouteLeg) : Entry δ Int := do
  let totalOut ← splitLoop dex caller amountIn minAmountOut legs 0
  ensure (¬ totalOut < minAmountOut) AggregatorError.slippageExceeded.code
  return totalOut

/-- The loop of `execute_multihop`, with `current_in` so far. -/
def executeMultihop (dex : Dex δ) (caller : Address) (currentIn minAmountOut : Int) :
    List RouteLeg → Entry δ Int
  | [] => pure currentIn
  | leg :: rest => do
    let legMin := if rest = [] then minAmountOut else 1
    let result ← tryExecuteLeg dex caller leg.dexAddress leg.tokenIn leg.tokenOut currentIn legMin
    match result with
    | .error _ => do
      publish (.routeFallback leg.dexId 4)
      fail AggregatorError.dexCallFailed.code
    | .ok out => executeMultihop dex caller out minAmountOut rest

/-- The loop over the whitelist after the leg of a single route has failed. -/
def fallbackLoop (dex : Dex δ) (caller failed tokenIn tokenOut : Address)
    (amountIn minAmountOut : Int) : List DexEntry → Entry δ Int
  | [] => fail AggregatorError.allRoutesFailed.code
  | entry :: rest =>
    if entry.dexAddress = failed ∨ entry.active = false then
      fallbackLoop dex caller failed tokenIn tokenOut amountIn minAmountOut rest
    else do
      let fb ← tryExecuteLeg dex caller entry.dexAddress tokenIn tokenOut amountIn minAmountOut
      match fb with
      | .ok out => return out
      | .error _ => do
        publish (.routeFallback entry.dexId 2)
        fallbackLoop dex caller failed tokenIn tokenOut amountIn minAmountOut rest

def executeRoute (dex : Dex δ) (caller tokenIn tokenOut : Address)
    (amountIn minAmountOut : Int) (quote : SwapQuote) : Entry δ Int :=
  match quote.route.legs with
  | [] => fail AggregatorError.noRouteFound.code
  | leg :: rest =>
    if quote.route.isMultiHop = true then
      executeMultihop dex caller amountIn minAmountOut (leg :: rest)
    else if rest ≠ [] then executeSplit dex caller amountIn minAmountOut (leg :: rest)
    else do
      let result ← tryExecuteLeg dex caller leg.dexAddress tokenIn tokenOut amountIn minAmountOut
      match result with
      | .ok out => return out
      | .error _ => do
        publish (.routeFallback leg.dexId 1)
        let entries ← read (·.dexEntries)
        fallbackLoop dex caller leg.dexAddress tokenIn tokenOut amountIn minAmountOut entries

def swap (dex : Dex δ) (xlm : Address) (caller tokenIn tokenOut : Address)
    (amountIn minAmountOut : Int) (slippageBps : Nat) : Entry δ Int := do
  requireAuth caller
  ensure (¬ amountIn ≤ 0) AggregatorError.invalidAmount.code
  ensure (¬ minAmountOut < 0) AggregatorError.invalidAmount.code
  ensure (¬ slippageBps > maxSlippageBps) AggregatorError.slippageTooHigh.code
  let dexes ← read (·.activeIds)
  ensure (dexes ≠ []) AggregatorError.noDexAvailable.code
  let quote ← findBestRoute dex xlm tokenIn tokenOut amountIn slippageBps
  ensure (¬ quote.priceImpactBps > maxPriceImpactBps) AggregatorError.priceImpactTooHigh.code
  ensure (¬ quote.expectedOut < minAmountOut) AggregatorError.slippageExceeded.code
  let amountOut ← executeRoute dex caller tokenIn tokenOut amountIn minAmountOut quote
  let feeBps ← read (·.fee)
  let product ← mulI128 amountOut feeBps
  let fee := product.tdiv 10000
  let amountOutNet ← subI128 amountOut fee
  publish (.swapExecuted caller tokenIn tokenOut amountIn amountOutNet fee
    quote.route.legs.length quote.priceImpactBps quote.isSplit)
  return amountOutNet

end SwapAggregatorContract
