import AgenticPay.SwapAggregator

/-!
# What a swap guarantees of its output

The floor of the caller is held against the output before the protocol fee, and
the fee is deducted afterwards.
-/
namespace SwapAggregatorContract

open Soroban Contract

variable {δ : Type} {dex : Dex δ} {xlm caller tokenIn tokenOut dexAddress : Address}
  {amountIn minAmountOut : Int} {slippageBps : Nat} {env : Env} {w w' : World δ}

/-- What no call of an exchange touches. -/
def settings (w : World δ) : Option Address × Option Nat × Option Bool × Option (List DexEntry) :=
  (w.storage.admin, w.storage.feeBps, w.storage.init, w.storage.dexList)

/-- The world after a swap that an exchange has not reverted. -/
def taken (w : World δ) (caller token : Address) (amount : Int) (next : δ) : World δ :=
  { w with storage := { w.storage.take caller token amount with dex := next } }

/-- The three ways in which the attempt of a leg ends. -/
inductive Leg (dex : Dex δ) (caller dexAddress tokenIn tokenOut : Address)
    (amountIn minAmountOut : Int) (w : World δ) : Except AggregatorError Int → World δ → Prop
  | reverted (h : dex.swap dexAddress caller tokenIn tokenOut amountIn minAmountOut w.storage.dex =
        .reverted) :
      Leg dex caller dexAddress tokenIn tokenOut amountIn minAmountOut w (.error .dexCallFailed) w
  | filled {out next}
      (h : dex.swap dexAddress caller tokenIn tokenOut amountIn minAmountOut w.storage.dex =
        .returned (some out) next)
      (enough : minAmountOut ≤ out) :
      Leg dex caller dexAddress tokenIn tokenOut amountIn minAmountOut w (.ok out)
        (taken w caller tokenIn amountIn next)
  | short {value next e}
      (h : dex.swap dexAddress caller tokenIn tokenOut amountIn minAmountOut w.storage.dex =
        .returned value next)
      (less : ∀ out, value = some out → out < minAmountOut) :
      Leg dex caller dexAddress tokenIn tokenOut amountIn minAmountOut w (.error e)
        (taken w caller tokenIn amountIn next)

theorem leg_of_ok {r : Except AggregatorError Int}
    (h : tryExecuteLeg dex caller dexAddress tokenIn tokenOut amountIn minAmountOut env w =
      .ok (r, w')) :
    Leg dex caller dexAddress tokenIn tokenOut amountIn minAmountOut w r w' := by
  simp only [tryExecuteLeg, bind_ok, invokeSwap] at h
  obtain ⟨result, v, hinvoked, h⟩ := h
  cases hswap : dex.swap dexAddress caller tokenIn tokenOut amountIn minAmountOut w.storage.dex with
  | reverted =>
    simp only [hswap, Except.ok.injEq, Prod.mk.injEq] at hinvoked
    obtain ⟨rfl, rfl⟩ := hinvoked
    obtain ⟨rfl, rfl⟩ := pure_ok.mp h
    exact .reverted hswap
  | returned value next =>
    simp only [hswap, Except.ok.injEq, Prod.mk.injEq] at hinvoked
    obtain ⟨rfl, rfl⟩ := hinvoked
    cases value with
    | none =>
      obtain ⟨rfl, rfl⟩ := pure_ok.mp h
      exact .short hswap (by rintro _ ⟨⟩)
    | some out =>
      rw [ite_ok] at h
      obtain ⟨henough, h⟩ | ⟨hless, h⟩ := h
      · obtain ⟨rfl, rfl⟩ := pure_ok.mp h
        exact .filled hswap henough
      · obtain ⟨rfl, rfl⟩ := pure_ok.mp h
        refine .short hswap ?_
        intro out' he
        rw [Option.some_inj] at he
        omega

theorem Leg.settings {r : Except AggregatorError Int}
    (h : Leg dex caller dexAddress tokenIn tokenOut amountIn minAmountOut w r w') :
    settings w' = settings w := by
  cases h <;> rfl

theorem Leg.floor {out : Int}
    (h : Leg dex caller dexAddress tokenIn tokenOut amountIn minAmountOut w (.ok out) w') :
    minAmountOut ≤ out := by
  cases h with
  | filled _ enough => exact enough

/-! ## The output of a route -/

theorem splitLoop_settings {legs : List RouteLeg} {totalOut out : Int}
    (h : splitLoop dex caller amountIn minAmountOut legs totalOut env w = .ok (out, w')) :
    settings w' = settings w := by
  induction legs generalizing totalOut w with
  | nil =>
    obtain ⟨_, rfl⟩ := pure_ok.mp h
    rfl
  | cons leg rest ih =>
    simp only [splitLoop, bind_ok, mulI128_ok] at h
    obtain ⟨_, _, ⟨_, _, rfl⟩, _, _, ⟨_, _, rfl⟩, r, v, hleg, h⟩ := h
    cases r with
    | error e => simp at h
    | ok filled =>
      simp only [bind_ok, addI128_ok] at h
      obtain ⟨_, _, ⟨_, _, rfl⟩, hrest⟩ := h
      rw [ih hrest]
      exact (leg_of_ok hleg).settings

theorem executeSplit_floor {legs : List RouteLeg} {out : Int}
    (h : executeSplit dex caller amountIn minAmountOut legs env w = .ok (out, w')) :
    minAmountOut ≤ out ∧ settings w' = settings w := by
  simp only [executeSplit, bind_ok, ensure_ok, pure_ok] at h
  obtain ⟨total, v, hloop, _, _, ⟨henough, rfl⟩, rfl, rfl⟩ := h
  exact ⟨by omega, splitLoop_settings hloop⟩

theorem executeMultihop_floor {leg : RouteLeg} {rest : List RouteLeg} {currentIn out : Int}
    (h : executeMultihop dex caller currentIn minAmountOut (leg :: rest) env w = .ok (out, w')) :
    minAmountOut ≤ out ∧ settings w' = settings w := by
  induction rest generalizing leg currentIn w with
  | nil =>
    simp only [executeMultihop, bind_ok, if_true] at h
    obtain ⟨r, v, hleg, h⟩ := h
    cases r with
    | error e => simp at h
    | ok filled =>
      obtain ⟨rfl, rfl⟩ := pure_ok.mp h
      exact ⟨(leg_of_ok hleg).floor, (leg_of_ok hleg).settings⟩
  | cons next rest ih =>
    rw [executeMultihop, bind_ok] at h
    obtain ⟨r, v, hleg, h⟩ := h
    cases r with
    | error e => simp at h
    | ok filled =>
      obtain ⟨hfloor, hsettings⟩ := ih h
      exact ⟨hfloor, hsettings.trans (leg_of_ok hleg).settings⟩

theorem fallbackLoop_floor {entries : List DexEntry} {failed : Address} {out : Int}
    (h : fallbackLoop dex caller failed tokenIn tokenOut amountIn minAmountOut entries env w =
      .ok (out, w')) : minAmountOut ≤ out ∧ settings w' = settings w := by
  induction entries generalizing w with
  | nil => simp [fallbackLoop] at h
  | cons entry rest ih =>
    rw [fallbackLoop, ite_ok] at h
    obtain ⟨_, h⟩ | ⟨_, h⟩ := h
    · exact ih h
    · rw [bind_ok] at h
      obtain ⟨r, v, hleg, h⟩ := h
      cases r with
      | ok filled =>
        obtain ⟨rfl, rfl⟩ := pure_ok.mp h
        exact ⟨(leg_of_ok hleg).floor, (leg_of_ok hleg).settings⟩
      | error e =>
        simp only [bind_ok, publish_ok] at h
        obtain ⟨_, _, rfl, hrest⟩ := h
        obtain ⟨hfloor, hsettings⟩ := ih hrest
        exact ⟨hfloor, hsettings.trans (leg_of_ok hleg).settings⟩

/-- Whatever the exchanges answer, an executed route gives at least the floor. -/
theorem executeRoute_floor {quote : SwapQuote} {out : Int}
    (h : executeRoute dex caller tokenIn tokenOut amountIn minAmountOut quote env w =
      .ok (out, w')) : minAmountOut ≤ out ∧ settings w' = settings w := by
  cases hlegs : quote.route.legs with
  | nil => simp [executeRoute, hlegs] at h
  | cons leg rest =>
    simp only [executeRoute, hlegs, ite_ok] at h
    obtain ⟨_, h⟩ | ⟨_, ⟨_, h⟩ | ⟨_, h⟩⟩ := h
    · exact executeMultihop_floor h
    · exact executeSplit_floor h
    · rw [bind_ok] at h
      obtain ⟨r, v, hleg, h⟩ := h
      cases r with
      | ok filled =>
        obtain ⟨rfl, rfl⟩ := pure_ok.mp h
        exact ⟨(leg_of_ok hleg).floor, (leg_of_ok hleg).settings⟩
      | error e =>
        simp only [bind_ok, publish_ok, read_ok] at h
        obtain ⟨_, _, rfl, _, _, ⟨rfl, rfl⟩, hrest⟩ := h
        obtain ⟨hfloor, hsettings⟩ := fallbackLoop_floor hrest
        exact ⟨hfloor, hsettings.trans (leg_of_ok hleg).settings⟩

/-! ## The quote of a route -/

/-- The best route so far, when there is one, is of its output, and estimating a fee of it
has not left the width. -/
def Estimated (best : Option SwapRoute × Int) : Prop :=
  ∀ route, best.1 = some route → route.expectedOut = best.2 ∧ best.2 * 30 < i128Bound

theorem invokeQuote_settings {r : Option Int}
    (h : invokeQuote dex dexAddress tokenIn tokenOut amountIn env w = .ok (r, w')) :
    settings w' = settings w := by
  rw [invokeQuote] at h
  split at h
  · obtain ⟨rfl, rfl⟩ := Prod.mk.inj (Except.ok.inj h)
    rfl
  · obtain ⟨rfl, rfl⟩ := Prod.mk.inj (Except.ok.inj h)
    rfl

theorem collectQuotes_settings {entries : List DexEntry} {l r : List DirectQuote}
    (h : collectQuotes dex tokenIn tokenOut amountIn entries l env w = .ok (r, w')) :
    settings w' = settings w := by
  induction entries generalizing l w with
  | nil =>
    obtain ⟨_, rfl⟩ := pure_ok.mp h
    rfl
  | cons entry rest ih =>
    rw [collectQuotes, ite_ok] at h
    obtain ⟨_, h⟩ | ⟨_, h⟩ := h
    · exact ih h
    · rw [bind_ok] at h
      obtain ⟨result, v, hquote, h⟩ := h
      have hrest : settings w' = settings v := by
        cases result with
        | none => exact ih h
        | some out =>
          rw [ite_ok] at h
          obtain ⟨_, h⟩ | ⟨_, h⟩ := h
          · exact ih h
          · exact ih h
      exact hrest.trans (invokeQuote_settings hquote)

@[simp] theorem estimateDexFee_ok {amountOut fee : Int} {feeBps : Nat} :
    estimateDexFee amountOut feeBps env w = .ok (fee, w') ↔
      (-i128Bound ≤ amountOut * feeBps ∧ amountOut * feeBps < i128Bound) ∧
        (amountOut * feeBps).tdiv 10000 = fee ∧ w = w' := by
  simp only [estimateDexFee, bind_ok, mulI128_ok, pure_ok]
  constructor
  · rintro ⟨_, _, ⟨hfits, rfl, rfl⟩, rfl, rfl⟩
    exact ⟨hfits, rfl, rfl⟩
  · rintro ⟨hfits, rfl, rfl⟩
    exact ⟨_, _, ⟨hfits, rfl, rfl⟩, rfl, rfl⟩

theorem scaleQuote_same {fullQuote fullIn partialIn r : Int}
    (h : scaleQuote fullQuote fullIn partialIn env w = .ok (r, w')) : w' = w := by
  rw [scaleQuote, ite_ok] at h
  obtain ⟨_, h⟩ | ⟨_, h⟩ := h
  · exact (pure_ok.mp h).2.symm
  · simp only [bind_ok, mulI128_ok, pure_ok] at h
    obtain ⟨_, _, ⟨_, _, rfl⟩, _, rfl⟩ := h
    rfl

theorem singleCandidate_estimated {directQuotes : List DirectQuote}
    {best : Option SwapRoute × Int}
    (h : singleCandidate tokenIn tokenOut directQuotes env w = .ok (best, w')) :
    Estimated best ∧ w' = w := by
  cases directQuotes with
  | nil =>
    obtain ⟨rfl, rfl⟩ := pure_ok.mp h
    exact ⟨nofun, rfl⟩
  | cons top rest =>
    simp only [singleCandidate, bind_ok, estimateDexFee_ok, pure_ok] at h
    obtain ⟨_, _, ⟨⟨_, hfits⟩, _, rfl⟩, rfl, rfl⟩ := h
    refine ⟨?_, rfl⟩
    rintro _ ⟨⟩
    exact ⟨rfl, hfits⟩

theorem splitCandidate_estimated {directQuotes : List DirectQuote}
    {best best' : Option SwapRoute × Int} (hbest : Estimated best)
    (h : splitCandidate tokenIn tokenOut amountIn directQuotes best env w = .ok (best', w')) :
    Estimated best' ∧ w' = w := by
  match directQuotes with
  | [] | [_] =>
    obtain ⟨rfl, rfl⟩ := pure_ok.mp h
    exact ⟨hbest, rfl⟩
  | d0 :: d1 :: _ =>
    simp only [splitCandidate, bind_ok, subI128_ok, addI128_ok] at h
    obtain ⟨_, _, ⟨_, _, rfl⟩, out0, _, hout0, out1, _, hout1, _, _, ⟨_, rfl, rfl⟩, h⟩ := h
    obtain rfl := scaleQuote_same hout0
    obtain rfl := scaleQuote_same hout1
    rw [ite_ok] at h
    obtain ⟨_, h⟩ | ⟨_, h⟩ := h
    · simp only [bind_ok, estimateDexFee_ok, pure_ok] at h
      obtain ⟨_, _, ⟨⟨_, hfits⟩, _, rfl⟩, rfl, rfl⟩ := h
      refine ⟨?_, rfl⟩
      rintro _ ⟨⟩
      exact ⟨rfl, hfits⟩
    · obtain ⟨rfl, rfl⟩ := pure_ok.mp h
      exact ⟨hbest, rfl⟩

theorem tryMultihopRoute_estimated {entries : List DexEntry} {r : Option SwapRoute}
    (h : tryMultihopRoute dex xlm entries tokenIn tokenOut amountIn env w = .ok (r, w')) :
    (∀ route, r = some route → route.expectedOut * 30 < i128Bound) ∧
      settings w' = settings w := by
  rw [tryMultihopRoute] at h
  cases hfirst : entries.find? (·.active) with
  | none =>
    rw [hfirst] at h
    obtain ⟨rfl, rfl⟩ := pure_ok.mp h
    exact ⟨nofun, rfl⟩
  | some entry =>
    simp only [hfirst, bind_ok] at h
    obtain ⟨leg1Result, v, hleg1, h⟩ := h
    have hsettings := invokeQuote_settings hleg1
    cases hmid : leg1Result.filter (0 < ·) with
    | none =>
      simp only [hmid, pure_ok] at h
      obtain ⟨rfl, rfl⟩ := h
      exact ⟨nofun, hsettings⟩
    | some midOut =>
      simp only [hmid, bind_ok] at h
      obtain ⟨leg2Result, v', hleg2, h⟩ := h
      have hsettings' := (invokeQuote_settings hleg2).trans hsettings
      cases hfinal : leg2Result.filter (0 < ·) with
      | none =>
        simp only [hfinal, pure_ok] at h
        obtain ⟨rfl, rfl⟩ := h
        exact ⟨nofun, hsettings'⟩
      | some finalOut =>
        simp only [hfinal, bind_ok, estimateDexFee_ok, pure_ok] at h
        obtain ⟨_, _, ⟨⟨_, hfits⟩, _, rfl⟩, rfl, rfl⟩ := h
        have hpos : 0 < finalOut := by simpa using (Option.filter_eq_some_iff.mp hfinal).2
        refine ⟨?_, hsettings'⟩
        rintro _ ⟨⟩
        simp only at hfits ⊢
        omega

theorem hopCandidate_estimated {entries : List DexEntry} {directQuotes : List DirectQuote}
    {best best' : Option SwapRoute × Int} (hbest : Estimated best)
    (h : hopCandidate dex xlm entries tokenIn tokenOut amountIn directQuotes best env w =
      .ok (best', w')) : Estimated best' ∧ settings w' = settings w := by
  rw [hopCandidate, ite_ok] at h
  obtain ⟨_, h⟩ | ⟨_, h⟩ := h
  · rw [bind_ok] at h
    obtain ⟨hop, v, hroute, h⟩ := h
    obtain ⟨hfits, hsettings⟩ := tryMultihopRoute_estimated hroute
    cases hop with
    | none =>
      obtain ⟨rfl, rfl⟩ := pure_ok.mp h
      exact ⟨hbest, hsettings⟩
    | some route =>
      rw [ite_ok] at h
      obtain ⟨_, h⟩ | ⟨_, h⟩ := h
      · obtain ⟨rfl, rfl⟩ := pure_ok.mp h
        refine ⟨?_, hsettings⟩
        rintro _ ⟨⟩
        exact ⟨rfl, hfits route rfl⟩
      · obtain ⟨rfl, rfl⟩ := pure_ok.mp h
        exact ⟨hbest, hsettings⟩
  · obtain ⟨rfl, rfl⟩ := pure_ok.mp h
    exact ⟨hbest, rfl⟩

theorem computePriceImpactBps_same {dexFees expectedOut : Int} {r : Nat}
    (h : computePriceImpactBps dexFees expectedOut env w = .ok (r, w')) : w' = w := by
  rw [computePriceImpactBps, ite_ok] at h
  obtain ⟨_, h⟩ | ⟨_, h⟩ := h
  · exact (pure_ok.mp h).2.symm
  · simp only [bind_ok, mulI128_ok, pure_ok] at h
    obtain ⟨_, _, ⟨_, _, rfl⟩, _, rfl⟩ := h
    rfl

/-- A quote is of a positive output, and neither its fee estimate nor its tolerance has left
the width. -/
theorem findBestRoute_estimated {quote : SwapQuote}
    (h : findBestRoute dex xlm tokenIn tokenOut amountIn slippageBps env w = .ok (quote, w')) :
    0 < quote.expectedOut ∧ quote.expectedOut * 30 < i128Bound ∧
      quote.expectedOut * slippageBps < i128Bound ∧ settings w' = settings w := by
  simp only [findBestRoute, bind_ok, read_ok, ensure_ok, okOr_ok, mulI128_ok, subI128_ok,
    pure_ok, and_assoc, exists_and_left, exists_eq_left', exists_const] at h
  obtain ⟨_, collected, w₁, hcollected, single, w₂, hsingle, split, w₃, hsplit, best, w₄, hbest,
    route, hroute, hpos, impact, w₅, himpact, _, hfits, _, _, rfl, rfl⟩ := h
  obtain ⟨hone, rfl⟩ := singleCandidate_estimated hsingle
  obtain ⟨htwo, rfl⟩ := splitCandidate_estimated hone hsplit
  obtain ⟨hthree, hsettings⟩ := hopCandidate_estimated htwo hbest
  obtain rfl := computePriceImpactBps_same himpact
  obtain ⟨hout, hestimate⟩ := hthree route hroute
  rw [hout] at hpos hfits
  exact ⟨by simpa using hpos, hestimate, hfits, hsettings.trans (collectQuotes_settings hcollected)⟩

/-! ## The protocol fee -/

/-- What is left of an output after the protocol fee. -/
def net (feeBps : Nat) (amountOut : Int) : Int := amountOut - (amountOut * feeBps).tdiv 10000

theorem net_mono {feeBps : Nat} {a b : Int} (hfee : feeBps ≤ maxFeeBps) (ha : 0 ≤ a)
    (hab : a ≤ b) : net feeBps a ≤ net feeBps b := by
  have hfeeNonneg : (0 : Int) ≤ feeBps := Int.natCast_nonneg feeBps
  have hcap : (feeBps : Int) ≤ 200 := by
    simp only [maxFeeBps] at hfee
    omega
  have hpos : 0 ≤ a * feeBps := Int.mul_nonneg ha hfeeNonneg
  have hle : a * feeBps ≤ b * feeBps := Int.mul_le_mul_of_nonneg_right hab hfeeNonneg
  have hgrowth : b * feeBps - a * feeBps ≤ (b - a) * 200 := by
    rw [← Int.sub_mul]
    exact Int.mul_le_mul_of_nonneg_left hcap (by omega)
  rw [net, net, Int.tdiv_eq_ediv_of_nonneg hpos, Int.tdiv_eq_ediv_of_nonneg (by omega)]
  omega

theorem net_eq_self {feeBps : Nat} {a : Int} (ha : 0 ≤ a) (h : a * feeBps < 10000) :
    net feeBps a = a := by
  have hpos : 0 ≤ a * feeBps := Int.mul_nonneg ha (Int.natCast_nonneg feeBps)
  rw [net, Int.tdiv_eq_ediv_of_nonneg hpos]
  omega

theorem net_bounds {bps : Nat} {a : Int} (hbps : bps ≤ 10000) (ha : 0 ≤ a) :
    0 ≤ a * bps ∧ 0 ≤ net bps a ∧ net bps a ≤ a := by
  have hpos : 0 ≤ a * bps := Int.mul_nonneg ha (Int.natCast_nonneg bps)
  have hle : a * bps ≤ a * 10000 := Int.mul_le_mul_of_nonneg_left (by omega) ha
  rw [net, Int.tdiv_eq_ediv_of_nonneg hpos]
  omega

theorem net_lt_self {feeBps : Nat} {a : Int} (h : 10000 ≤ a * feeBps) : net feeBps a < a := by
  rw [net, Int.tdiv_eq_ediv_of_nonneg (by omega)]
  omega

/-- What a returned swap has checked of the floor, of its route and of the fee. -/
theorem swap_returned {out : Int}
    (h : swap dex xlm caller tokenIn tokenOut amountIn minAmountOut slippageBps env w =
      .ok (out, w')) :
    ∃ expectedOut amountOut : Int, 0 ≤ minAmountOut ∧ minAmountOut ≤ expectedOut ∧
      expectedOut * 30 < i128Bound ∧ expectedOut * slippageBps < i128Bound ∧
      minAmountOut ≤ amountOut ∧ amountOut * w.storage.fee < i128Bound ∧
      out = net w.storage.fee amountOut := by
  simp only [swap, bind_ok, requireAuth_ok, ensure_ok, read_ok, mulI128_ok, subI128_ok,
    publish_ok, pure_ok, and_assoc, exists_and_left, exists_eq_left', exists_const] at h
  obtain ⟨_, _, hfloor, _, _, quote, w₁, hquote, _, hexpected, amountOut, w₂, hexecuted, _, hfits,
    _, _, rfl, _⟩ := h
  obtain ⟨_, hestimate, htolerance, hquoted⟩ := findBestRoute_estimated hquote
  obtain ⟨hout, hrouted⟩ := executeRoute_floor hexecuted
  have hfee : w₂.storage.fee = w.storage.fee := by
    have hkept := congrArg (·.2.1) (hrouted.trans hquoted)
    rw [Storage.fee, Storage.fee]
    exact congrArg (·.getD 30) hkept
  rw [hfee] at hfits ⊢
  exact ⟨quote.expectedOut, amountOut, by omega, by omega, hestimate, htolerance, hout, hfits, rfl⟩

/-- Whatever the exchanges answer, a swap that returns under these settings gives the caller
at least the floor. -/
def Guaranteed (xlm : Address) (feeBps slippageBps : Nat) (minAmountOut : Int) : Prop :=
  ∀ (δ : Type) (dex : Dex δ) (env : Env) (w w' : World δ) (caller tokenIn tokenOut : Address)
    (amountIn out : Int), w.storage.fee = feeBps →
    swap dex xlm caller tokenIn tokenOut amountIn minAmountOut slippageBps env w = .ok (out, w') →
    minAmountOut ≤ out

/-! ## One exchange that quotes and pays the floor, and no more -/

/-- Every quote but one for `xlm`, and every swap, is of this amount. -/
def exactDex (xlm : Address) (amount : Int) : Dex Unit where
  quote := fun _ _ tokenOut _ _ => if tokenOut = xlm then .reverted else .returned (some amount) ()
  swap := fun _ _ _ _ _ _ _ => .returned (some amount) ()

/-- An initialized aggregator with one exchange on its whitelist. -/
def whitelisted (feeBps : Nat) : World Unit where
  storage :=
    { admin := some ⟨1⟩, feeBps := some feeBps, init := some true,
      dexList := some [{ dexId := "amm", dexAddress := ⟨2⟩, active := true }], dex := (),
      spent := fun _ _ => 0 }
  events := []

theorem collectQuotes_exact {amount : Int} {feeBps : Nat} (hne : tokenOut ≠ xlm)
    (hpos : 0 < amount) :
    collectQuotes (exactDex xlm amount) tokenIn tokenOut amountIn
        [{ dexId := "amm", dexAddress := ⟨2⟩, active := true }] [] env (whitelisted feeBps) =
      .ok ([⟨"amm", ⟨2⟩, amount⟩], whitelisted feeBps) := by
  simp [collectQuotes, invokeQuote, exactDex, hne, hpos, bind, pure]

/-- The quote of the only exchange. -/
def exactQuote (tokenIn tokenOut : Address) (amount : Int) (slippageBps : Nat) : SwapQuote where
  route :=
    { legs := [directLeg ⟨"amm", ⟨2⟩, amount⟩ tokenIn tokenOut 10000 amount],
      expectedOut := amount, dexFees := (amount * 30).tdiv 10000, isMultiHop := false }
  expectedOut := amount
  minAmountOut := amount - (amount * slippageBps).tdiv 10000
  slippageBps := slippageBps
  priceImpactBps := asU32 (((amount * 30).tdiv 10000 * 10000).tdiv amount)
  isSplit := false

theorem hopCandidate_exact {amount : Int} {feeBps : Nat} {best : Option SwapRoute × Int}
    {directQuotes : List DirectQuote} :
    hopCandidate (exactDex xlm amount) xlm
        [{ dexId := "amm", dexAddress := ⟨2⟩, active := true }] tokenIn tokenOut amountIn
        directQuotes best env (whitelisted feeBps) = .ok (best, whitelisted feeBps) := by
  have hreverted : invokeQuote (exactDex xlm amount) ⟨2⟩ tokenIn xlm amountIn env
      (whitelisted feeBps) = .ok (none, whitelisted feeBps) := by
    simp [invokeQuote, exactDex]
  have hhop : tryMultihopRoute (exactDex xlm amount) xlm
      [{ dexId := "amm", dexAddress := ⟨2⟩, active := true }] tokenIn tokenOut amountIn env
      (whitelisted feeBps) = .ok (none, whitelisted feeBps) := by
    simp only [tryMultihopRoute, List.find?_cons_of_pos, bind_ok]
    exact ⟨none, _, hreverted, rfl⟩
  rw [hopCandidate]
  split
  · rw [bind_ok]
    exact ⟨none, _, hhop, rfl⟩
  · rfl

theorem findBestRoute_exact {amount : Int} {feeBps : Nat} (hne : tokenOut ≠ xlm)
    (hpos : 0 < amount) (hestimate : amount * 30 < i128Bound)
    (htolerance : amount * slippageBps < i128Bound) (hslippage : slippageBps ≤ maxSlippageBps) :
    findBestRoute (exactDex xlm amount) xlm tokenIn tokenOut amountIn slippageBps env
        (whitelisted feeBps) =
      .ok (exactQuote tokenIn tokenOut amount slippageBps, whitelisted feeBps) := by
  have hsingle : singleCandidate tokenIn tokenOut [⟨"amm", ⟨2⟩, amount⟩] env (whitelisted feeBps) =
      .ok ((some (exactQuote tokenIn tokenOut amount slippageBps).route, amount),
        whitelisted feeBps) := by
    simp only [singleCandidate, bind_ok, estimateDexFee_ok]
    exact ⟨_, _, ⟨⟨by omega, hestimate⟩, rfl, rfl⟩, rfl⟩
  have himpact : computePriceImpactBps ((amount * 30).tdiv 10000) amount env
      (whitelisted feeBps) =
      .ok (asU32 (((amount * 30).tdiv 10000 * 10000).tdiv amount), whitelisted feeBps) := by
    have hfits : (amount * 30).tdiv 10000 * 10000 < i128Bound := by
      rw [Int.tdiv_eq_ediv_of_nonneg (by omega)]
      omega
    have hlow : -i128Bound ≤ (amount * 30).tdiv 10000 * 10000 := by
      rw [Int.tdiv_eq_ediv_of_nonneg (by omega)]
      simp only [i128Bound] at hestimate ⊢
      omega
    rw [computePriceImpactBps, if_neg (by omega), bind_ok]
    exact ⟨_, _, mulI128_ok.mpr ⟨⟨hlow, hfits⟩, rfl, rfl⟩, rfl⟩
  have hcap : slippageBps ≤ 10000 := by
    simp only [maxSlippageBps] at hslippage
    omega
  obtain ⟨hproduct, hrest⟩ := net_bounds hcap (Int.le_of_lt hpos)
  have hlow : -i128Bound ≤ 0 := by decide
  have hfits : amount < i128Bound := by omega
  simp only [findBestRoute, bind_ok, read_ok, ensure_ok, okOr_ok, mulI128_ok, subI128_ok, pure_ok]
  refine ⟨_, _, ⟨rfl, rfl⟩, (), _, ⟨List.cons_ne_nil _ _, rfl⟩, _, _,
    collectQuotes_exact hne hpos, _, _, hsingle, _, _, rfl, _, _, hopCandidate_exact, _, _,
    ⟨rfl, rfl⟩, (), _, ⟨?_, rfl⟩, _, _, himpact, _, _, ⟨⟨?_, htolerance⟩, rfl, rfl⟩, _, _,
    ⟨⟨?_, ?_⟩, rfl, rfl⟩, rfl, rfl⟩
  · exact Int.not_le.mpr hpos
  · exact Int.le_trans hlow hproduct
  · exact Int.le_trans hlow hrest.1
  · exact Int.lt_of_le_of_lt hrest.2 hfits

theorem exactQuote_impact {amount : Int} (hpos : 0 < amount) :
    (exactQuote tokenIn tokenOut amount slippageBps).priceImpactBps ≤ maxPriceImpactBps := by
  have hfees : (amount * 30).tdiv 10000 = amount * 30 / 10000 :=
    Int.tdiv_eq_ediv_of_nonneg (by omega)
  have hratio : amount * 30 / 10000 * 10000 / amount ≤ 30 :=
    Int.ediv_le_of_le_mul hpos (by omega)
  have hnonneg : 0 ≤ amount * 30 / 10000 * 10000 / amount :=
    Int.ediv_nonneg (by omega) (by omega)
  have hquotient : (amount * 30 / 10000 * 10000).tdiv amount =
      amount * 30 / 10000 * 10000 / amount := Int.tdiv_eq_ediv_of_nonneg (by omega)
  simp only [exactQuote, hfees, hquotient, asU32, maxPriceImpactBps]
  omega

/-- A swap over the only exchange returns, and gives the floor less the fee. -/
theorem swap_exact {amount : Int} {feeBps : Nat} (hne : tokenOut ≠ xlm) (hpos : 0 < amount)
    (hestimate : amount * 30 < i128Bound) (htolerance : amount * slippageBps < i128Bound)
    (hcharge : amount * feeBps < i128Bound) (hfee : feeBps ≤ maxFeeBps)
    (hslippage : slippageBps ≤ maxSlippageBps) :
    ∃ w', swap (exactDex xlm amount) xlm ⟨3⟩ ⟨4⟩ tokenOut 1 amount slippageBps
      { timestamp := 0, auths := [⟨3⟩] } (whitelisted feeBps) = .ok (net feeBps amount, w') := by
  let quote := exactQuote ⟨4⟩ tokenOut amount slippageBps
  let executed := taken (whitelisted feeBps) ⟨3⟩ ⟨4⟩ 1 ()
  have hexecuted : executeRoute (exactDex xlm amount) ⟨3⟩ ⟨4⟩ tokenOut 1 amount
      (exactQuote ⟨4⟩ tokenOut amount slippageBps) { timestamp := 0, auths := [⟨3⟩] }
      (whitelisted feeBps) = .ok (amount, taken (whitelisted feeBps) ⟨3⟩ ⟨4⟩ 1 ()) := by
    simp [executeRoute, exactQuote, tryExecuteLeg, invokeSwap, exactDex, taken, bind, pure]
  have hcap : feeBps ≤ 10000 := by
    simp only [maxFeeBps] at hfee
    omega
  obtain ⟨hproduct, hrest⟩ := net_bounds hcap (Int.le_of_lt hpos)
  have hlow : -i128Bound ≤ 0 := by decide
  have hfits : amount < i128Bound := by omega
  refine ⟨{ executed with events := [.swapExecuted ⟨3⟩ ⟨4⟩ tokenOut 1 (net feeBps amount)
    ((amount * feeBps).tdiv 10000) 1 quote.priceImpactBps false] }, ?_⟩
  simp only [swap, bind_ok, requireAuth_ok, ensure_ok, read_ok, mulI128_ok, subI128_ok,
    publish_ok, pure_ok]
  refine ⟨(), _, ⟨List.mem_cons_self, rfl⟩, (), _, ⟨by decide, rfl⟩, (), _, ⟨by omega, rfl⟩, (), _,
    ⟨Nat.not_lt.mpr hslippage, rfl⟩, _, _, ⟨rfl, rfl⟩, (), _, ⟨List.cons_ne_nil _ _, rfl⟩, _, _,
    findBestRoute_exact hne hpos hestimate htolerance hslippage, (), _,
    ⟨Nat.not_lt.mpr (exactQuote_impact hpos), rfl⟩, (), _, ⟨Int.lt_irrefl _, rfl⟩, _, _, hexecuted,
    _, _, ⟨rfl, rfl⟩, _, _, ⟨⟨Int.le_trans hlow hproduct, hcharge⟩, rfl, rfl⟩, _, _,
    ⟨⟨Int.le_trans hlow hrest.1, Int.lt_of_le_of_lt hrest.2 hfits⟩, rfl, rfl⟩, (), _, rfl, rfl, rfl⟩

/-- With an admitted fee and slippage setting, every swap gives the caller the floor exactly when
the fee of the floor rounds to nothing, or the floor is so high that no swap returns. -/
theorem guaranteed_iff {xlm : Address} {feeBps slippageBps : Nat} {minAmountOut : Int}
    (hfee : feeBps ≤ maxFeeBps) (hslippage : slippageBps ≤ maxSlippageBps) :
    Guaranteed xlm feeBps slippageBps minAmountOut ↔
      minAmountOut * feeBps < 10000 ∨
        i128Bound ≤ minAmountOut * (max 30 (max slippageBps feeBps) : Nat) := by
  constructor
  · intro h
    by_contra hnot
    rw [not_or, Int.not_lt, Int.not_le] at hnot
    obtain ⟨hcharged, hwidth⟩ := hnot
    have hpos : 0 < minAmountOut := by
      by_contra hneg
      have hproduct : minAmountOut * feeBps ≤ 0 :=
        Int.mul_nonpos_of_nonpos_of_nonneg (by omega) (Int.natCast_nonneg feeBps)
      omega
    have hfits : ∀ k : Nat, k ≤ max 30 (max slippageBps feeBps) → minAmountOut * k < i128Bound := by
      intro k hk
      have hle : minAmountOut * k ≤ minAmountOut * (max 30 (max slippageBps feeBps) : Nat) :=
        Int.mul_le_mul_of_nonneg_left (by omega) (by omega)
      omega
    have hne : (⟨xlm.key + 1⟩ : Address) ≠ xlm := by
      intro he
      have hkey := congrArg Address.key he
      simp only at hkey
      omega
    obtain ⟨w', hswap⟩ := swap_exact hne hpos (hfits 30 (by omega)) (hfits slippageBps (by omega))
      (hfits feeBps (by omega)) hfee hslippage
    have hfloor := h Unit _ _ _ _ _ _ _ _ _ rfl hswap
    have hless := net_lt_self hcharged
    omega
  · rintro hcondition δ dex env w w' caller tokenIn tokenOut amountIn out rfl hswap
    obtain ⟨expectedOut, amountOut, hnonneg, hexpected, hestimate, htolerance, hout, hcharge,
      rfl⟩ := swap_returned hswap
    rcases hcondition with hfree | hwide
    · have hmono := net_mono hfee hnonneg hout
      rwa [net_eq_self hnonneg hfree] at hmono
    · have hlift : ∀ {a : Int} {k : Nat}, minAmountOut ≤ a → minAmountOut * k ≤ a * k :=
        fun hle => Int.mul_le_mul_of_nonneg_right hle (Int.natCast_nonneg _)
      have hthirty : minAmountOut * (30 : Nat) ≤ expectedOut * (30 : Nat) := hlift hexpected
      have hslip : minAmountOut * slippageBps ≤ expectedOut * slippageBps := hlift hexpected
      have hfee : minAmountOut * w.storage.fee ≤ amountOut * w.storage.fee := hlift hout
      have hchoice : max 30 (max slippageBps w.storage.fee) = 30 ∨
          max 30 (max slippageBps w.storage.fee) = slippageBps ∨
          max 30 (max slippageBps w.storage.fee) = w.storage.fee := by omega
      rcases hchoice with hmax | hmax | hmax
      all_goals
        rw [hmax] at hwide
        omega

theorem guaranteed_iff_thousand :
    Guaranteed ⟨9⟩ 30 50 1000 ↔
      (1000 : Int) * (30 : Nat) < 10000 ∨ i128Bound ≤ 1000 * (max 30 (max 50 30) : Nat) :=
  guaranteed_iff (by decide) (by decide)

/-- The exchange quotes and pays 1000, the floor is 1000, and the caller is left with 997. -/
theorem swap_below_floor :
    ∃ w', swap (exactDex ⟨9⟩ 1000) ⟨9⟩ ⟨3⟩ ⟨4⟩ ⟨5⟩ 1 1000 50 { timestamp := 0, auths := [⟨3⟩] }
        (whitelisted 30) = .ok (997, w') ∧ (997 : Int) < 1000 := by
  have hne : (⟨5⟩ : Address) ≠ ⟨9⟩ := by decide
  have hreturned : ∃ w', swap (exactDex ⟨9⟩ 1000) ⟨9⟩ ⟨3⟩ ⟨4⟩ ⟨5⟩ 1 1000 50
      { timestamp := 0, auths := [⟨3⟩] } (whitelisted 30) = .ok (net 30 1000, w') :=
    swap_exact hne (by decide) (by decide) (by decide) (by decide) (by decide) (by decide)
  obtain ⟨w', hswap⟩ := hreturned
  exact ⟨w', hswap, by decide⟩

end SwapAggregatorContract
