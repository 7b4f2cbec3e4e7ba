import AgenticPay.SwapGuarantee

/-!
# The route that a quote is over

What the exchanges answer to the quote calls, in the order in which they are
made, gives the candidates: a route over one exchange, over the two that quote
most, or over two hops. The route of a quote is the candidate of most output.
-/
namespace SwapAggregatorContract

open Soroban Contract

variable {δ : Type} {dex : Dex δ} {xlm tokenIn tokenOut dexAddress : Address} {amountIn : Int}
  {slippageBps : Nat} {env : Env} {w w' : World δ}

/-! ## The answers -/

/-- The `i128` that a call has returned, if any, and the exchanges after the call. -/
def Answer.seen (s : δ) : Answer δ → Option Int × δ
  | .reverted => (none, s)
  | .returned value next => (value, next)

def Dex.ask (dex : Dex δ) (dexAddress tokenIn tokenOut : Address) (amountIn : Int) (s : δ) :
    Option Int × δ :=
  (dex.quote dexAddress tokenIn tokenOut amountIn s).seen s

/-- The positive quotes of the active exchanges, and the exchanges after all of the calls. -/
def positiveQuotes (dex : Dex δ) (tokenIn tokenOut : Address) (amountIn : Int) :
    List DexEntry → δ → List DirectQuote × δ
  | [], s => ([], s)
  | entry :: rest, s =>
    if entry.active = false then positiveQuotes dex tokenIn tokenOut amountIn rest s
    else
      let answer := dex.ask entry.dexAddress tokenIn tokenOut amountIn s
      let later := positiveQuotes dex tokenIn tokenOut amountIn rest answer.2
      (((answer.1.filter (0 < ·)).map (DirectQuote.mk entry.dexId entry.dexAddress)).toList ++
        later.1, later.2)

def World.withDex (w : World δ) (s : δ) : World δ :=
  { w with storage := { w.storage with dex := s } }

theorem invokeQuote_ok {r : Option Int} :
    invokeQuote dex dexAddress tokenIn tokenOut amountIn env w = .ok (r, w') ↔
      (dex.ask dexAddress tokenIn tokenOut amountIn w.storage.dex).1 = r ∧
        World.withDex w (dex.ask dexAddress tokenIn tokenOut amountIn w.storage.dex).2 = w' := by
  rw [invokeQuote, Dex.ask]
  cases dex.quote dexAddress tokenIn tokenOut amountIn w.storage.dex with
  | reverted =>
    simp only [Except.ok.injEq, Prod.mk.injEq]
    exact Iff.rfl
  | returned value next =>
    simp only [Except.ok.injEq, Prod.mk.injEq]
    exact Iff.rfl

/-- Every quote is a positive one of an active exchange. -/
theorem positiveQuotes_spec {entries : List DexEntry} {s : δ} {quote : DirectQuote}
    (h : quote ∈ (positiveQuotes dex tokenIn tokenOut amountIn entries s).1) :
    0 < quote.out ∧ ∃ entry ∈ entries, entry.active = true ∧ entry.dexId = quote.dexId ∧
      entry.dexAddress = quote.dexAddress := by
  induction entries generalizing s with
  | nil => cases h
  | cons entry rest ih =>
    rw [positiveQuotes] at h
    split at h
    · obtain ⟨hpos, other, hother, hrest⟩ := ih h
      exact ⟨hpos, other, List.mem_cons_of_mem _ hother, hrest⟩
    · rename_i hactive
      rw [List.mem_append] at h
      cases h with
      | inl h =>
        rw [Option.mem_toList, Option.map_eq_some_iff] at h
        obtain ⟨out, hout, rfl⟩ := h
        have hpos : 0 < out := by simpa using (Option.filter_eq_some_iff.mp hout).2
        exact ⟨hpos, entry, List.mem_cons_self, by simpa using hactive, rfl, rfl⟩
      | inr h =>
        obtain ⟨hpos, other, hother, hrest⟩ := ih h
        exact ⟨hpos, other, List.mem_cons_of_mem _ hother, hrest⟩

theorem collectQuotes_spec {entries : List DexEntry} {l r : List DirectQuote}
    (h : collectQuotes dex tokenIn tokenOut amountIn entries l env w = .ok (r, w')) :
    r = l ++ (positiveQuotes dex tokenIn tokenOut amountIn entries w.storage.dex).1 ∧
      w' = World.withDex w
        (positiveQuotes dex tokenIn tokenOut amountIn entries w.storage.dex).2 := by
  induction entries generalizing l w with
  | nil =>
    obtain ⟨rfl, rfl⟩ := pure_ok.mp h
    exact ⟨(List.append_nil _).symm, rfl⟩
  | cons entry rest ih =>
    rw [collectQuotes, ite_ok] at h
    rw [positiveQuotes]
    obtain ⟨hactive, h⟩ | ⟨hactive, h⟩ := h
    · rw [if_pos hactive]
      exact ih h
    · rw [if_neg hactive]
      rw [bind_ok] at h
      obtain ⟨result, v, hquote, h⟩ := h
      obtain ⟨hresult, rfl⟩ := invokeQuote_ok.mp hquote
      simp only [hresult]
      cases result with
      | none =>
        obtain ⟨rfl, rfl⟩ := ih h
        exact ⟨rfl, rfl⟩
      | some out =>
        rw [ite_ok] at h
        obtain ⟨hpos, h⟩ | ⟨hpos, h⟩ := h
        · obtain ⟨rfl, rfl⟩ := ih h
          refine ⟨?_, rfl⟩
          rw [Option.filter_some, if_pos (by simpa using hpos), List.append_assoc]
          rfl
        · obtain ⟨rfl, rfl⟩ := ih h
          refine ⟨?_, rfl⟩
          rw [Option.filter_some, if_neg (by simpa using hpos)]
          rfl

/-! ## The candidates -/

/-- `d0` and `d1` are two quotes of the list, no other quotes more than `d1`, and `d1` no more
than `d0`. -/
def TwoBest (quotes : List DirectQuote) (d0 d1 : DirectQuote) : Prop :=
  d1.out ≤ d0.out ∧ ∃ rest, quotes.Perm (d0 :: d1 :: rest) ∧ ∀ d ∈ rest, d.out ≤ d1.out

/-- What a part of the amount is estimated to give at the rate of the quote for all of it. -/
def scaled (fullQuote fullIn partialIn : Int) : Int := fullQuote * partialIn / fullIn

def splitEstimate (d0 d1 : DirectQuote) (amountIn : Int) : Int :=
  scaled d0.out amountIn (amountIn / 2) + scaled d1.out amountIn (amountIn - amountIn / 2)

/-- The quotes that the search sees in a storage, and the exchanges after them. -/
def Storage.quotes (s : Storage δ) (dex : Dex δ) (tokenIn tokenOut : Address) (amountIn : Int) :
    List DirectQuote × δ :=
  positiveQuotes dex tokenIn tokenOut amountIn s.dexEntries s.dex

/-- The routes between which the search decides, each with its legs, whether it has two hops,
and its output. -/
inductive Candidate (dex : Dex δ) (xlm tokenIn tokenOut : Address) (amountIn : Int)
    (s : Storage δ) : List RouteLeg → Bool → Int → Prop
  | direct {d} (quoted : d ∈ (s.quotes dex tokenIn tokenOut amountIn).1) :
      Candidate dex xlm tokenIn tokenOut amountIn s
        [directLeg d tokenIn tokenOut 10000 d.out] false d.out
  | split {d0 d1} (best : TwoBest (s.quotes dex tokenIn tokenOut amountIn).1 d0 d1) :
      Candidate dex xlm tokenIn tokenOut amountIn s
        [directLeg d0 tokenIn tokenOut 5000 (scaled d0.out amountIn (amountIn / 2)),
          directLeg d1 tokenIn tokenOut 5000 (scaled d1.out amountIn (amountIn - amountIn / 2))]
        false (splitEstimate d0 d1 amountIn)
  | hops {entry midOut finalOut s₁ s₂} (first : s.dexEntries.find? (·.active) = some entry)
      (leg1 : dex.ask entry.dexAddress tokenIn xlm amountIn
        (s.quotes dex tokenIn tokenOut amountIn).2 = (some midOut, s₁)) (mid : 0 < midOut)
      (leg2 : dex.ask entry.dexAddress xlm tokenOut midOut s₁ = (some finalOut, s₂))
      (final : 0 < finalOut) :
      Candidate dex xlm tokenIn tokenOut amountIn s
        [⟨entry.dexId, entry.dexAddress, tokenIn, xlm, 10000, midOut⟩,
          ⟨entry.dexId, entry.dexAddress, xlm, tokenOut, 10000, finalOut⟩] true finalOut

theorem sortQuotes_perm (quotes : List DirectQuote) : (sortQuotes quotes).Perm quotes :=
  List.perm_insertionSort _ _

theorem sortQuotes_pairwise (quotes : List DirectQuote) :
    (sortQuotes quotes).Pairwise fun a b => b.out ≤ a.out := by
  have : Std.Total (fun a b : DirectQuote => b.out ≤ a.out) := ⟨fun a b => Int.le_total _ _⟩
  have : IsTrans DirectQuote (fun a b => b.out ≤ a.out) :=
    ⟨fun a b c hab hbc => Int.le_trans hbc hab⟩
  exact List.pairwise_insertionSort _ _

/-- The split is over the two best quotes. -/
theorem twoBest_of_sorted {quotes rest : List DirectQuote} {d0 d1 : DirectQuote}
    (h : sortQuotes quotes = d0 :: d1 :: rest) : TwoBest quotes d0 d1 := by
  have hsorted := sortQuotes_pairwise quotes
  rw [h, List.pairwise_cons, List.pairwise_cons] at hsorted
  obtain ⟨hd0, hd1, _⟩ := hsorted
  refine ⟨hd0 d1 List.mem_cons_self, rest, ?_, hd1⟩
  rw [← h]
  exact (sortQuotes_perm quotes).symm

/-- The two halves are floored at rates of which none is above that of the best quote. -/
theorem splitEstimate_le {d0 d1 : DirectQuote} (hin : 0 < amountIn) (h : d1.out ≤ d0.out) :
    splitEstimate d0 d1 amountIn ≤ d0.out := by
  have hrest : 0 ≤ amountIn - amountIn / 2 := by omega
  have hless : d1.out * (amountIn - amountIn / 2) ≤ d0.out * (amountIn - amountIn / 2) :=
    Int.mul_le_mul_of_nonneg_right h hrest
  have hmono : scaled d1.out amountIn (amountIn - amountIn / 2) ≤
      scaled d0.out amountIn (amountIn - amountIn / 2) := Int.ediv_le_ediv hin hless
  have hsum : d0.out * (amountIn / 2) + d0.out * (amountIn - amountIn / 2) = d0.out * amountIn := by
    rw [← Int.mul_add]
    congr 1
    omega
  have hfirst := Int.ediv_mul_le (d0.out * (amountIn / 2)) (by omega : amountIn ≠ 0)
  have hsecond := Int.ediv_mul_le (d0.out * (amountIn - amountIn / 2)) (by omega : amountIn ≠ 0)
  have hboth : (scaled d0.out amountIn (amountIn / 2) +
      scaled d0.out amountIn (amountIn - amountIn / 2)) * amountIn ≤ d0.out * amountIn := by
    rw [Int.add_mul, ← hsum]
    exact Int.add_le_add hfirst hsecond
  have hscaled := Int.le_of_mul_le_mul_right hboth hin
  rw [splitEstimate]
  omega

/-! ## The search -/

theorem scaleQuote_scaled {fullQuote partialIn r : Int} (hquote : 0 ≤ fullQuote)
    (hin : 0 < amountIn) (hpart : 0 ≤ partialIn)
    (h : scaleQuote fullQuote amountIn partialIn env w = .ok (r, w')) :
    r = scaled fullQuote amountIn partialIn ∧ w' = w := by
  refine ⟨?_, scaleQuote_same h⟩
  rw [scaleQuote, if_neg (by omega)] at h
  simp only [bind_ok, mulI128_ok, pure_ok] at h
  obtain ⟨_, _, ⟨_, rfl, _⟩, rfl, _⟩ := h
  exact Int.tdiv_eq_ediv_of_nonneg (Int.mul_nonneg hquote hpart)

/-- The route over the best quote. -/
theorem singleCandidate_spec {directQuotes : List DirectQuote} {best : Option SwapRoute × Int}
    (h : singleCandidate tokenIn tokenOut directQuotes env w = .ok (best, w')) :
    w' = w ∧ (directQuotes = [] ∧ best = (none, 0) ∨
      ∃ top rest dexFees, directQuotes = top :: rest ∧
        best = (some ⟨[directLeg top tokenIn tokenOut 10000 top.out], top.out, dexFees, false⟩,
          top.out)) := by
  cases directQuotes with
  | nil =>
    obtain ⟨rfl, rfl⟩ := pure_ok.mp h
    exact ⟨rfl, .inl ⟨rfl, rfl⟩⟩
  | cons top rest =>
    simp only [singleCandidate, bind_ok, estimateDexFee_ok, pure_ok] at h
    obtain ⟨dexFees, _, ⟨_, _, rfl⟩, rfl, rfl⟩ := h
    exact ⟨rfl, .inr ⟨top, rest, dexFees, rfl, rfl⟩⟩

/-- The split never replaces the best quote. -/
theorem splitCandidate_spec {directQuotes : List DirectQuote} {best best' : Option SwapRoute × Int}
    (hin : 0 < amountIn) (hpos : ∀ d ∈ directQuotes, 0 < d.out)
    (hsorted : directQuotes.Pairwise fun a b => b.out ≤ a.out)
    (htop : ∀ top rest, directQuotes = top :: rest → best.2 = top.out)
    (h : splitCandidate tokenIn tokenOut amountIn directQuotes best env w = .ok (best', w')) :
    best' = best ∧ w' = w := by
  match directQuotes with
  | [] | [_] =>
    obtain ⟨rfl, rfl⟩ := pure_ok.mp h
    exact ⟨rfl, rfl⟩
  | d0 :: d1 :: rest =>
    have hhalf : amountIn.tdiv 2 = amountIn / 2 := Int.tdiv_eq_ediv_of_nonneg (by omega)
    have hfirst : 0 < d0.out := hpos d0 List.mem_cons_self
    have hsecond : 0 < d1.out := hpos d1 (List.mem_cons_of_mem _ List.mem_cons_self)
    have hle : d1.out ≤ d0.out := (List.pairwise_cons.mp hsorted).1 d1 List.mem_cons_self
    have hbound := splitEstimate_le hin hle
    rw [splitEstimate] at hbound
    simp only [splitCandidate, bind_ok, subI128_ok, addI128_ok, hhalf] at h
    obtain ⟨_, _, ⟨_, rfl, rfl⟩, out0, _, hout0, out1, _, hout1, _, _, ⟨_, rfl, rfl⟩, h⟩ := h
    obtain ⟨rfl, rfl⟩ := scaleQuote_scaled (by omega) hin (by omega) hout0
    obtain ⟨rfl, rfl⟩ := scaleQuote_scaled (by omega) hin (by omega) hout1
    rw [ite_ok] at h
    obtain ⟨hmore, _⟩ | ⟨_, h⟩ := h
    · rw [htop d0 (d1 :: rest) rfl] at hmore
      omega
    · obtain ⟨rfl, rfl⟩ := pure_ok.mp h
      exact ⟨rfl, rfl⟩

/-- The two hops are tried exactly as the candidate has them. -/
theorem tryMultihopRoute_spec {s : Storage δ} {r : Option SwapRoute}
    (hdex : w.storage.dex = (s.quotes dex tokenIn tokenOut amountIn).2)
    (h : tryMultihopRoute dex xlm s.dexEntries tokenIn tokenOut amountIn env w = .ok (r, w')) :
    (∀ route, r = some route → route.isMultiHop = true ∧
      Candidate dex xlm tokenIn tokenOut amountIn s route.legs true route.expectedOut) ∧
    ∀ legs out, Candidate dex xlm tokenIn tokenOut amountIn s legs true out →
      ∃ route, r = some route ∧ route.expectedOut = out := by
  rw [tryMultihopRoute] at h
  cases hfirst : s.dexEntries.find? (·.active) with
  | none =>
    rw [hfirst] at h
    obtain ⟨rfl, rfl⟩ := pure_ok.mp h
    refine ⟨(by rintro _ ⟨⟩), ?_⟩
    intro legs out hcandidate
    cases hcandidate with
    | hops first => rw [hfirst] at first; cases first
  | some entry =>
    simp only [hfirst, bind_ok] at h
    obtain ⟨leg1Result, v, hleg1, h⟩ := h
    obtain ⟨hone, rfl⟩ := invokeQuote_ok.mp hleg1
    rw [hdex] at hone h
    have hones : ∀ {legs out}, Candidate dex xlm tokenIn tokenOut amountIn s legs true out →
        ∃ midOut, leg1Result = some midOut ∧ 0 < midOut ∧
          (dex.ask entry.dexAddress xlm tokenOut midOut
            (dex.ask entry.dexAddress tokenIn xlm amountIn
              (s.quotes dex tokenIn tokenOut amountIn).2).2).1 = some out ∧ 0 < out := by
      intro legs out hcandidate
      cases hcandidate with
      | hops first leg1 mid leg2 final =>
        rw [hfirst, Option.some_inj] at first
        subst first
        rw [leg1] at hone ⊢
        exact ⟨_, hone.symm, mid, congrArg Prod.fst leg2, final⟩
    cases hmid : leg1Result.filter (0 < ·) with
    | none =>
      simp only [hmid, pure_ok] at h
      obtain ⟨rfl, rfl⟩ := h
      refine ⟨(by rintro _ ⟨⟩), ?_⟩
      intro legs out hcandidate
      obtain ⟨midOut, rfl, hpos, _⟩ := hones hcandidate
      rw [Option.filter_some, if_pos (by simpa using hpos)] at hmid
      cases hmid
    | some midOut =>
      obtain ⟨rfl, hmidPos⟩ := Option.filter_eq_some_iff.mp hmid
      simp only [hmid, bind_ok] at h
      obtain ⟨leg2Result, v, hleg2, h⟩ := h
      obtain ⟨htwo, rfl⟩ := invokeQuote_ok.mp hleg2
      have htwo : (dex.ask entry.dexAddress xlm tokenOut midOut
          (dex.ask entry.dexAddress tokenIn xlm amountIn
            (s.quotes dex tokenIn tokenOut amountIn).2).2).1 = leg2Result := htwo
      cases hfinal : leg2Result.filter (0 < ·) with
      | none =>
        simp only [hfinal, pure_ok] at h
        obtain ⟨rfl, rfl⟩ := h
        refine ⟨(by rintro _ ⟨⟩), ?_⟩
        intro legs out hcandidate
        obtain ⟨mid, hmidEq, _, hout, hpos⟩ := hones hcandidate
        obtain rfl := Option.some_inj.mp hmidEq
        rw [← htwo, hout, Option.filter_some, if_pos (by simpa using hpos)] at hfinal
        cases hfinal
      | some finalOut =>
        obtain ⟨rfl, hfinalPos⟩ := Option.filter_eq_some_iff.mp hfinal
        simp only [hfinal, bind_ok, estimateDexFee_ok, pure_ok] at h
        obtain ⟨dexFees, _, ⟨_, _, rfl⟩, rfl, rfl⟩ := h
        refine ⟨?_, ?_⟩
        · rintro _ ⟨⟩
          exact ⟨rfl, .hops hfirst (Prod.ext hone rfl) (by simpa using hmidPos)
            (Prod.ext htwo rfl) (by simpa using hfinalPos)⟩
        · intro legs out hcandidate
          obtain ⟨mid, hmidEq, _, hout, _⟩ := hones hcandidate
          obtain rfl := Option.some_inj.mp hmidEq
          exact ⟨_, rfl, Option.some_inj.mp (htwo.symm.trans hout)⟩

/-- The route found so far is a candidate, with the output that goes with it. -/
def Chosen (dex : Dex δ) (xlm tokenIn tokenOut : Address) (amountIn : Int) (s : Storage δ)
    (best : Option SwapRoute × Int) : Prop :=
  ∀ route, best.1 = some route → route.expectedOut = best.2 ∧
    Candidate dex xlm tokenIn tokenOut amountIn s route.legs route.isMultiHop best.2

/-- After the hops have been tried, the better of the two is left. -/
theorem hopCandidate_spec {s : Storage δ} {directQuotes : List DirectQuote}
    {best best' : Option SwapRoute × Int}
    (hdex : w.storage.dex = (s.quotes dex tokenIn tokenOut amountIn).2)
    (hquotes : directQuotes ≠ []) (hpos : 0 < best.2)
    (hchosen : Chosen dex xlm tokenIn tokenOut amountIn s best)
    (h : hopCandidate dex xlm s.dexEntries tokenIn tokenOut amountIn directQuotes best env w =
      .ok (best', w')) :
    Chosen dex xlm tokenIn tokenOut amountIn s best' ∧ best.2 ≤ best'.2 ∧
      ∀ legs out, Candidate dex xlm tokenIn tokenOut amountIn s legs true out → out ≤ best'.2 := by
  have hlength : directQuotes.length ≥ 1 := List.length_pos_iff.mpr hquotes
  rw [hopCandidate, if_pos ⟨hpos, hlength⟩, bind_ok] at h
  obtain ⟨hop, v, hroute, h⟩ := h
  obtain ⟨hfound, hall⟩ := tryMultihopRoute_spec hdex hroute
  cases hop with
  | none =>
    obtain ⟨rfl, rfl⟩ := pure_ok.mp h
    refine ⟨hchosen, Int.le_refl _, ?_⟩
    intro legs out hcandidate
    obtain ⟨_, hnone, _⟩ := hall legs out hcandidate
    cases hnone
  | some hop =>
    have hout : ∀ legs out, Candidate dex xlm tokenIn tokenOut amountIn s legs true out →
        out = hop.expectedOut := by
      intro legs out hcandidate
      obtain ⟨_, hsome, hexpected⟩ := hall legs out hcandidate
      obtain rfl := Option.some_inj.mp hsome
      exact hexpected.symm
    rw [ite_ok] at h
    obtain ⟨hmore, h⟩ | ⟨hless, h⟩ := h
    · obtain ⟨rfl, rfl⟩ := pure_ok.mp h
      refine ⟨?_, Int.le_of_lt hmore, ?_⟩
      · intro route hsome
        obtain rfl := Option.some_inj.mp hsome
        obtain ⟨hmulti, hcandidate⟩ := hfound hop rfl
        rw [hmulti]
        exact ⟨rfl, hcandidate⟩
      · intro legs out hcandidate
        exact Int.le_of_eq (hout legs out hcandidate)
    · obtain ⟨rfl, rfl⟩ := pure_ok.mp h
      refine ⟨hchosen, Int.le_refl _, ?_⟩
      intro legs out hcandidate
      rw [hout legs out hcandidate]
      omega

/-- The quote is over the candidate of most output: no direct quote, no split and no two hops
give more, a split not even more than the better of its two quotes, and what is asked for after
slippage lies between nothing and the output. -/
theorem findBestRoute_maximum {quote : SwapQuote} (hin : 0 < amountIn)
    (hslippage : slippageBps ≤ 10000)
    (h : findBestRoute dex xlm tokenIn tokenOut amountIn slippageBps env w = .ok (quote, w')) :
    (quote.route.expectedOut = quote.expectedOut ∧
      Candidate dex xlm tokenIn tokenOut amountIn w.storage quote.route.legs
        quote.route.isMultiHop quote.expectedOut) ∧
    (∀ legs hops out, Candidate dex xlm tokenIn tokenOut amountIn w.storage legs hops out →
      out ≤ quote.expectedOut) ∧
    (∀ d0 d1, TwoBest (w.storage.quotes dex tokenIn tokenOut amountIn).1 d0 d1 →
      splitEstimate d0 d1 amountIn ≤ d0.out) ∧
    0 ≤ quote.minAmountOut ∧ quote.minAmountOut ≤ quote.expectedOut := by
  simp only [findBestRoute, bind_ok, read_ok, ensure_ok, okOr_ok, mulI128_ok, subI128_ok,
    pure_ok, and_assoc, exists_and_left, exists_eq_left', exists_const] at h
  obtain ⟨_, collected, w₁, hcollected, single, w₂, hsingle, split, w₃, hsplit, best, w₄, hbest,
    route, hroute, hpos, impact, w₅, himpact, _, _, _, _, rfl, rfl⟩ := h
  obtain ⟨hcollect, rfl⟩ := collectQuotes_spec hcollected
  have hquotes : collected = (w.storage.quotes dex tokenIn tokenOut amountIn).1 := hcollect
  have hsorted := sortQuotes_pairwise collected
  have hperm := sortQuotes_perm collected
  have hpositive : ∀ d ∈ sortQuotes collected, 0 < d.out := by
    intro d hd
    have hmem := hperm.mem_iff.mp hd
    rw [hquotes] at hmem
    exact (positiveQuotes_spec hmem).1
  obtain ⟨rfl, hone⟩ := singleCandidate_spec hsingle
  obtain ⟨hempty, rfl⟩ | ⟨top, rest, dexFees, hsort, rfl⟩ := hone
  · -- without a direct quote neither a split nor the hops are tried
    rw [hempty] at hsplit hbest
    obtain ⟨rfl, rfl⟩ := pure_ok.mp hsplit
    rw [hopCandidate, if_neg (by simp)] at hbest
    obtain ⟨rfl, rfl⟩ := pure_ok.mp hbest
    cases hroute
  · have htop : 0 < top.out := hpositive top (by rw [hsort]; exact List.mem_cons_self)
    have hmost : ∀ d ∈ collected, d.out ≤ top.out := by
      intro d hd
      have hmem := hperm.mem_iff.mpr hd
      rw [hsort] at hmem hsorted
      cases hmem with
      | head => exact Int.le_refl _
      | tail _ hmem => exact (List.pairwise_cons.mp hsorted).1 d hmem
    have hquoted : top ∈ (w.storage.quotes dex tokenIn tokenOut amountIn).1 := by
      rw [← hquotes]
      exact hperm.mem_iff.mp (by rw [hsort]; exact List.mem_cons_self)
    obtain ⟨rfl, rfl⟩ := splitCandidate_spec hin hpositive hsorted (by
      intro first others heq
      rw [hsort] at heq
      obtain ⟨rfl, _⟩ := List.cons.inj heq
      rfl) hsplit
    have hchosen : Chosen dex xlm tokenIn tokenOut amountIn w.storage
        (some ⟨[directLeg top tokenIn tokenOut 10000 top.out], top.out, dexFees, false⟩,
          top.out) := by
      rintro _ ⟨⟩
      exact ⟨rfl, .direct hquoted⟩
    have hsome : sortQuotes collected ≠ [] := by
      rw [hsort]
      exact List.cons_ne_nil _ _
    obtain ⟨hlast, hkept, hhops⟩ := hopCandidate_spec rfl hsome htop hchosen hbest
    obtain ⟨hexpected, hcandidate⟩ := hlast route hroute
    have hdirect : ∀ d ∈ (w.storage.quotes dex tokenIn tokenOut amountIn).1, d.out ≤ best.2 := by
      intro d hd
      rw [← hquotes] at hd
      exact Int.le_trans (hmost d hd) hkept
    have hsplits : ∀ d0 d1, TwoBest (w.storage.quotes dex tokenIn tokenOut amountIn).1 d0 d1 →
        splitEstimate d0 d1 amountIn ≤ d0.out :=
      fun d0 d1 htwo => splitEstimate_le hin htwo.1
    rw [hexpected] at hpos ⊢
    obtain ⟨_, hmin, hmax⟩ := net_bounds hslippage (by omega : 0 ≤ best.2)
    refine ⟨⟨rfl, hcandidate⟩, ?_, hsplits, hmin, hmax⟩
    intro legs hops out hother
    cases hother with
    | direct quoted => exact hdirect _ quoted
    | split htwo =>
      obtain ⟨_, others, hpermTwo, _⟩ := id htwo
      exact Int.le_trans (hsplits _ _ htwo) (hdirect _ (hpermTwo.mem_iff.mpr List.mem_cons_self))
    | hops first leg1 mid leg2 final => exact hhops _ _ (.hops first leg1 mid leg2 final)

/-! ## Three exchanges, of which one is not active -/

/-- The exchanges quote less and less of the pair, and a hop adds a tenth. -/
def fallingDex (xlm : Address) : Dex Unit where
  quote := fun dexAddress tokenIn tokenOut amountIn _ =>
    if tokenIn = xlm ∨ tokenOut = xlm then .returned (some (amountIn + amountIn / 10)) ()
    else .returned (some (amountIn - dexAddress.key)) ()
  swap := fun _ _ _ _ _ _ _ => .reverted

def threeListed : World Unit where
  storage :=
    { admin := some ⟨1⟩, feeBps := some 30, init := some true,
      dexList := some [⟨"late", ⟨3⟩, true⟩, ⟨"idle", ⟨1⟩, false⟩, ⟨"amm", ⟨2⟩, true⟩], dex := (),
      spent := fun _ _ => 0 }
  events := []

/-- The two hops over the first active exchange, for 100 of token 4. -/
def hopsQuote : SwapQuote where
  route :=
    { legs := [⟨"late", ⟨3⟩, ⟨4⟩, ⟨9⟩, 10000, 110⟩, ⟨"late", ⟨3⟩, ⟨9⟩, ⟨5⟩, 10000, 121⟩],
      expectedOut := 121, dexFees := 0, isMultiHop := true }
  expectedOut := 121
  minAmountOut := 121
  slippageBps := 50
  priceImpactBps := 0
  isSplit := false

theorem findBestRoute_hops :
    findBestRoute (fallingDex ⟨9⟩) ⟨9⟩ ⟨4⟩ ⟨5⟩ 100 50 { timestamp := 0, auths := [] }
      threeListed = .ok (hopsQuote, threeListed) := by
  with_unfolding_all rfl

theorem findBestRoute_maximum_hops :
    (hopsQuote.route.expectedOut = hopsQuote.expectedOut ∧
      Candidate (fallingDex ⟨9⟩) ⟨9⟩ ⟨4⟩ ⟨5⟩ 100 threeListed.storage hopsQuote.route.legs
        hopsQuote.route.isMultiHop hopsQuote.expectedOut) ∧
    (∀ legs hops out, Candidate (fallingDex ⟨9⟩) ⟨9⟩ ⟨4⟩ ⟨5⟩ 100 threeListed.storage legs hops
      out → out ≤ hopsQuote.expectedOut) ∧
    (∀ d0 d1, TwoBest (threeListed.storage.quotes (fallingDex ⟨9⟩) ⟨4⟩ ⟨5⟩ 100).1 d0 d1 →
      splitEstimate d0 d1 100 ≤ d0.out) ∧
    0 ≤ hopsQuote.minAmountOut ∧ hopsQuote.minAmountOut ≤ hopsQuote.expectedOut :=
  findBestRoute_maximum (by decide) (by decide) findBestRoute_hops

end SwapAggregatorContract
