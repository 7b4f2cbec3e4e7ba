import AgenticPay.SwapGuarantee

/-!
# What a swap with fallbacks spends

A single route is tried on its own exchange and then on the others of the
whitelist, each time for the full amount. An attempt that reverts has spent
nothing; an attempt that returns has spent the amount, whatever it returned.
-/
namespace SwapAggregatorContract

open Soroban Contract

variable {δ : Type} {dex : Dex δ} {caller tokenIn tokenOut dexAddress : Address}
  {amountIn minAmountOut : Int} {env : Env} {w w' : World δ}

/-- The exchanges of the whitelist that are tried after this one. -/
def fallbacks (failed : Address) (entries : List DexEntry) : List Address :=
  (entries.filter fun e => ¬ (e.dexAddress = failed ∨ e.active = false)).map (·.dexAddress)

/-- Attempts over these exchanges, starting in state `b`, end with one that pays enough; `k` of
them have not been reverted. -/
inductive Takes (dex : Dex δ) (caller tokenIn tokenOut : Address) (amountIn minAmountOut : Int) :
    List Address → δ → Nat → Prop
  | reverted {a l b k} (h : dex.swap a caller tokenIn tokenOut amountIn minAmountOut b = .reverted)
      (rest : Takes dex caller tokenIn tokenOut amountIn minAmountOut l b k) :
      Takes dex caller tokenIn tokenOut amountIn minAmountOut (a :: l) b k
  | filled {a l b out next}
      (h : dex.swap a caller tokenIn tokenOut amountIn minAmountOut b = .returned (some out) next)
      (enough : minAmountOut ≤ out) :
      Takes dex caller tokenIn tokenOut amountIn minAmountOut (a :: l) b 1
  | short {a l b value next k}
      (h : dex.swap a caller tokenIn tokenOut amountIn minAmountOut b = .returned value next)
      (less : ∀ out, value = some out → out < minAmountOut)
      (rest : Takes dex caller tokenIn tokenOut amountIn minAmountOut l next k) :
      Takes dex caller tokenIn tokenOut amountIn minAmountOut (a :: l) b (k + 1)

/-- The first of these exchanges that does not revert in state `b` pays enough. -/
def FirstPays (dex : Dex δ) (caller tokenIn tokenOut : Address) (amountIn minAmountOut : Int)
    (l : List Address) (b : δ) : Prop :=
  ∃ before a after out next, l = before ++ a :: after ∧
    (∀ d ∈ before, dex.swap d caller tokenIn tokenOut amountIn minAmountOut b = .reverted) ∧
    dex.swap a caller tokenIn tokenOut amountIn minAmountOut b = .returned (some out) next ∧
    minAmountOut ≤ out

theorem Takes.pos {l : List Address} {b : δ} {k : Nat}
    (h : Takes dex caller tokenIn tokenOut amountIn minAmountOut l b k) : 0 < k := by
  induction h with
  | reverted _ _ ih => exact ih
  | filled => exact Nat.one_pos
  | short => exact Nat.succ_pos _

/-- One swap is all that is taken exactly when the first that does not revert pays enough. -/
theorem Takes.one_iff {l : List Address} {b : δ} {k : Nat}
    (h : Takes dex caller tokenIn tokenOut amountIn minAmountOut l b k) :
    k = 1 ↔ FirstPays dex caller tokenIn tokenOut amountIn minAmountOut l b := by
  induction h with
  | @reverted a l b k hrev _ ih =>
    rw [ih]
    constructor
    · rintro ⟨before, d, after, out, next, rfl, hbefore, hpays⟩
      refine ⟨a :: before, d, after, out, next, rfl, ?_, hpays⟩
      intro e he
      rcases List.mem_cons.mp he with rfl | he
      · exact hrev
      · exact hbefore e he
    · rintro ⟨before, d, after, out, next, hl, hbefore, hpays⟩
      cases before with
      | nil =>
        obtain ⟨rfl, rfl⟩ := List.cons.inj hl
        rw [hrev] at hpays
        exact absurd hpays.1 nofun
      | cons e before =>
        obtain ⟨rfl, rfl⟩ := List.cons.inj hl
        exact ⟨before, d, after, out, next, rfl,
          fun x hx => hbefore x (List.mem_cons_of_mem _ hx), hpays⟩
  | @filled a l b out next h enough =>
    simp only [true_iff]
    exact ⟨[], a, l, out, next, rfl, by simp, h, enough⟩
  | @short a l b value next k h less rest ih =>
    have hpos := rest.pos
    constructor
    · intro he
      omega
    · rintro ⟨before, d, after, out, next', hl, hbefore, hpays, henough⟩
      cases before with
      | nil =>
        obtain ⟨rfl, rfl⟩ := List.cons.inj hl
        rw [h] at hpays
        obtain ⟨rfl, _⟩ := Answer.returned.inj hpays
        have hless := less out rfl
        omega
      | cons e before =>
        obtain ⟨rfl, rfl⟩ := List.cons.inj hl
        rw [hbefore _ List.mem_cons_self] at h
        contradiction

theorem taken_spent (token : Address) (amount : Int) (next : δ) :
    (taken w caller token amount next).storage.spent caller token =
      w.storage.spent caller token + amount := by
  simp [taken, Storage.take]

/-- A leg that is filled takes its swap, and no attempt follows. -/
theorem Leg.takes_ok {out : Int} (l : List Address)
    (h : Leg dex caller dexAddress tokenIn tokenOut amountIn minAmountOut w (.ok out) w') :
    ∃ k : Nat, Takes dex caller tokenIn tokenOut amountIn minAmountOut (dexAddress :: l)
        w.storage.dex k ∧
      w'.storage.spent caller tokenIn = w.storage.spent caller tokenIn + k * amountIn := by
  cases h with
  | filled h enough =>
    refine ⟨1, .filled h enough, ?_⟩
    rw [taken_spent]
    omega

/-- A leg that fails has reverted, or has taken its swap before the attempts that follow. -/
theorem Leg.takes_error {e : AggregatorError} {l : List Address} {spent : Int}
    (h : Leg dex caller dexAddress tokenIn tokenOut amountIn minAmountOut w (.error e) w')
    (hrest : ∃ k : Nat, Takes dex caller tokenIn tokenOut amountIn minAmountOut l
        w'.storage.dex k ∧ spent = w'.storage.spent caller tokenIn + k * amountIn) :
    ∃ k : Nat, Takes dex caller tokenIn tokenOut amountIn minAmountOut (dexAddress :: l)
        w.storage.dex k ∧ spent = w.storage.spent caller tokenIn + k * amountIn := by
  obtain ⟨k, htakes, hspent⟩ := hrest
  cases h with
  | reverted h => exact ⟨k, .reverted h htakes, hspent⟩
  | short h less =>
    refine ⟨k + 1, .short h less htakes, ?_⟩
    rw [taken_spent] at hspent
    rw [hspent, Int.natCast_add, Int.add_mul]
    omega

theorem fallbackLoop_takes {entries : List DexEntry} {failed : Address} {out : Int}
    (h : fallbackLoop dex caller failed tokenIn tokenOut amountIn minAmountOut entries env w =
      .ok (out, w')) :
    ∃ k : Nat, Takes dex caller tokenIn tokenOut amountIn minAmountOut (fallbacks failed entries)
        w.storage.dex k ∧
      w'.storage.spent caller tokenIn = w.storage.spent caller tokenIn + k * amountIn := by
  induction entries generalizing w with
  | nil => simp [fallbackLoop] at h
  | cons entry rest ih =>
    rw [fallbackLoop, ite_ok] at h
    obtain ⟨hskip, h⟩ | ⟨htry, h⟩ := h
    · have hsame : fallbacks failed (entry :: rest) = fallbacks failed rest := by
        rw [fallbacks, List.filter_cons_of_neg
          (by simp only [decide_eq_true_eq, not_not]; exact hskip)]
        rfl
      rw [hsame]
      exact ih h
    · have hcons : fallbacks failed (entry :: rest) =
          entry.dexAddress :: fallbacks failed rest := by
        rw [fallbacks, List.filter_cons_of_pos 
          (by simp only [decide_eq_true_eq]; exact htry), List.map_cons]
        rfl
      rw [hcons]
      rw [bind_ok] at h
      obtain ⟨r, v, hleg, h⟩ := h
      cases r with
      | ok filled =>
        obtain ⟨rfl, rfl⟩ := pure_ok.mp h
        exact (leg_of_ok hleg).takes_ok _
      | error e =>
        simp only [bind_ok, publish_ok] at h
        obtain ⟨_, _, rfl, hrest⟩ := h
        have hafter := ih hrest
        exact (leg_of_ok hleg).takes_error hafter

/-- A single route takes the amount once for every attempt that is not reverted. -/
theorem executeRoute_takes {quote : SwapQuote} {leg : RouteLeg} {out : Int}
    (hlegs : quote.route.legs = [leg]) (hsingle : quote.route.isMultiHop = false)
    (h : executeRoute dex caller tokenIn tokenOut amountIn minAmountOut quote env w =
      .ok (out, w')) :
    ∃ k : Nat, Takes dex caller tokenIn tokenOut amountIn minAmountOut
        (leg.dexAddress :: fallbacks leg.dexAddress w.storage.dexEntries) w.storage.dex k ∧
      w'.storage.spent caller tokenIn = w.storage.spent caller tokenIn + k * amountIn := by
  simp only [executeRoute, hlegs, hsingle, Bool.false_eq_true, if_false, ne_eq, not_true_eq_false,
    bind_ok] at h
  obtain ⟨r, v, hleg, h⟩ := h
  cases r with
  | ok filled =>
    obtain ⟨rfl, rfl⟩ := pure_ok.mp h
    exact (leg_of_ok hleg).takes_ok _
  | error e =>
    simp only [bind_ok, publish_ok, read_ok] at h
    obtain ⟨_, _, rfl, _, _, ⟨rfl, rfl⟩, hrest⟩ := h
    have hentries : v.storage.dexEntries = w.storage.dexEntries := by
      have hkept := congrArg (·.2.2.2) (leg_of_ok hleg).settings
      rw [Storage.dexEntries, Storage.dexEntries]
      exact congrArg (·.getD []) hkept
    have hafter := fallbackLoop_takes hrest
    rw [← hentries]
    exact (leg_of_ok hleg).takes_error hafter

/-- A successful single route spends exactly the amount if and only if the amount is nothing, or
the first exchange tried that does not revert pays at least the floor. -/
theorem spends_amount_iff {quote : SwapQuote} {leg : RouteLeg} {out : Int}
    (hlegs : quote.route.legs = [leg]) (hsingle : quote.route.isMultiHop = false)
    (h : executeRoute dex caller tokenIn tokenOut amountIn minAmountOut quote env w =
      .ok (out, w')) :
    w'.storage.spent caller tokenIn = w.storage.spent caller tokenIn + amountIn ↔
      amountIn = 0 ∨ FirstPays dex caller tokenIn tokenOut amountIn minAmountOut
        (leg.dexAddress :: fallbacks leg.dexAddress w.storage.dexEntries) w.storage.dex := by
  obtain ⟨k, htakes, hspent⟩ := executeRoute_takes hlegs hsingle h
  have hpos := htakes.pos
  rw [← htakes.one_iff, hspent]
  constructor
  · intro he
    have hmul : ((k : Int) - 1) * amountIn = 0 := by
      rw [Int.sub_mul]
      omega
    rcases Int.mul_eq_zero.mp hmul with hone | hzero
    · exact .inr (by omega)
    · exact .inl hzero
  · rintro (rfl | rfl)
    · simp
    · simp

/-! The exchange of the leg takes the input and pays 1 of 10, the other one pays 10. -/

def shortDex : Dex Unit where
  quote := fun _ _ _ _ _ => .reverted
  swap := fun a _ _ _ _ _ _ => .returned (some (if a = ⟨2⟩ then 1 else 10)) ()

def twoListed : World Unit where
  storage :=
    { admin := some ⟨1⟩, feeBps := some 30, init := some true,
      dexList := some [{ dexId := "amm", dexAddress := ⟨2⟩, active := true },
        { dexId := "book", dexAddress := ⟨6⟩, active := true }],
      dex := (), spent := fun _ _ => 0 }
  events := []

def singleQuote : SwapQuote := exactQuote ⟨4⟩ ⟨5⟩ 10 50

/-- What the route over both exchanges leaves behind. -/
def takenTwice : World Unit :=
  taken { taken twoListed ⟨3⟩ ⟨4⟩ 7 () with events := [.routeFallback "amm" 1] } ⟨3⟩ ⟨4⟩ 7 ()

theorem executeRoute_takenTwice :
    executeRoute shortDex ⟨3⟩ ⟨4⟩ ⟨5⟩ 7 10 singleQuote { timestamp := 0, auths := [⟨3⟩] }
      twoListed = .ok (10, takenTwice) := rfl

theorem spends_amount_iff_of_takenTwice :
    takenTwice.storage.spent ⟨3⟩ ⟨4⟩ = twoListed.storage.spent ⟨3⟩ ⟨4⟩ + 7 ↔
      (7 : Int) = 0 ∨ FirstPays shortDex ⟨3⟩ ⟨4⟩ ⟨5⟩ 7 10
        (⟨2⟩ :: fallbacks ⟨2⟩ twoListed.storage.dexEntries) twoListed.storage.dex :=
  spends_amount_iff rfl rfl executeRoute_takenTwice

/-- The route succeeds, and has taken 7 twice. -/
theorem amount_spent_twice :
    executeRoute shortDex ⟨3⟩ ⟨4⟩ ⟨5⟩ 7 10 singleQuote { timestamp := 0, auths := [⟨3⟩] }
      twoListed = .ok (10, takenTwice) ∧
    twoListed.storage.spent ⟨3⟩ ⟨4⟩ = 0 ∧ takenTwice.storage.spent ⟨3⟩ ⟨4⟩ = 14 :=
  ⟨executeRoute_takenTwice, rfl, rfl⟩

end SwapAggregatorContract
