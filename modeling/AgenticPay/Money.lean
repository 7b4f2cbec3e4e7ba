import AgenticPay.BillingTypes
import AgenticPay.DecimalNotation
import Mathlib.Tactic.IntervalCases

/-!
# Decimal-safe money

Amounts are read from a decimal text into whole minor units and written back with a
fixed number of decimals. The numbers of the host are exact: an exponent whose
digits it would round is out of range with and without the rounding.
-/
namespace Money

open DecimalNotation Billing

structure InvalidAmountError where
  message : String
  deriving DecidableEq, Repr

def invalidAmount (value : String) : InvalidAmountError :=
  ⟨"INVALID_AMOUNT: " ++ value ++ " is not a valid decimal amount"⟩

def maxScaleShift : Int := 120

/-- A value with what the host shows of it. -/
inductive Value where
  | text (s : String)
  | number (finite : Bool) (shown : String)
  | other (shown : String)
  deriving DecidableEq, Repr

def Value.shown : Value → String
  | .text s => s
  | .number _ shown => shown
  | .other shown => shown

/-- The text that is matched. -/
def Value.matched : Value → String
  | .text s => trim s
  | .number finite shown => if finite then shown else ""
  | .other _ => ""

def assertDecimals (decimals : Int) : Except InvalidAmountError Int :=
  if decimals < 0 ∨ decimals > 18 then .error (invalidAmount (toString decimals)) else .ok decimals

def divRoundHalfUp (numerator divisor : Int) : Except InvalidAmountError Int :=
  if divisor ≤ 0 then .error (invalidAmount (toString divisor))
  else
    let abs := if numerator < 0 then -numerator else numerator
    let quotient := abs / divisor
    let remainder := abs % divisor
    let rounded := if remainder * 2 ≥ divisor then quotient + 1 else quotient
    .ok (if numerator < 0 then -rounded else rounded)

/-- `replace(/^0+(?=\d)/, '')`. -/
def stripZeros : List Char → List Char
  | '0' :: c :: rest => if c.isDigit then stripZeros (c :: rest) else '0' :: c :: rest
  | s => s

/-- Digits moved by some places. -/
def shiftMinor (unsigned shift : Int) : Except InvalidAmountError Int :=
  if 0 ≤ shift then .ok (unsigned * 10 ^ shift.toNat)
  else divRoundHalfUp unsigned (10 ^ (-shift).toNat)

/-- The minor units of a numeral without its sign. -/
def unsignedMinor (shown : String) (g : Numeral) (decimals : Int) :
    Except InvalidAmountError Int :=
  if g.integerPart = [] ∧ g.fractionDigits = [] then .error (invalidAmount shown)
  else
    let digits := stripZeros (g.integerPart ++ g.fractionDigits)
    let scale := g.fractionDigits.length - g.exponent
    let unsigned : Int := natOf (if digits = [] then ['0'] else digits)
    let shift := decimals - scale
    if shift > maxScaleShift ∨ shift < -maxScaleShift then .error (invalidAmount shown)
    else shiftMinor unsigned shift

def parseDecimalToMinor (value : Value) (decimals : Int) : Except InvalidAmountError Int := do
  let decimals ← assertDecimals decimals
  match readNumeral value.matched.toList with
  | none => .error (invalidAmount value.shown)
  | some g =>
    let minor ← unsignedMinor value.shown g decimals
    return if g.sign = ['-'] then -minor else minor

def padStart (n : Nat) (ds : List Char) : List Char := List.replicate (n - ds.length) '0' ++ ds

def formatMinor (minor decimals : Int) : Except InvalidAmountError String := do
  let decimals ← assertDecimals decimals
  let sign := if minor < 0 then ['-'] else []
  let abs := minor.natAbs
  if decimals = 0 then return String.ofList (sign ++ Nat.toDigits 10 abs)
  else
    let base := 10 ^ decimals.toNat
    let fraction := padStart decimals.toNat (Nat.toDigits 10 (abs % base))
    return String.ofList (sign ++ (Nat.toDigits 10 (abs / base) ++ '.' :: fraction))

/-- The text of the opposite number. -/
def negateText (s : String) : String :=
  let signed := takeSign (trim s).toList
  String.ofList (if signed.1 = ['-'] then signed.2 else '-' :: signed.2)

/-! ## Texts -/

variable {s : String} {g : Numeral} {decimals m n : Int} {shown : String}

theorem trim_of_plain (h : ∀ c ∈ s.toList, isWhiteSpace c = false) : trim s = s := by
  have hdrop : ∀ l : List Char, (∀ c ∈ l, isWhiteSpace c = false) →
      l.dropWhile isWhiteSpace = l := by
    intro l hl
    cases l with
    | nil => rfl
    | cons c l => simp [hl c List.mem_cons_self]
  rw [trim, hdrop _ h, hdrop _ fun c hc => h c (List.mem_reverse.mp hc), List.reverse_reverse,
    String.ofList_toList]

/-- A numeral has no blanks around it. -/
theorem trim_of_matches {t : List Char} (h : Matches g t) :
    trim (String.ofList t) = String.ofList t := by
  apply trim_of_plain
  intro c hc
  rw [String.toList_ofList] at hc
  rcases h.chars c hc with hdigit | hother
  · obtain ⟨hlow, hhigh⟩ : 48 ≤ c.toNat ∧ c.toNat ≤ 57 := Char.isDigit_iff_toNat.mp hdigit
    rw [isWhiteSpace]
    generalize c.toNat = k at hlow hhigh
    interval_cases k <;> decide
  · simp only [List.mem_cons, List.not_mem_nil, or_false] at hother
    rcases hother with rfl | rfl | rfl | rfl | rfl <;> decide

/-- The rest of a numeral after its sign does not begin with another one. -/
theorem takeSign_of_matches {t : List Char} (h : Matches g t) :
    takeSign t = (g.sign, (takeSign t).2) ∧ ∀ sign, IsSign sign →
      Matches { g with sign } (sign ++ (takeSign t).2) := by
  have hread := read_iff.mpr h
  rw [readNumeral, Option.map_eq_some_iff] at hread
  obtain ⟨_, _, he⟩ := hread
  have hsign : (takeSign t).1 = g.sign := congrArg Numeral.sign he
  have htake : takeSign t = (g.sign, (takeSign t).2) := by rw [← hsign]
  refine ⟨htake, fun sign hs => ⟨hs, h.integer, h.fraction, h.exponent, ?_⟩⟩
  obtain ⟨marker, hmarker, htext⟩ := h.text
  have hsplit := (takeSign_spec t).2
  rw [hsign] at hsplit
  exact ⟨marker, hmarker, congrArg (sign ++ ·) (List.append_cancel_left (hsplit.symm.trans htext))⟩

/-- The numeral with the opposite sign. -/
def opposite (g : Numeral) : Numeral := { g with sign := if g.sign = ['-'] then [] else ['-'] }

theorem matches_negateText (h : Matches g (trim s).toList) :
    Matches (opposite g) (negateText s).toList := by
  obtain ⟨htake, hwith⟩ := takeSign_of_matches h
  rw [negateText, String.toList_ofList, htake, opposite]
  dsimp only
  by_cases hminus : g.sign = ['-']
  · have hplain := hwith [] (.inl rfl)
    rw [List.nil_append] at hplain
    rw [if_pos hminus, if_pos hminus]
    exact hplain
  · have hsigned := hwith ['-'] (.inr (.inr rfl))
    rw [List.singleton_append] at hsigned
    rw [if_neg hminus, if_neg hminus]
    exact hsigned

theorem trim_negateText (h : Matches g (trim s).toList) : trim (negateText s) = negateText s := by
  have htrim := trim_of_matches (matches_negateText h)
  rwa [String.ofList_toList] at htrim

/-! ## Minor units -/

theorem natOf_stripZeros (ds : List Char) : natOf (stripZeros ds) = natOf ds := by
  induction ds using stripZeros.induct with
  | case1 c rest hdigit ih =>
    rw [stripZeros, if_pos hdigit, ih]
    rfl
  | case2 c rest hdigit => rw [stripZeros, if_neg hdigit]
  | case3 s hs => rw [stripZeros]; exact hs

theorem natOf_unsigned (ds : List Char) : natOf (if ds = [] then ['0'] else ds) = natOf ds := by
  split_ifs with h
  · rw [h]
    rfl
  · rfl

theorem divRoundHalfUp_ok {numerator : Nat} {divisor : Nat} (hpos : 0 < divisor) :
    divRoundHalfUp numerator divisor =
      .ok (if divisor ≤ numerator % divisor * 2 then numerator / divisor + 1
        else numerator / divisor : Nat) := by
  rw [divRoundHalfUp, if_neg (by omega)]
  simp only [if_neg (show ¬ (numerator : Int) < 0 by omega), ge_iff_le]
  congr 1
  norm_cast

theorem unsignedMinor_ok : unsignedMinor shown g decimals = .ok n ↔
    ¬ (g.integerPart = [] ∧ g.fractionDigits = []) ∧
      -120 ≤ decimals - (g.fractionDigits.length - g.exponent) ∧
      decimals - (g.fractionDigits.length - g.exponent) ≤ 120 ∧
      shiftMinor (natOf (g.integerPart ++ g.fractionDigits))
        (decimals - (g.fractionDigits.length - g.exponent)) = .ok n := by
  rw [unsignedMinor]
  simp only [natOf_unsigned, natOf_stripZeros, maxScaleShift]
  by_cases hdigits : g.integerPart = [] ∧ g.fractionDigits = []
  · simp [hdigits]
  · rw [if_neg hdigits]
    by_cases hrange : decimals - (g.fractionDigits.length - g.exponent) > 120 ∨
        decimals - (g.fractionDigits.length - g.exponent) < -120
    · rw [if_pos hrange]
      constructor
      · intro h
        cases h
      · omega
    · rw [if_neg hrange]
      constructor
      · exact fun h => ⟨hdigits, by omega, by omega, h⟩
      · exact fun h => h.2.2.2

theorem shiftMinor_nearest {unsigned : Nat} {shift : Int} (h : shiftMinor unsigned shift = .ok n) :
    NearestAway ((unsigned : ℚ) * 10 ^ shift) n := by
  rw [shiftMinor] at h
  by_cases hshift : 0 ≤ shift
  · rw [if_pos hshift] at h
    obtain rfl := Except.ok.inj h
    obtain ⟨k, rfl⟩ := Int.eq_ofNat_of_zero_le hshift
    have he : (unsigned : ℚ) * 10 ^ (k : Int) = ((unsigned * 10 ^ (k : Int).toNat : Int) : ℚ) := by
      rw [zpow_natCast, Int.toNat_natCast]
      push_cast
      rfl
    rw [he]
    exact nearestAway_cast _
  · obtain ⟨k, hk⟩ := Int.eq_ofNat_of_zero_le (show 0 ≤ -shift by omega)
    obtain rfl : shift = -(k : Int) := by omega
    have hpos : 0 < 10 ^ k := Nat.pow_pos (by omega)
    have hdivisor : (10 : Int) ^ (- -(k : Int)).toNat = ((10 ^ k : Nat) : Int) := by
      rw [Int.neg_neg, Int.toNat_natCast]
      push_cast
      rfl
    rw [if_neg hshift, hdivisor, divRoundHalfUp_ok hpos] at h
    obtain rfl := Except.ok.inj h
    have he : (unsigned : ℚ) * 10 ^ (-(k : Int)) = (unsigned : ℚ) / ((10 ^ k : Nat) : ℚ) := by
      rw [zpow_neg, zpow_natCast, ← div_eq_mul_inv]
      push_cast
      rfl
    rw [he]
    exact nearestAway_div unsigned hpos

/-- The minor units are the magnitude, shifted and rounded. -/
theorem unsignedMinor_nearest {decimals : Nat} (h : unsignedMinor shown g decimals = .ok n) :
    NearestAway (g.magnitude * 10 ^ decimals) n := by
  obtain ⟨_, _, _, hshift⟩ := unsignedMinor_ok.mp h
  have he : g.magnitude * 10 ^ decimals = (natOf (g.integerPart ++ g.fractionDigits) : ℚ) *
      10 ^ ((decimals : Int) - (g.fractionDigits.length - g.exponent)) := by
    have hten : (10 : ℚ) ≠ 0 := by norm_num
    rw [magnitude_eq, mul_assoc, ← zpow_natCast, ← zpow_add₀ hten]
    congr 2
    omega
  rw [he]
  exact shiftMinor_nearest hshift

/-- What a text is read as. -/
theorem parse_ok {value : Value} : parseDecimalToMinor value decimals = .ok n ↔
    (0 ≤ decimals ∧ decimals ≤ 18) ∧ ∃ g k, Matches g value.matched.toList ∧
      unsignedMinor value.shown g decimals = .ok k ∧ n = if g.sign = ['-'] then -k else k := by
  have hdecimals : assertDecimals decimals = .ok decimals ↔ 0 ≤ decimals ∧ decimals ≤ 18 := by
    rw [assertDecimals]
    split_ifs with h
    · exact iff_of_false (fun he => by cases he) (by omega)
    · exact iff_of_true rfl (by omega)
  constructor
  · intro h
    rw [parseDecimalToMinor] at h
    cases ha : assertDecimals decimals with
    | error e => rw [ha] at h; cases h
    | ok d =>
      have hd : d = decimals := by
        rw [assertDecimals] at ha
        split_ifs at ha
        exact (Except.ok.inj ha).symm
      subst hd
      rw [ha] at h
      refine ⟨hdecimals.mp ha, ?_⟩
      cases hread : readNumeral value.matched.toList with
      | none =>
        simp only [bind, Except.bind, hread] at h
        cases h
      | some g =>
        simp only [bind, Except.bind, hread] at h
        cases hminor : unsignedMinor value.shown g d with
        | error e => rw [hminor] at h; cases h
        | ok k =>
          rw [hminor] at h
          exact ⟨g, k, read_iff.mp hread, hminor, (Except.ok.inj h).symm⟩
  · rintro ⟨hd, g, k, hmatches, hminor, rfl⟩
    rw [parseDecimalToMinor, hdecimals.mpr hd]
    simp only [bind, Except.bind, read_iff.mpr hmatches, hminor]
    rfl

/-! ## Printed amounts -/

/-- What an amount is written as. -/
def printed (minor : Int) (decimals : Nat) : Numeral :=
  { sign := if minor < 0 then ['-'] else []
    integerPart := Nat.toDigits 10 (minor.natAbs / 10 ^ decimals)
    fractionPart :=
      if decimals = 0 then none
      else some (padStart decimals (Nat.toDigits 10 (minor.natAbs % 10 ^ decimals)))
    exponentPart := none }

theorem digits_toDigits (n : Nat) : Digits (Nat.toDigits 10 n) :=
  fun _ hc => Nat.isDigit_of_mem_toDigits (by decide) (by decide) hc

theorem digits_padStart {k : Nat} {ds : List Char} (h : Digits ds) : Digits (padStart k ds) := by
  intro c hc
  rcases List.mem_append.mp hc with hzero | hc
  · rw [List.eq_of_mem_replicate hzero]
    rfl
  · exact h c hc

theorem natOf_toDigits (n : Nat) : natOf (Nat.toDigits 10 n) = n := Nat.ofDigitChars_ten_toDigits

theorem natOf_padStart (k : Nat) (ds : List Char) : natOf (padStart k ds) = natOf ds := by
  have hzeros : natOf (List.replicate (k - ds.length) '0') = 0 := by
    rw [natOf, Nat.ofDigitChars_replicate_zero, Nat.mul_zero]
  rw [padStart, natOf_append, hzeros, Nat.zero_mul, Nat.zero_add]

/-- The remainder of the minor units has no more digits than there are decimals. -/
theorem length_fraction (abs : Nat) {decimals : Nat} (h : 0 < decimals) :
    (padStart decimals (Nat.toDigits 10 (abs % 10 ^ decimals))).length = decimals := by
  have hlt := Nat.mod_lt abs (Nat.pow_pos (n := decimals) (show 0 < 10 by omega))
  have hle := (Nat.length_toDigits_le_iff (by decide) h).mpr hlt
  rw [padStart, List.length_append, List.length_replicate]
  omega

theorem matches_printed (minor : Int) (decimals : Nat) : Matches (printed minor decimals)
    ((printed minor decimals).sign ++ ((printed minor decimals).integerPart ++
      fractionText (printed minor decimals).fractionPart)) where
  sign := by
    change IsSign (if minor < 0 then ['-'] else [])
    split_ifs
    · exact .inr (.inr rfl)
    · exact .inl rfl
  integer := digits_toDigits _
  fraction := by
    intro ds hds
    simp only [printed] at hds
    split_ifs at hds
    · cases hds
    · obtain rfl := Option.some.inj hds
      exact digits_padStart (digits_toDigits _)
  exponent := fun _ h => by cases h
  text := ⟨'e', .inl rfl, by rw [printed, exponentText, List.append_nil]⟩

theorem formatMinor_printed {decimals : Nat} (h : decimals ≤ 18) (minor : Int) :
    formatMinor minor decimals = .ok (String.ofList ((printed minor decimals).sign ++
      ((printed minor decimals).integerPart ++
        fractionText (printed minor decimals).fractionPart))) := by
  rw [formatMinor, assertDecimals, if_neg (by omega)]
  simp only [bind, Except.bind, printed, Int.toNat_natCast]
  by_cases hzero : decimals = 0
  · subst hzero
    simp [fractionText, pure, Except.pure]
  · simp [hzero, fractionText, pure, Except.pure]

/-- The digits of a printed amount are the amount, and there are as many of them after the point
as there are decimals. -/
theorem unsignedMinor_printed (minor : Int) (decimals : Nat) :
    unsignedMinor shown (printed minor decimals) decimals = .ok minor.natAbs := by
  have hdigits : natOf ((printed minor decimals).integerPart ++
      (printed minor decimals).fractionDigits) = minor.natAbs ∧
      (printed minor decimals).fractionDigits.length = decimals := by
    rw [natOf_append]
    simp only [printed, Numeral.fractionDigits]
    by_cases hzero : decimals = 0
    · subst hzero
      simp only [if_true, Option.getD_none, natOf_toDigits, List.length_nil]
      exact ⟨by simp [natOf], trivial⟩
    · rw [if_neg hzero, Option.getD_some, natOf_padStart, natOf_toDigits, natOf_toDigits,
        length_fraction _ (by omega)]
      exact ⟨by rw [Nat.mul_comm]; exact Nat.div_add_mod _ _, rfl⟩
  have hexponent : (printed minor decimals).exponent = 0 := rfl
  have hshift : (decimals : Int) - ((printed minor decimals).fractionDigits.length -
      (printed minor decimals).exponent) = 0 := by
    rw [hdigits.2, hexponent]
    omega
  rw [unsignedMinor_ok, hshift, hdigits.1]
  refine ⟨fun h => absurd h.1 Nat.toDigits_ne_nil, by omega, by omega, ?_⟩
  rw [shiftMinor, if_pos (Int.le_refl 0), Int.toNat_zero, Int.pow_zero, Int.mul_one]

/-- Reading a printed amount gives the amount back. -/
theorem parse_printed {decimals : Nat} (h : decimals ≤ 18) (minor : Int) :
    ∃ text, formatMinor minor decimals = .ok text ∧
      parseDecimalToMinor (.text text) decimals = .ok minor := by
  refine ⟨_, formatMinor_printed h minor, parse_ok.mpr ⟨by omega, printed minor decimals, _, ?_,
    unsignedMinor_printed minor decimals, ?_⟩⟩
  · rw [Value.matched, trim_of_matches (matches_printed minor decimals), String.toList_ofList]
    exact matches_printed minor decimals
  · have hsign : (printed minor decimals).sign = if minor < 0 then ['-'] else [] := rfl
    rw [hsign]
    by_cases hneg : minor < 0
    · rw [if_pos hneg, if_pos rfl]
      omega
    · rw [if_neg hneg, if_neg (by decide)]
      omega

/-! ## Reading is exact -/

/-- What holds of reading and writing with some number of decimals. -/
structure Exact (decimals : Nat) : Prop where
  /-- A text that is accepted is a number, and it is rounded. -/
  nearest : ∀ s n, parseDecimalToMinor (.text s) decimals = .ok n →
    ∃ q, Denotes (trim s).toList q ∧ NearestAway (q * 10 ^ decimals) n
  /-- The opposite text gives the opposite result. -/
  negated : ∀ s n, parseDecimalToMinor (.text s) decimals = .ok n →
    parseDecimalToMinor (.text (negateText s)) decimals = .ok (-n)
  /-- A greater value does not give a smaller result. -/
  monotone : ∀ s t m n p q, parseDecimalToMinor (.text s) decimals = .ok m →
    parseDecimalToMinor (.text t) decimals = .ok n → Denotes (trim s).toList p →
      Denotes (trim t).toList q → p ≤ q → m ≤ n
  /-- What is printed is read back. -/
  printed : ∀ m : Int, ∃ text, formatMinor m decimals = .ok text ∧
    parseDecimalToMinor (.text text) decimals = .ok m

theorem parse_nearest {decimals : Nat}
    (h : parseDecimalToMinor (.text s) decimals = .ok n) :
    ∃ q, Denotes (trim s).toList q ∧ NearestAway (q * 10 ^ decimals) n := by
  obtain ⟨_, g, k, hmatches, hminor, rfl⟩ := parse_ok.mp h
  have hnearest := unsignedMinor_nearest hminor
  refine ⟨g.value, ⟨g, hmatches, (unsignedMinor_ok.mp hminor).1, rfl⟩, ?_⟩
  rw [Numeral.value]
  by_cases hminus : g.sign = ['-']
  · rw [if_pos hminus, if_pos hminus, neg_mul]
    exact hnearest.neg
  · rwa [if_neg hminus, if_neg hminus]

theorem parse_negated {decimals : Nat} (h : parseDecimalToMinor (.text s) decimals = .ok n) :
    parseDecimalToMinor (.text (negateText s)) decimals = .ok (-n) := by
  obtain ⟨hd, g, k, hmatches, hminor, rfl⟩ := parse_ok.mp h
  refine parse_ok.mpr ⟨hd, opposite g, k, ?_, unsignedMinor_ok.mpr (unsignedMinor_ok.mp hminor), ?_⟩
  · rw [Value.matched, trim_negateText hmatches]
    exact matches_negateText hmatches
  · rw [opposite]
    by_cases hminus : g.sign = ['-']
    · simp [hminus]
    · simp [hminus]

/-- Reading and writing are exact for every number of decimals that is allowed. -/
theorem parseDecimalToMinor_exact (decimals : Nat) (h : decimals ≤ 18) : Exact decimals where
  nearest := fun _ _ => parse_nearest
  negated := fun _ _ => parse_negated
  monotone := by
    intro s t m n p q hs ht hp hq hle
    obtain ⟨p', hp', hm⟩ := parse_nearest hs
    obtain ⟨q', hq', hn⟩ := parse_nearest ht
    obtain rfl := hp.unique hp'
    obtain rfl := hq.unique hq'
    exact hm.mono hn (mul_le_mul_of_nonneg_right hle (by positivity))
  printed := parse_printed h

theorem parseDecimalToMinor_exact_cents : Exact 2 := parseDecimalToMinor_exact 2 (by decide)

end Money
