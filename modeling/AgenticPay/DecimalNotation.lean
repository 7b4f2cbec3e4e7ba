import Mathlib.Algebra.Order.Field.Basic
import Mathlib.Algebra.Order.Field.Rat
import Mathlib.Data.List.TakeWhile
import Mathlib.Tactic.FieldSimp
import Mathlib.Tactic.Linarith
import Mathlib.Tactic.Ring

/-!
# Decimal numerals

A numeral has an optional sign, digits with an optional point among them, and an
optional exponent. A text is a numeral in one way at most, and the reader finds it.
Its value is an exact number, which is rounded to the nearest integer, and from the
middle between two of them away from zero.
-/
namespace DecimalNotation

/-- The parts of a numeral. The exponent comes with its sign. -/
structure Numeral where
  sign : List Char
  integerPart : List Char
  fractionPart : Option (List Char)
  exponentPart : Option (List Char)
  deriving DecidableEq, Repr

def Digits (ds : List Char) : Prop := ∀ c ∈ ds, c.isDigit = true

def IsSign (s : List Char) : Prop := s = [] ∨ s = ['+'] ∨ s = ['-']

def IsExponent (x : List Char) : Prop :=
  ∃ sign ds, x = sign ++ ds ∧ IsSign sign ∧ Digits ds ∧ ds ≠ []

def fractionText : Option (List Char) → List Char
  | none => []
  | some ds => '.' :: ds

def exponentText (marker : Char) : Option (List Char) → List Char
  | none => []
  | some x => marker :: x

/-- A text is made of the parts of a numeral. -/
structure Matches (g : Numeral) (s : List Char) : Prop where
  sign : IsSign g.sign
  integer : Digits g.integerPart
  fraction : ∀ ds ∈ g.fractionPart, Digits ds
  exponent : ∀ x ∈ g.exponentPart, IsExponent x
  text : ∃ marker, (marker = 'e' ∨ marker = 'E') ∧ s = g.sign ++ (g.integerPart ++
    (fractionText g.fractionPart ++ exponentText marker g.exponentPart))

/-! ## The reader -/

def takeSign : List Char → List Char × List Char
  | '+' :: rest => (['+'], rest)
  | '-' :: rest => (['-'], rest)
  | s => ([], s)

def takeDigits (s : List Char) : List Char × List Char :=
  (s.takeWhile Char.isDigit, s.dropWhile Char.isDigit)

def takeFraction : List Char → Option (List Char) × List Char
  | '.' :: rest => (some (takeDigits rest).1, (takeDigits rest).2)
  | s => (none, s)

def isExponent (x : List Char) : Bool :=
  (takeSign x).2 ≠ [] && (takeSign x).2.all Char.isDigit

/-- An exponent up to the end of the text, or the end of the text. -/
def takeExponent : List Char → Option (Option (List Char))
  | [] => some none
  | marker :: x => if (marker = 'e' ∨ marker = 'E') ∧ isExponent x then some (some x) else none

def readNumeral (s : List Char) : Option Numeral :=
  let sign := takeSign s
  let integer := takeDigits sign.2
  let fraction := takeFraction integer.2
  (takeExponent fraction.2).map fun exponent => ⟨sign.1, integer.1, fraction.1, exponent⟩

variable {s r ds x : List Char} {g : Numeral}

theorem takeSign_spec (s : List Char) :
    IsSign (takeSign s).1 ∧ s = (takeSign s).1 ++ (takeSign s).2 := by
  unfold takeSign
  split
  · exact ⟨.inr (.inl rfl), rfl⟩
  · exact ⟨.inr (.inr rfl), rfl⟩
  · exact ⟨.inl rfl, rfl⟩

theorem takeSign_append {sign : List Char} (hsign : IsSign sign)
    (hr : ∀ c ∈ r.head?, c ≠ '+' ∧ c ≠ '-') : takeSign (sign ++ r) = (sign, r) := by
  obtain rfl | rfl | rfl := hsign
  · cases r with
    | nil => rfl
    | cons c r =>
      obtain ⟨hplus, hminus⟩ := hr c rfl
      rw [List.nil_append, takeSign]
      · intro rest h
        exact hplus (List.cons.inj h).1
      · intro rest h
        exact hminus (List.cons.inj h).1
  · rfl
  · rfl

theorem takeDigits_spec (s : List Char) :
    Digits (takeDigits s).1 ∧ s = (takeDigits s).1 ++ (takeDigits s).2 :=
  ⟨fun _ hc => List.mem_takeWhile_imp hc, List.takeWhile_append_dropWhile.symm⟩

theorem takeDigits_append (hds : Digits ds) (hr : ∀ c ∈ r.head?, c.isDigit = false) :
    takeDigits (ds ++ r) = (ds, r) := by
  have hnone : r.takeWhile Char.isDigit = [] ∧ r.dropWhile Char.isDigit = r := by
    cases r with
    | nil => exact ⟨rfl, rfl⟩
    | cons c r => simp [hr c rfl]
  rw [takeDigits, List.takeWhile_append_of_pos hds, List.dropWhile_append_of_pos hds, hnone.1,
    hnone.2, List.append_nil]

theorem takeFraction_spec (s : List Char) : (∀ ds ∈ (takeFraction s).1, Digits ds) ∧
    s = fractionText (takeFraction s).1 ++ (takeFraction s).2 := by
  unfold takeFraction
  split
  · next rest =>
    obtain ⟨hdigits, htext⟩ := takeDigits_spec rest
    refine ⟨fun ds hds => ?_, congrArg _ htext⟩
    obtain rfl := Option.some.inj hds
    exact hdigits
  · exact ⟨fun _ h => (by cases h), rfl⟩

theorem isExponent_iff : isExponent x = true ↔ IsExponent x := by
  rw [isExponent, Bool.and_eq_true, decide_eq_true_iff, List.all_eq_true]
  constructor
  · rintro ⟨hne, hall⟩
    obtain ⟨hsign, htext⟩ := takeSign_spec x
    exact ⟨_, _, htext, hsign, hall, hne⟩
  · rintro ⟨sign, ds, rfl, hsign, hds, hne⟩
    have hhead : ∀ c ∈ ds.head?, c ≠ '+' ∧ c ≠ '-' := by
      intro c hc
      have hdigit := hds c (List.mem_of_mem_head? hc)
      constructor <;> rintro rfl <;> exact absurd hdigit (by decide)
    rw [takeSign_append hsign hhead]
    exact ⟨hne, hds⟩

/-- What is read is made of the parts that have been found. -/
theorem matches_of_read (h : readNumeral s = some g) : Matches g s := by
  rw [readNumeral, Option.map_eq_some_iff] at h
  obtain ⟨exponent, hexponent, rfl⟩ := h
  obtain ⟨hsign, hs⟩ := takeSign_spec s
  obtain ⟨hinteger, hi⟩ := takeDigits_spec (takeSign s).2
  obtain ⟨hfraction, hf⟩ := takeFraction_spec (takeDigits (takeSign s).2).2
  generalize takeFraction (takeDigits (takeSign s).2).2 = f at *
  obtain ⟨fraction, rest⟩ := f
  have htext : ∃ marker, (marker = 'e' ∨ marker = 'E') ∧ rest = exponentText marker exponent ∧
      ∀ x ∈ exponent, IsExponent x := by
    cases rest with
    | nil =>
      obtain rfl := Option.some.inj hexponent
      exact ⟨'e', .inl rfl, rfl, fun _ h => by cases h⟩
    | cons marker x =>
      rw [takeExponent] at hexponent
      split_ifs at hexponent with hx
      obtain rfl := Option.some.inj hexponent
      refine ⟨marker, hx.1, rfl, fun y hy => ?_⟩
      obtain rfl := Option.some.inj hy
      exact isExponent_iff.mp hx.2
  obtain ⟨marker, hmarker, hrest, hx⟩ := htext
  refine ⟨hsign, hinteger, hfraction, hx, marker, hmarker, ?_⟩
  simp only at hf
  rw [hrest] at hf
  rw [← hf, ← hi, ← hs]

theorem head_exponentText {marker c : Char} {exponent : Option (List Char)}
    (hmarker : marker = 'e' ∨ marker = 'E') (hc : c ∈ (exponentText marker exponent).head?) :
    c = 'e' ∨ c = 'E' := by
  cases exponent with
  | none => cases hc
  | some x =>
    obtain rfl := Option.some.inj hc
    exact hmarker

theorem head_fractionText {marker c : Char} {fraction exponent : Option (List Char)}
    (hmarker : marker = 'e' ∨ marker = 'E')
    (hc : c ∈ (fractionText fraction ++ exponentText marker exponent).head?) :
    c = '.' ∨ c = 'e' ∨ c = 'E' := by
  cases fraction with
  | none => exact .inr (head_exponentText hmarker hc)
  | some ds =>
    obtain rfl := Option.some.inj hc
    exact .inl rfl

theorem takeFraction_append {marker : Char} {fraction exponent : Option (List Char)}
    (hmarker : marker = 'e' ∨ marker = 'E') (hfraction : ∀ ds ∈ fraction, Digits ds) :
    takeFraction (fractionText fraction ++ exponentText marker exponent) =
      (fraction, exponentText marker exponent) := by
  cases fraction with
  | none =>
    rw [fractionText, List.nil_append, takeFraction]
    intro rest h
    have hmem : '.' ∈ (exponentText marker exponent).head? := by
      rw [h]
      rfl
    exact absurd (head_exponentText hmarker hmem) (by decide)
  | some ds =>
    have hdigits : ∀ c ∈ (exponentText marker exponent).head?, c.isDigit = false := by
      intro c hc
      obtain rfl | rfl := head_exponentText hmarker hc <;> rfl
    rw [fractionText, List.cons_append, takeFraction,
      takeDigits_append (hfraction ds rfl) hdigits]

theorem takeExponent_text {marker : Char} {exponent : Option (List Char)}
    (hmarker : marker = 'e' ∨ marker = 'E') (hexponent : ∀ x ∈ exponent, IsExponent x) :
    takeExponent (exponentText marker exponent) = some exponent := by
  cases exponent with
  | none => rfl
  | some x =>
    rw [exponentText, takeExponent, if_pos ⟨hmarker, isExponent_iff.mpr (hexponent x rfl)⟩]

/-- A text that is made of the parts of a numeral is read as it. -/
theorem read_of_matches (h : Matches g s) : readNumeral s = some g := by
  obtain ⟨marker, hmarker, rfl⟩ := h.text
  have hdigit : ∀ c ∈ (fractionText g.fractionPart ++ exponentText marker g.exponentPart).head?,
      c.isDigit = false := by
    intro c hc
    obtain rfl | rfl | rfl := head_fractionText hmarker hc <;> rfl
  have hsign : ∀ c ∈ (g.integerPart ++ (fractionText g.fractionPart ++
      exponentText marker g.exponentPart)).head?, c ≠ '+' ∧ c ≠ '-' := by
    intro c hc
    cases hi : g.integerPart with
    | nil =>
      rw [hi, List.nil_append] at hc
      obtain rfl | rfl | rfl := head_fractionText hmarker hc <;> decide
    | cons d ds =>
      rw [hi, List.cons_append, List.head?_cons] at hc
      obtain rfl := Option.some.inj hc
      have := h.integer d (by rw [hi]; exact List.mem_cons_self)
      constructor <;> rintro rfl <;> exact absurd this (by decide)
  simp only [readNumeral, takeSign_append h.sign hsign, takeDigits_append h.integer hdigit,
    takeFraction_append hmarker h.fraction, takeExponent_text hmarker h.exponent,
    Option.map_some]

theorem read_iff : readNumeral s = some g ↔ Matches g s := ⟨matches_of_read, read_of_matches⟩

/-- The characters of a numeral. -/
theorem Matches.chars (h : Matches g s) :
    ∀ c ∈ s, c.isDigit = true ∨ c ∈ ['+', '-', '.', 'e', 'E'] := by
  have hsign : ∀ {t : List Char}, IsSign t → ∀ c ∈ t, c ∈ ['+', '-', '.', 'e', 'E'] := by
    rintro t (rfl | rfl | rfl) c hc
    · cases hc
    · rw [List.mem_singleton.mp hc]; decide
    · rw [List.mem_singleton.mp hc]; decide
  obtain ⟨marker, hmarker, rfl⟩ := h.text
  intro c hc
  rcases List.mem_append.mp hc with hc | hc
  · exact .inr (hsign h.sign c hc)
  rcases List.mem_append.mp hc with hc | hc
  · exact .inl (h.integer c hc)
  rcases List.mem_append.mp hc with hc | hc
  · cases hf : g.fractionPart with
    | none => rw [hf] at hc; cases hc
    | some ds =>
      rw [hf] at hc
      obtain rfl | hc := List.mem_cons.mp hc
      · exact .inr (by decide)
      · exact .inl (h.fraction ds hf c hc)
  · cases hx : g.exponentPart with
    | none => rw [hx] at hc; cases hc
    | some x =>
      rw [hx] at hc
      obtain rfl | hc := List.mem_cons.mp hc
      · obtain rfl | rfl := hmarker <;> exact .inr (by decide)
      · obtain ⟨sign, ds, rfl, hs, hds, _⟩ := h.exponent x hx
        rcases List.mem_append.mp hc with hc | hc
        · exact .inr (hsign hs c hc)
        · exact .inl (hds c hc)

/-! ## The value -/

/-- The number that digits stand for. -/
def natOf (ds : List Char) : Nat := Nat.ofDigitChars 10 ds 0

def exponentOf : List Char → Int
  | '-' :: ds => -(natOf ds : Int)
  | '+' :: ds => natOf ds
  | ds => natOf ds

namespace Numeral

def fractionDigits (g : Numeral) : List Char := g.fractionPart.getD []

def exponent (g : Numeral) : Int := (g.exponentPart.map exponentOf).getD 0

/-- The value without the sign. -/
def magnitude (g : Numeral) : ℚ :=
  (natOf g.integerPart + natOf g.fractionDigits / 10 ^ g.fractionDigits.length) * 10 ^ g.exponent

def value (g : Numeral) : ℚ := if g.sign = ['-'] then -g.magnitude else g.magnitude

end Numeral

/-- A text with a digit before or after the point stands for a number. -/
def Denotes (s : List Char) (q : ℚ) : Prop :=
  ∃ g, Matches g s ∧ ¬ (g.integerPart = [] ∧ g.fractionDigits = []) ∧ g.value = q

theorem Denotes.unique {p q : ℚ} (hp : Denotes s p) (hq : Denotes s q) : p = q := by
  obtain ⟨g, hg, _, rfl⟩ := hp
  obtain ⟨g', hg', _, rfl⟩ := hq
  obtain rfl := Option.some.inj ((read_iff.mpr hg).symm.trans (read_iff.mpr hg'))
  rfl

theorem natOf_append (xs ys : List Char) :
    natOf (xs ++ ys) = natOf xs * 10 ^ ys.length + natOf ys := by
  rw [natOf, Nat.ofDigitChars_append, Nat.ofDigitChars_eq_ofDigitChars_zero, Nat.mul_comm]
  rfl

/-- The digits as a whole number, which the exponent and the point shift. -/
theorem magnitude_eq (g : Numeral) :
    g.magnitude = natOf (g.integerPart ++ g.fractionDigits) *
      10 ^ (g.exponent - g.fractionDigits.length) := by
  have hten : (10 : ℚ) ^ g.fractionDigits.length ≠ 0 := pow_ne_zero _ (by norm_num)
  rw [Numeral.magnitude, natOf_append, zpow_sub₀ (by norm_num), zpow_natCast]
  push_cast
  field_simp

/-! ## Rounding -/

/-- The nearest integer, and the one farther from zero of two that are equally near. -/
def NearestAway (q : ℚ) (n : Int) : Prop :=
  |q - n| ≤ 1 / 2 ∧ (|q - n| = 1 / 2 → |q| < |(n : ℚ)|)

variable {p q : ℚ} {m n : Int}

theorem nearestAway_cast (n : Int) : NearestAway (n : ℚ) n := by
  rw [NearestAway, sub_self, abs_zero]
  exact ⟨by norm_num, fun h => absurd h (by norm_num)⟩

theorem NearestAway.neg (h : NearestAway q n) : NearestAway (-q) (-n) := by
  have he : -q - ((-n : Int) : ℚ) = -(q - n) := by
    push_cast
    ring
  rw [NearestAway, he, abs_neg, abs_neg, Int.cast_neg, abs_neg]
  exact h

/-- A greater number is not rounded to a smaller integer. -/
theorem NearestAway.mono (hp : NearestAway p m) (hq : NearestAway q n) (h : p ≤ q) : m ≤ n := by
  by_contra hlt
  have hle : (n : ℚ) + 1 ≤ m := by
    exact_mod_cast not_le.mp hlt
  have hpm := abs_le.mp hp.1
  have hqn := abs_le.mp hq.1
  -- both are the middle between the two integers
  have hmid : q = n + 1 / 2 := by linarith
  have hmid' : p = n + 1 / 2 := by linarith
  have hm : (m : ℚ) = n + 1 := by linarith
  have htie := hq.2 (by rw [hmid, add_sub_cancel_left]; norm_num)
  have htie' := hp.2 (by rw [hmid', hm, add_sub_add_left_eq_sub]; norm_num)
  rw [hmid] at htie
  rw [hmid', hm] at htie'
  obtain hn | hn : (0 : ℚ) ≤ n ∨ (n : ℚ) + 1 ≤ 0 := by
    have : 0 ≤ n ∨ n + 1 ≤ 0 := by omega
    exact_mod_cast this
  · rw [abs_of_nonneg hn, abs_of_nonneg (by linarith)] at htie
    linarith
  · rw [abs_of_nonpos hn, abs_of_nonpos (by linarith)] at htie'
    linarith

theorem NearestAway.unique (hm : NearestAway q m) (hn : NearestAway q n) : m = n :=
  le_antisymm (hm.mono hn le_rfl) (hn.mono hm le_rfl)

/-- A quotient is rounded by its remainder. -/
theorem nearestAway_div (a : Nat) {b : Nat} (hb : 0 < b) :
    NearestAway ((a : ℚ) / b) (if b ≤ a % b * 2 then a / b + 1 else a / b : Nat) := by
  have hdiv : ((b * (a / b) + a % b : Nat) : ℚ) = a := congrArg _ (Nat.div_add_mod a b)
  have hrem := Nat.mod_lt a hb
  generalize a / b = k at *
  generalize a % b = r at *
  push_cast at hdiv
  have hpos : (0 : ℚ) < b := by exact_mod_cast hb
  have hq : (a : ℚ) / b = k + r / b := by
    field_simp
    linarith
  have hlt : (r : ℚ) < b := by exact_mod_cast hrem
  rw [hq]
  split_ifs with h
  · have hhalf : (1 : ℚ) / 2 ≤ r / b := by
      rw [div_le_div_iff₀ two_pos hpos]
      exact_mod_cast (by omega : 1 * b ≤ r * 2)
    have hone : (r : ℚ) / b < 1 := (div_lt_one hpos).mpr hlt
    push_cast
    have he : (k : ℚ) + r / b - (k + 1) = -(1 - r / b) := by ring
    rw [NearestAway]
    push_cast
    rw [he, abs_neg, abs_of_nonneg (by linarith)]
    refine ⟨by linarith, fun _ => ?_⟩
    rw [abs_of_nonneg (by positivity), abs_of_nonneg (by positivity)]
    linarith
  · have hhalf : (r : ℚ) / b < 1 / 2 := by
      rw [div_lt_div_iff₀ hpos two_pos]
      exact_mod_cast (by omega : r * 2 < 1 * b)
    have hnonneg : (0 : ℚ) ≤ r / b := by positivity
    rw [NearestAway]
    push_cast
    rw [add_sub_cancel_left, abs_of_nonneg hnonneg]
    exact ⟨hhalf.le, fun h => absurd h hhalf.ne⟩

end DecimalNotation
