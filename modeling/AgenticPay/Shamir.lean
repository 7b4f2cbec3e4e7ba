import AgenticPay.ByteField
import AgenticPay.SecretSharing

/-!
# Shamir's scheme on byte strings

Each byte of a secret has a polynomial of its own, whose other coefficients are random. The
arithmetic goes through tables of the powers and of the logarithms of three, which are filled by a
loop.
-/
namespace Shamir

open ByteField SecretSharing

abbrev Byte := BitVec 8

/-! ## Tables -/

/-- `EXP` and `LOG`. -/
structure Tables where
  exp : Nat → Byte
  log : Byte → Nat

/-- A turn of the first loop, with the `x` of the turn. -/
def fillStep (r : Byte × Tables) (i : Nat) : Byte × Tables :=
  (timesThree r.1,
    { exp := Function.update r.2.exp i r.1, log := Function.update r.2.log r.1 i })

/-- A turn of the loop that doubles `EXP`. -/
def doubleStep (exp : Nat → Byte) (i : Nat) : Nat → Byte := Function.update exp i (exp (i - 255))

def filled (n : Nat) : Byte × Tables :=
  (List.range n).foldl fillStep (1, ⟨fun _ => 0, fun _ => 0⟩)

def buildTables : Tables :=
  { exp := (List.range' 255 255).foldl doubleStep (filled 255).2.exp
    log := Function.update (filled 255).2.log 0 0 }

def mul (a b : Byte) : Byte :=
  if a = 0 ∨ b = 0 then 0 else buildTables.exp (buildTables.log a + buildTables.log b)

def div (a b : Byte) : Except String Byte :=
  if b = 0 then .error "division by zero in GF(256)"
  else if a = 0 then .ok 0
  else .ok (buildTables.exp (buildTables.log a + 255 - buildTables.log b))

/-! ## Polynomials -/

/-- The last coefficient first, and then the others from the end. -/
def evaluate (coeffs : List Byte) (x : Byte) : Byte :=
  coeffs.dropLast.foldr (fun c y => mul y x ^^^ c) (coeffs.getLastD 0)

structure Point where
  x : Byte
  y : Byte

/-- Numerator and denominator after another point than the one at `x`. -/
def fractionStep (x : Byte) (r : Byte × Byte) (q : Point) : Byte × Byte :=
  (mul r.1 q.x, mul r.2 (x ^^^ q.x))

/-- The inner loop, for the point `i`. -/
def fraction (points : List Point) (p : Point) (i : Nat) : Byte × Byte :=
  points.zipIdx.foldl (fun r q => if i = q.2 then r else fractionStep p.x r q.1) (1, 1)

/-- A turn of the outer loop. -/
def interpolateStep (points : List Point) (result : Byte) (p : Point × Nat) :
    Except String Byte := do
  let quotient ← div (fraction points p.1 p.2).1 (fraction points p.1 p.2).2
  return result ^^^ mul p.1.y quotient

def interpolateAtZero (points : List Point) : Except String Byte :=
  points.zipIdx.foldlM (interpolateStep points) 0

/-! ## Shares -/

structure Share where
  x : Byte
  y : List Byte
  deriving DecidableEq

/-- The share at `x`. The random bytes are those that `randomBytes` gives for each byte. -/
def shareAt {n : Nat} (secret : List Byte) (random : Nat → Fin n → Byte) (x : Byte) : Share :=
  { x, y := secret.mapIdx fun byteIdx byte => evaluate (byte :: List.ofFn (random byteIdx)) x }

def split (secret : List Byte) (threshold totalShares : Nat)
    (random : Nat → Fin (threshold - 1) → Byte) : Except String (List Share) :=
  if secret.length = 0 then .error "secret must be non-empty"
  else if threshold < 2 then .error "threshold must be at least 2"
  else if totalShares < threshold then .error "totalShares must be >= threshold"
  else if totalShares > 254 then .error "totalShares must be <= 254"
  else .ok ((List.range' 1 totalShares).map fun x => shareAt secret random (BitVec.ofNat 8 x))

/-- What `reconstruct` checks of each share. -/
def checkShare (secretLength : Nat) (share : Share) : Except String Unit :=
  if share.y.length ≠ secretLength then .error "all shares must have matching byte length"
  else if share.x = 0 then .error "share x-coordinate must be non-zero"
  else .ok ()

def reconstruct (shares : List Share) : Except String (List Byte) :=
  match shares with
  | first :: _ :: _ => do
    let secretLength := first.y.length
    shares.forM (checkShare secretLength)
    let xs := shares.map (·.x)
    if xs.dedup.length ≠ xs.length then .error "share x-coordinates must be unique"
    else (List.range secretLength).mapM fun byteIdx =>
      interpolateAtZero (shares.map fun s => { x := s.x, y := s.y.getD byteIdx 0 })
  | _ => .error "need at least 2 shares"

/-! ## The tables hold the powers of three -/

/-- What the first loop has filled in after `n` turns. -/
structure Filled (n : Nat) (r : Byte × Tables) : Prop where
  next : r.1 = power n
  exp : ∀ i < n, r.2.exp i = power i
  log : ∀ i < n, r.2.log (power i) = i

theorem Filled.step {n : Nat} {r : Byte × Tables} (h : Filled n r) (hn : n < 255) :
    Filled (n + 1) (fillStep r n) where
  next := by rw [fillStep, h.next, power_succ]
  exp := by
    intro i hi
    by_cases he : i = n
    · subst he
      simp only [fillStep, Function.update_self, h.next]
    · simp only [fillStep, Function.update_of_ne he]
      exact h.exp i (by omega)
  log := by
    intro i hi
    by_cases he : i = n
    · subst he
      simp only [fillStep, h.next, Function.update_self]
    · have hne : power i ≠ power n := fun hp => he (power_injOn (by omega) hn hp)
      simp only [fillStep, h.next, Function.update_of_ne hne]
      exact h.log i (by omega)

theorem filled_spec {n : Nat} (hn : n ≤ 255) : Filled n (filled n) := by
  induction n with
  | zero => exact ⟨rfl, by simp, by simp⟩
  | succ n ih =>
    rw [filled, List.range_succ, List.foldl_append]
    exact (ih (by omega)).step hn

theorem foldl_doubleStep {exp : Nat → Byte} (hexp : ∀ i < 255, exp i = power i) (n : Nat) :
    ∀ i < 255 + n, (List.range' 255 n).foldl doubleStep exp i = power i := by
  induction n with
  | zero => exact hexp
  | succ n ih =>
    intro i hi
    rw [List.range'_concat, List.foldl_append, List.foldl_cons, List.foldl_nil, doubleStep]
    by_cases he : i = 255 + 1 * n
    · subst he
      rw [Function.update_self, ih _ (by omega)]
      have hperiod := power_add_period n
      rw [Nat.add_comm n] at hperiod
      simpa using hperiod.symm
    · rw [Function.update_of_ne he]
      exact ih i (by omega)

theorem buildTables_exp {i : Nat} (hi : i < 510) : buildTables.exp i = power i := by
  simp only [buildTables]
  exact foldl_doubleStep (filled_spec le_rfl).exp 255 i hi

theorem buildTables_log {x : Byte} (hx : x ≠ 0) : buildTables.log x = log x := by
  obtain ⟨hlt, hpower⟩ := log_spec hx
  have hfilled := (filled_spec le_rfl).log _ hlt
  rw [hpower] at hfilled
  simp only [buildTables, Function.update_of_ne hx, hfilled]

/-! ## The arithmetic is that of the field -/

open GF256

theorem mk_xor (a b : Byte) : mk (a ^^^ b) = mk a + mk b := rfl

theorem sub_eq_xor (a b : Byte) : mk a - mk b = mk (a ^^^ b) := by
  rw [sub_eq_add_neg]
  rfl

theorem mk_ne_zero {a : Byte} : mk a ≠ 0 ↔ a ≠ 0 :=
  not_congr ⟨fun h => congrArg byte h, fun h => congrArg mk h⟩

theorem mk_eq_ofPower {a : Byte} (h : a ≠ 0) : mk a = ofPower (log a) :=
  (ofPower_log (mk_ne_zero.mpr h)).symm

theorem mk_mul (a b : Byte) : mk (mul a b) = mk a * mk b := by
  by_cases ha : a = 0
  · subst ha
    exact (zero_mul (mk b)).symm
  by_cases hb : b = 0
  · subst hb
    rw [mul, if_pos (.inr rfl)]
    exact (mul_zero (mk a)).symm
  have hla := (log_spec ha).1
  have hlb := (log_spec hb).1
  rw [mul, if_neg (not_or.mpr ⟨ha, hb⟩), buildTables_log ha, buildTables_log hb,
    buildTables_exp (by omega), mk_eq_ofPower ha, mk_eq_ofPower hb, ofPower_mul_ofPower hla]
  rfl

theorem div_eq {a b : Byte} (hb : b ≠ 0) : div a b = .ok (mk a / mk b).byte := by
  rw [div, if_neg hb]
  by_cases ha : a = 0
  · subst ha
    rw [if_pos rfl]
    exact congrArg (fun z : GF256 => Except.ok z.byte) (zero_div (mk b)).symm
  have hla := (log_spec ha).1
  have hlb := (log_spec hb).1
  have hquotient : mk a / mk b = ofPower (log a + 255 - log b) := by
    rw [div_eq_iff (mk_ne_zero.mpr hb), mul_comm, mk_eq_ofPower ha, mk_eq_ofPower hb,
      ofPower_mul_ofPower hlb, Nat.add_sub_cancel' (by omega)]
    exact congrArg mk (power_add_period (log a)).symm
  rw [if_neg ha, buildTables_log ha, buildTables_log hb, buildTables_exp (by omega), hquotient]
  rfl

theorem evaluate_cons {c : Byte} {cs : List Byte} (h : cs ≠ []) (x : Byte) :
    evaluate (c :: cs) x = mul (evaluate cs x) x ^^^ c := by
  cases cs with
  | nil => contradiction
  | cons d cs => rfl

/-- The value of a polynomial is computed with Horner's scheme. -/
theorem mk_evaluate (coeffs : List Byte) (x : Byte) :
    mk (evaluate coeffs x) = horner (coeffs.map mk) (mk x) := by
  induction coeffs with
  | nil => rfl
  | cons c cs ih =>
    cases cs with
    | nil => exact (by simp : mk c = horner [mk c] (mk x))
    | cons d cs => rw [evaluate_cons (List.cons_ne_nil d cs), mk_xor, mk_mul, ih]; rfl

/-! ## Interpolation -/

/-- A loop that leaves one index out. -/
theorem foldl_skip {α β : Type} (f : β → α → β) {p : α → Bool} {i k : Nat} {l : List α}
    (h : ∀ q ∈ l.zipIdx k, i = q.2 ↔ p q.1 = false) (b : β) :
    (l.zipIdx k).foldl (fun b q => if i = q.2 then b else f b q.1) b =
      (l.filter p).foldl f b := by
  induction l generalizing k b with
  | nil => rfl
  | cons a l ih =>
    rw [List.zipIdx_cons] at h ⊢
    have hrest := fun b => ih (fun q hq => h q (List.mem_cons_of_mem _ hq)) b
    have ha := h (a, k) List.mem_cons_self
    cases hp : p a with
    | false =>
      rw [List.foldl_cons, if_pos (ha.mpr hp), hrest, List.filter_cons_of_neg (by simp [hp])]
    | true =>
      have hne : i ≠ k := fun he => by simp [hp] at ha; exact ha he
      rw [List.foldl_cons, if_neg hne, hrest, List.filter_cons_of_pos hp, List.foldl_cons]

theorem foldl_fraction (x : Byte) (l : List Point) (r : Byte × Byte) :
    mk (l.foldl (fractionStep x) r).1 = mk r.1 * (l.map fun q => mk q.x).prod ∧
      mk (l.foldl (fractionStep x) r).2 = mk r.2 * (l.map fun q => mk x - mk q.x).prod := by
  induction l generalizing r with
  | nil => simp
  | cons q l ih =>
    obtain ⟨hnumerator, hdenominator⟩ := ih (fractionStep x r q)
    rw [List.foldl_cons]
    refine ⟨hnumerator.trans ?_, hdenominator.trans ?_⟩
    · rw [fractionStep, mk_mul, List.map_cons, List.prod_cons, mul_assoc]
    · rw [fractionStep, mk_mul, List.map_cons, List.prod_cons, mul_assoc, sub_eq_xor]

def coordinates (points : List Point) : List GF256 := points.map fun p => mk p.x

variable {points : List Point} {p : Point}

theorem index_eq_iff (hx : (points.map (·.x)).Nodup) {i : Nat} (hp : (p, i) ∈ points.zipIdx)
    {q : Point × Nat} (hq : q ∈ points.zipIdx) : i = q.2 ↔ q.1.x = p.x := by
  have hpi := List.mem_zipIdx_iff_getElem?.mp hp
  have hqj := List.mem_zipIdx_iff_getElem?.mp hq
  constructor
  · rintro rfl
    rw [hpi] at hqj
    exact congrArg (·.x) (Option.some.inj hqj).symm
  · intro he
    have hlt : i < (points.map (·.x)).length := by
      rw [List.length_map]
      exact (List.getElem?_eq_some_iff.mp hpi).1
    apply (List.getElem?_inj hlt hx).mp
    rw [List.getElem?_map, List.getElem?_map, hpi, hqj, Option.map_some, Option.map_some, he]

theorem others_map {M : Type} (f : GF256 → M) (points : List Point) (x : Byte) :
    ((coordinates points).filter (· ≠ mk x)).map f =
      (points.filter (·.x ≠ x)).map fun q => f (mk q.x) := by
  rw [coordinates, List.filter_map, List.map_map]
  have hp : ((fun z => decide (z ≠ mk x)) ∘ fun q : Point => mk q.x) =
      fun q => decide (q.x ≠ x) := by
    funext q
    simp
  rw [hp]
  rfl

/-- The two loops over the other points compute the weight of a point. -/
theorem fraction_spec (hx : (points.map (·.x)).Nodup) {i : Nat} (hp : (p, i) ∈ points.zipIdx) :
    (fraction points p i).2 ≠ 0 ∧
      mk (fraction points p i).1 / mk (fraction points p i).2 =
        weight (coordinates points) (mk p.x) := by
  have hskip : ∀ q ∈ points.zipIdx, i = q.2 ↔ decide (q.1.x ≠ p.x) = false := by
    intro q hq
    simp [index_eq_iff hx hp hq]
  have hfold : fraction points p i =
      (points.filter (·.x ≠ p.x)).foldl (fractionStep p.x) (1, 1) :=
    foldl_skip (fractionStep p.x) hskip (1, 1)
  obtain ⟨hnumerator, hdenominator⟩ := foldl_fraction p.x (points.filter (·.x ≠ p.x)) (1, 1)
  rw [← hfold, show mk 1 = 1 from rfl, one_mul] at hnumerator hdenominator
  constructor
  · rw [← mk_ne_zero, hdenominator]
    apply List.prod_ne_zero
    intro hzero
    obtain ⟨q, hq, he⟩ := List.mem_map.mp hzero
    have hne : q.x ≠ p.x := by simpa using (List.mem_filter.mp hq).2
    exact hne (congrArg byte (sub_eq_zero.mp he)).symm
  · rw [weight, others_map, others_map, hnumerator, hdenominator]
    simp only [zero_sub]
    rfl

theorem foldlM_ok {α β ε : Type} {f : β → α → Except ε β} {g : β → α → β} {l : List α}
    (h : ∀ a ∈ l, ∀ b, f b a = .ok (g b a)) (b : β) : l.foldlM f b = .ok (l.foldl g b) := by
  induction l generalizing b with
  | nil => rfl
  | cons a l ih =>
    rw [List.foldlM_cons, h a List.mem_cons_self]
    exact ih (fun a ha => h a (List.mem_cons_of_mem _ ha)) (g b a)

theorem mk_foldl_xor (f : Point → Byte) (l : List Point) (b : Byte) :
    mk (l.foldl (fun r q => r ^^^ f q) b) = mk b + (l.map fun q => mk (f q)).sum := by
  induction l generalizing b with
  | nil => simp
  | cons q l ih => rw [List.foldl_cons, ih, mk_xor, List.map_cons, List.sum_cons, add_assoc]

theorem interpolateAtZero_ok (hx : (points.map (·.x)).Nodup) : interpolateAtZero points =
    .ok (points.map fun q => mk q.y * weight (coordinates points) (mk q.x)).sum.byte := by
  let w : Point → Byte := fun q => (weight (coordinates points) (mk q.x)).byte
  have hturn : ∀ q ∈ points.zipIdx, ∀ result,
      interpolateStep points result q = .ok (result ^^^ mul q.1.y (w q.1)) := by
    intro q hq result
    obtain ⟨hne, hfraction⟩ := fraction_spec hx hq
    rw [interpolateStep, div_eq hne, hfraction]
    rfl
  have hsum := mk_foldl_xor (fun q => mul q.y (w q)) points 0
  simp only [mk_mul] at hsum
  rw [interpolateAtZero, foldlM_ok hturn,
    ← List.foldl_map (f := Prod.fst) (g := fun r q => r ^^^ mul q.y (w q)), List.zipIdx_map_fst]
  exact congrArg (fun z : GF256 => Except.ok z.byte) (hsum.trans (zero_add _))

/-- Points of a polynomial give its constant coefficient, if they are as many as its coefficients. -/
theorem interpolateAtZero_evaluate (coeffs : List Byte) (hx : (points.map (·.x)).Nodup)
    (hy : ∀ q ∈ points, q.y = evaluate coeffs q.x) (hlength : coeffs.length ≤ points.length) :
    interpolateAtZero points = .ok (coeffs.headD 0) := by
  have hnodup : (coordinates points).Nodup := by
    have hmap := hx.map (f := mk) fun a b h => congrArg byte h
    rwa [List.map_map] at hmap
  have hvalues : (points.map fun q => mk q.y * weight (coordinates points) (mk q.x)).sum =
      atZero (coordinates points) (horner (coeffs.map mk)) := by
    rw [atZero, coordinates, List.map_map]
    congr 1
    apply List.map_congr_left
    intro q hq
    rw [Function.comp_apply, ← mk_evaluate, hy q hq]
  have hhead : horner (coeffs.map mk) 0 = mk (coeffs.headD 0) := by
    cases coeffs with
    | nil => rfl
    | cons c cs => simp
  rw [interpolateAtZero_ok hx, hvalues, atZero_horner hnodup (by simpa [coordinates] using hlength),
    hhead]

end Shamir
