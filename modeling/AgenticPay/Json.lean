import Mathlib.Data.List.Lex
import Mathlib.Data.List.Sort

/-!
# Values and the texts that they are printed as

The values that a program can write down as JSON, together with two that JSON has no text for: the
value that is absent, and numbers that are not finite. A text that is printed for a value without
the latter is printed for no other such value.
-/
namespace Json

/-- What numbers are printed with. -/
def inNumeral (c : Char) : Bool := c.isDigit || ['+', '-', '.', 'e'].contains c

/-- A finite number, by the text that is printed for it. -/
structure Numeral where
  text : List Char
  nonempty : text ≠ []
  chars : ∀ c ∈ text, inNumeral c = true

inductive Value where
  | undefined
  | null
  | bool (b : Bool)
  | number (n : Numeral)
  | nonfinite
  | string (text : String)
  | array (items : List Value)
  | object (members : List (String × Value))

namespace Value

/-- Induction over a value: what is proved of an array is known of its items, and what is proved of
an object is known of its members. -/
@[elab_as_elim, induction_eliminator]
theorem induct {motive : Value → Prop} (undefined : motive .undefined) (null : motive .null)
    (bool : ∀ b, motive (.bool b)) (number : ∀ n, motive (.number n))
    (nonfinite : motive .nonfinite) (string : ∀ text, motive (.string text))
    (array : ∀ items, (∀ v ∈ items, motive v) → motive (.array items))
    (object : ∀ members, (∀ m ∈ members, motive m.2) → motive (.object members)) (v : Value) :
    motive v :=
  Value.rec (motive_1 := motive) (motive_2 := fun items => ∀ v ∈ items, motive v)
    (motive_3 := fun members => ∀ m ∈ members, motive m.2) (motive_4 := fun m => motive m.2)
    undefined null bool number nonfinite string array object
    (fun _ h => absurd h List.not_mem_nil)
    (fun _ _ hv hrest => List.forall_mem_cons.mpr ⟨hv, hrest⟩)
    (fun _ h => absurd h List.not_mem_nil)
    (fun _ _ hm hrest => List.forall_mem_cons.mpr ⟨hm, hrest⟩)
    (fun _ _ hv => hv) v

end Value

/-! ## Strings -/

def mark : Char := Char.ofNat 34
def backslash : Char := Char.ofNat 92
def openBrace : Char := Char.ofNat 123
def closeBrace : Char := Char.ofNat 125

def hexDigit (n : Nat) : Char := if n < 10 then Char.ofNat (48 + n) else Char.ofNat (87 + n)

def hexValue (c : Char) : Nat := if c.toNat < 58 then c.toNat - 48 else c.toNat - 87

/-- The characters that have an escape of their own. -/
def shortEscapes : List (Char × Char) :=
  [(mark, mark), (backslash, backslash), (Char.ofNat 8, 'b'), (Char.ofNat 9, 't'),
    (Char.ofNat 10, 'n'), (Char.ofNat 12, 'f'), (Char.ofNat 13, 'r')]

def escape (c : Char) : List Char :=
  match shortEscapes.lookup c with
  | some d => [backslash, d]
  | none =>
    if c.toNat < 32 then
      [backslash, 'u', '0', '0', hexDigit (c.toNat / 16), hexDigit (c.toNat % 16)]
    else [c]

def quote (text : String) : List Char := mark :: (text.toList.flatMap escape ++ [mark])

/-- What comes after a backslash. -/
def unescapeNamed : List Char → Option (Char × List Char)
  | 'u' :: _ :: _ :: high :: low :: rest =>
    some (Char.ofNat (16 * hexValue high + hexValue low), rest)
  | d :: rest => (shortEscapes.find? (·.2 = d)).map (·.1, rest)
  | [] => none

def unescape : List Char → Option (Char × List Char)
  | [] => none
  | c :: rest => if c = backslash then unescapeNamed rest else some (c, rest)

theorem hexValue_hexDigit : ∀ n < 16, hexValue (hexDigit n) = n := by decide

theorem lookup_shortEscapes {c d : Char} (h : shortEscapes.lookup c = some d) :
    d ≠ 'u' ∧ shortEscapes.find? (·.2 = d) = some (c, d) := by
  have hall : ∀ p ∈ shortEscapes, p.2 ≠ 'u' ∧ shortEscapes.find? (·.2 = p.2) = some p := by decide
  obtain ⟨before, after, hmem, -⟩ := List.lookup_eq_some_iff.mp h
  exact hall (c, d) (hmem ▸ List.mem_append_right before List.mem_cons_self)

theorem unescape_escape (c : Char) (rest : List Char) :
    unescape (escape c ++ rest) = some (c, rest) := by
  rw [escape]
  split
  next d hd =>
    obtain ⟨hne, hfind⟩ := lookup_shortEscapes hd
    rw [List.cons_append, List.singleton_append, unescape, if_pos rfl, unescapeNamed, hfind]
    · rfl
    · exact fun _ _ _ _ _ hu _ => hne hu
  next hnone =>
    split
    next hcontrol =>
      have hhigh := hexValue_hexDigit (c.toNat / 16) (by omega)
      have hlow := hexValue_hexDigit (c.toNat % 16) (by omega)
      have hc : Char.ofNat (16 * (c.toNat / 16) + c.toNat % 16) = c := by
        rw [Nat.div_add_mod, Char.ofNat_toNat]
      simp [unescape, unescapeNamed, hhigh, hlow, hc]
    next =>
      have hplain : c ≠ backslash := by
        rintro rfl
        exact absurd hnone (by decide)
      rw [List.singleton_append, unescape, if_neg hplain]

/-- What follows an escaped character can be told apart from it. -/
theorem escape_append_inj {c d : Char} {r r' : List Char} (h : escape c ++ r = escape d ++ r') :
    c = d ∧ r = r' := by
  have hsome := unescape_escape c r
  rw [h, unescape_escape] at hsome
  obtain ⟨hc, hr⟩ := Prod.mk.inj (Option.some.inj hsome)
  exact ⟨hc.symm, hr.symm⟩

theorem escape_head_ne (c : Char) (r r' : List Char) : escape c ++ r ≠ mark :: r' := by
  intro h
  have hsome := unescape_escape c r
  rw [h, unescape, if_neg (by decide)] at hsome
  obtain ⟨rfl, -⟩ := Prod.mk.inj (Option.some.inj hsome)
  exact absurd h (by simp [escape, shortEscapes, mark, backslash])

theorem escaped_append_inj {s t r r' : List Char}
    (h : s.flatMap escape ++ mark :: r = t.flatMap escape ++ mark :: r') : s = t ∧ r = r' := by
  induction s generalizing t with
  | nil =>
    cases t with
    | nil => exact ⟨rfl, (List.cons.inj h).2⟩
    | cons d t =>
      rw [List.flatMap_cons, List.append_assoc] at h
      exact absurd h.symm (escape_head_ne d _ _)
  | cons c s ih =>
    cases t with
    | nil =>
      rw [List.flatMap_cons, List.append_assoc] at h
      exact absurd h (escape_head_ne c _ _)
    | cons d t =>
      rw [List.flatMap_cons, List.flatMap_cons, List.append_assoc, List.append_assoc] at h
      obtain ⟨rfl, hrest⟩ := escape_append_inj h
      obtain ⟨rfl, hr⟩ := ih hrest
      exact ⟨rfl, hr⟩

theorem quote_append_inj {s t : String} {r r' : List Char} (h : quote s ++ r = quote t ++ r') :
    s = t ∧ r = r' := by
  rw [quote, quote, List.cons_append, List.cons_append, List.append_assoc, List.append_assoc] at h
  obtain ⟨hst, hr⟩ := escaped_append_inj (List.cons.inj h).2
  exact ⟨String.toList_inj.mp hst, hr⟩

/-! ## Printing -/

namespace Value

mutual

def print : Value → List Char
  | .undefined => ['u', 'n', 'd', 'e', 'f', 'i', 'n', 'e', 'd']
  | .null => ['n', 'u', 'l', 'l']
  | .bool true => ['t', 'r', 'u', 'e']
  | .bool false => ['f', 'a', 'l', 's', 'e']
  | .number n => n.text
  | .nonfinite => ['n', 'u', 'l', 'l']
  | .string text => quote text
  | .array items => '[' :: printItems items
  | .object members => openBrace :: printMembers members

def printItems : List Value → List Char
  | [] => [']']
  | v :: rest => v.print ++ printMoreItems rest

def printMoreItems : List Value → List Char
  | [] => [']']
  | v :: rest => ',' :: (v.print ++ printMoreItems rest)

def printMembers : List (String × Value) → List Char
  | [] => [closeBrace]
  | (key, v) :: rest => quote key ++ ':' :: (v.print ++ printMoreMembers rest)

def printMoreMembers : List (String × Value) → List Char
  | [] => [closeBrace]
  | (key, v) :: rest => ',' :: (quote key ++ ':' :: (v.print ++ printMoreMembers rest))

end

/-- The kinds of values that a text shows by its first character. -/
inductive Kind where
  | undefined
  | null
  | bool (b : Bool)
  | number
  | string
  | array
  | object
  deriving DecidableEq

def kind : Value → Kind
  | .undefined => .undefined
  | .null => .null
  | .bool b => .bool b
  | .number _ => .number
  | .nonfinite => .null
  | .string _ => .string
  | .array _ => .array
  | .object _ => .object

def kindOf (c : Char) : Option Kind :=
  if c = 'u' then some .undefined
  else if c = 'n' then some .null
  else if c = 't' then some (.bool true)
  else if c = 'f' then some (.bool false)
  else if c = mark then some .string
  else if c = '[' then some .array
  else if c = openBrace then some .object
  else if inNumeral c then some .number
  else none

theorem kindOf_inNumeral {c : Char} (h : inNumeral c = true) : kindOf c = some .number := by
  have hother : ['u', 'n', 't', 'f', mark, '[', openBrace].all (fun d => !inNumeral d) = true := by
    decide
  have hne : ∀ d ∈ ['u', 'n', 't', 'f', mark, '[', openBrace], c ≠ d := by
    rintro d hd rfl
    have hnot := List.all_eq_true.mp hother c hd
    rw [h] at hnot
    exact absurd hnot (by decide)
  simp only [List.forall_mem_cons] at hne
  simp [kindOf, hne, h]

theorem print_head (v : Value) : ∃ c rest, v.print = c :: rest ∧ kindOf c = some v.kind := by
  cases v with
  | bool b => cases b <;> exact ⟨_, _, rfl, rfl⟩
  | number n =>
    obtain ⟨c, rest, htext⟩ := List.exists_cons_of_ne_nil n.nonempty
    exact ⟨c, rest, htext, kindOf_inNumeral (n.chars c (htext ▸ List.mem_cons_self))⟩
  | _ => exact ⟨_, _, rfl, rfl⟩

theorem kind_of_print {v w : Value} {r r' : List Char} (h : v.print ++ r = w.print ++ r') :
    v.kind = w.kind := by
  obtain ⟨c, rest, hv, hc⟩ := print_head v
  obtain ⟨d, rest', hw, hd⟩ := print_head w
  rw [hv, hw] at h
  obtain rfl := (List.cons.inj h).1
  exact Option.some.inj (hc.symm.trans hd)

/-- A value does not begin as an array or an object ends. -/
theorem print_ne {v : Value} {c : Char} {r r' : List Char} (hc : kindOf c = none) :
    v.print ++ r ≠ c :: r' := by
  obtain ⟨d, rest, hv, hd⟩ := print_head v
  rw [hv]
  intro h
  obtain rfl := (List.cons.inj h).1
  exact absurd (hc.symm.trans hd) nofun

/-! ## What holds of all that is in a value -/

mutual

/-- What holds of a value that has no parts, or of all its parts. -/
def every (p : Value → Bool) : Value → Bool
  | .array items => everyItem p items
  | .object members => everyMember p members
  | v => p v

def everyItem (p : Value → Bool) : List Value → Bool
  | [] => true
  | v :: rest => v.every p && everyItem p rest

def everyMember (p : Value → Bool) : List (String × Value) → Bool
  | [] => true
  | (_, v) :: rest => v.every p && everyMember p rest

end

variable {p : Value → Bool} {items items' : List Value} {members members' : List (String × Value)}
  {v w : Value} {r r' : List Char}

theorem every_array : (array items).every p = true ↔ ∀ v ∈ items, v.every p = true := by
  rw [every]
  induction items with
  | nil => simp [everyItem]
  | cons v rest ih => rw [everyItem, Bool.and_eq_true, ih, List.forall_mem_cons]

theorem every_object : (object members).every p = true ↔ ∀ m ∈ members, m.2.every p = true := by
  rw [every]
  induction members with
  | nil => simp [everyMember]
  | cons m rest ih => rw [everyMember, Bool.and_eq_true, ih, List.forall_mem_cons]

/-- All numbers in the value are finite. -/
def Finite (v : Value) : Prop := v.every (fun | .nonfinite => false | _ => true) = true

instance (v : Value) : Decidable v.Finite := inferInstanceAs (Decidable (_ = _))

/-- Nothing in the value is absent. -/
def Defined (v : Value) : Prop := v.every (fun | .undefined => false | _ => true) = true

instance (v : Value) : Decidable v.Defined := inferInstanceAs (Decidable (_ = _))

/-! ## Reading what is printed -/

/-- A text that cannot go on with a number. -/
def Ends (r : List Char) : Prop := ∀ c ∈ r.head?, inNumeral c = false

theorem ends_cons {c : Char} (h : inNumeral c = false) : Ends (c :: r) := by
  intro d hd
  rwa [← Option.some.inj hd]

theorem numeral_append_inj {n m : Numeral} (hr : Ends r) (hr' : Ends r')
    (h : n.text ++ r = m.text ++ r') : n = m ∧ r = r' := by
  have htake : ∀ (k : Numeral) {r : List Char}, Ends r →
      (k.text ++ r).takeWhile inNumeral = k.text := by
    intro k r hr
    rw [List.takeWhile_append_of_pos k.chars]
    cases r with
    | nil => simp
    | cons c r => simp [hr c rfl]
  have htext : n.text = m.text := by rw [← htake n hr, h, htake m hr']
  obtain rfl : n = m := by
    cases n
    cases m
    cases htext
    rfl
  exact ⟨rfl, List.append_cancel_left h⟩

/-- The value can be told from the text that is printed for it, whatever comes after. -/
def Readable (v : Value) : Prop :=
  ∀ ⦃w r r'⦄, w.Finite → Ends r → Ends r' → v.print ++ r = w.print ++ r' → v = w ∧ r = r'

theorem ends_moreItems (items : List Value) (r : List Char) : Ends (printMoreItems items ++ r) := by
  cases items <;> exact ends_cons (by decide)

theorem moreItems_append_inj (hread : ∀ v ∈ items, Readable v) (hfinite : ∀ v ∈ items', Finite v)
    (h : printMoreItems items ++ r = printMoreItems items' ++ r') : items = items' ∧ r = r' := by
  induction items generalizing items' with
  | nil =>
    cases items' with
    | nil => exact ⟨rfl, (List.cons.inj h).2⟩
    | cons w rest' => exact absurd (List.cons.inj h).1 (by decide)
  | cons v rest ih =>
    cases items' with
    | nil => exact absurd (List.cons.inj h).1 (by decide)
    | cons w rest' =>
      obtain ⟨hv, hrest⟩ := List.forall_mem_cons.mp hread
      obtain ⟨hw, hrest'⟩ := List.forall_mem_cons.mp hfinite
      rw [printMoreItems, printMoreItems, List.cons_append, List.cons_append, List.append_assoc,
        List.append_assoc] at h
      obtain ⟨rfl, hmore⟩ :=
        hv hw (ends_moreItems rest r) (ends_moreItems rest' r') (List.cons.inj h).2
      obtain ⟨rfl, hr⟩ := ih hrest hrest' hmore
      exact ⟨rfl, hr⟩

theorem items_append_inj (hread : ∀ v ∈ items, Readable v) (hfinite : ∀ v ∈ items', Finite v)
    (h : printItems items ++ r = printItems items' ++ r') : items = items' ∧ r = r' := by
  cases items with
  | nil =>
    cases items' with
    | nil => exact ⟨rfl, (List.cons.inj h).2⟩
    | cons w rest' =>
      rw [printItems, printItems, List.append_assoc] at h
      exact absurd h.symm (print_ne (by decide))
  | cons v rest =>
    cases items' with
    | nil =>
      rw [printItems, printItems, List.append_assoc] at h
      exact absurd h (print_ne (by decide))
    | cons w rest' =>
      obtain ⟨hv, hrest⟩ := List.forall_mem_cons.mp hread
      obtain ⟨hw, hrest'⟩ := List.forall_mem_cons.mp hfinite
      rw [printItems, printItems, List.append_assoc, List.append_assoc] at h
      obtain ⟨rfl, hmore⟩ := hv hw (ends_moreItems rest r) (ends_moreItems rest' r') h
      obtain ⟨rfl, hr⟩ := moreItems_append_inj hrest hrest' hmore
      exact ⟨rfl, hr⟩

theorem ends_moreMembers (members : List (String × Value)) (r : List Char) :
    Ends (printMoreMembers members ++ r) := by
  cases members with
  | nil => exact ends_cons (by decide)
  | cons m rest => exact ends_cons (by decide)

/-- A member, and all that comes after it. -/
theorem member_append_inj {m m' : String × Value} {rest rest' : List (String × Value)}
    (hread : Readable m.2) (hfinite : Finite m'.2)
    (h : quote m.1 ++ ':' :: (m.2.print ++ printMoreMembers rest) ++ r =
      quote m'.1 ++ ':' :: (m'.2.print ++ printMoreMembers rest') ++ r') :
    m = m' ∧ printMoreMembers rest ++ r = printMoreMembers rest' ++ r' := by
  rw [List.append_assoc, List.append_assoc] at h
  obtain ⟨hkey, hvalue⟩ := quote_append_inj h
  rw [List.cons_append, List.cons_append, List.append_assoc, List.append_assoc] at hvalue
  obtain ⟨hv, hmore⟩ := hread hfinite (ends_moreMembers rest r) (ends_moreMembers rest' r')
    (List.cons.inj hvalue).2
  exact ⟨Prod.ext hkey hv, hmore⟩

theorem moreMembers_append_inj (hread : ∀ m ∈ members, Readable m.2)
    (hfinite : ∀ m ∈ members', Finite m.2)
    (h : printMoreMembers members ++ r = printMoreMembers members' ++ r') :
    members = members' ∧ r = r' := by
  induction members generalizing members' with
  | nil =>
    cases members' with
    | nil => exact ⟨rfl, (List.cons.inj h).2⟩
    | cons m rest' => exact absurd (List.cons.inj h).1 (by decide)
  | cons m rest ih =>
    cases members' with
    | nil => exact absurd (List.cons.inj h).1 (by decide)
    | cons m' rest' =>
      obtain ⟨hm, hrest⟩ := List.forall_mem_cons.mp hread
      obtain ⟨hm', hrest'⟩ := List.forall_mem_cons.mp hfinite
      rw [printMoreMembers, printMoreMembers, List.cons_append, List.cons_append] at h
      obtain ⟨rfl, hmore⟩ := member_append_inj hm hm' (List.cons.inj h).2
      obtain ⟨rfl, hr⟩ := ih hrest hrest' hmore
      exact ⟨rfl, hr⟩

theorem members_append_inj (hread : ∀ m ∈ members, Readable m.2)
    (hfinite : ∀ m ∈ members', Finite m.2)
    (h : printMembers members ++ r = printMembers members' ++ r') :
    members = members' ∧ r = r' := by
  cases members with
  | nil =>
    cases members' with
    | nil => exact ⟨rfl, (List.cons.inj h).2⟩
    | cons m rest' => exact absurd (List.cons.inj h).1 (by decide)
  | cons m rest =>
    cases members' with
    | nil => exact absurd (List.cons.inj h).1 (by decide)
    | cons m' rest' =>
      obtain ⟨hm, hrest⟩ := List.forall_mem_cons.mp hread
      obtain ⟨hm', hrest'⟩ := List.forall_mem_cons.mp hfinite
      rw [printMembers, printMembers] at h
      obtain ⟨rfl, hmore⟩ := member_append_inj hm hm' h
      obtain ⟨rfl, hr⟩ := moreMembers_append_inj hrest hrest' hmore
      exact ⟨rfl, hr⟩

theorem readable (hv : v.Finite) : v.Readable := by
  intro w r r' hw hr hr' h
  have hkind := kind_of_print h
  induction v generalizing w r r' with
  | undefined =>
    cases w <;> first | contradiction | exact ⟨rfl, List.append_cancel_left h⟩
  | null =>
    cases w <;> first | contradiction | exact ⟨rfl, List.append_cancel_left h⟩
  | bool b =>
    cases w <;> try contradiction
    obtain rfl := Kind.bool.inj hkind
    exact ⟨rfl, List.append_cancel_left h⟩
  | number n =>
    cases w <;> try contradiction
    obtain ⟨rfl, hrest⟩ := numeral_append_inj hr hr' h
    exact ⟨rfl, hrest⟩
  | nonfinite => contradiction
  | string text =>
    cases w <;> try contradiction
    obtain ⟨rfl, hrest⟩ := quote_append_inj h
    exact ⟨rfl, hrest⟩
  | array items ih =>
    cases w <;> try contradiction
    have hread : ∀ v ∈ items, Readable v := fun v hmem _ _ _ hw hr hr' h =>
      ih v hmem (every_array.mp hv v hmem) hw hr hr' h (kind_of_print h)
    obtain ⟨rfl, hrest⟩ := items_append_inj hread (every_array.mp hw) (List.cons.inj h).2
    exact ⟨rfl, hrest⟩
  | object members ih =>
    cases w <;> try contradiction
    have hread : ∀ m ∈ members, Readable m.2 := fun m hmem _ _ _ hw hr hr' h =>
      ih m hmem (every_object.mp hv m hmem) hw hr hr' h (kind_of_print h)
    obtain ⟨rfl, hrest⟩ := members_append_inj hread (every_object.mp hw) (List.cons.inj h).2
    exact ⟨rfl, hrest⟩

/-- Values with finite numbers are told apart by what is printed for them. -/
theorem print_inj (hv : v.Finite) (hw : w.Finite) (h : v.print = w.print) : v = w :=
  (@readable _ hv _ [] [] hw nofun nofun (by rw [h])).1

end Value

end Json

/-!
## The order of the members of an object

Values are arranged before they are printed, so that the order in which the members of an object
were given does not matter. Two values that are arranged to the same one are equal up to that order.
-/
namespace Json

namespace Value

/-! ## Arranging -/

mutual

/-- The members of every object in the value, arranged. -/
def arrange (f : List (String × Value) → List (String × Value)) : Value → Value
  | .array items => .array (arrangeItems f items)
  | .object members => .object (f (arrangeMembers f members))
  | v => v

def arrangeItems (f : List (String × Value) → List (String × Value)) : List Value → List Value
  | [] => []
  | v :: rest => v.arrange f :: arrangeItems f rest

def arrangeMembers (f : List (String × Value) → List (String × Value)) :
    List (String × Value) → List (String × Value)
  | [] => []
  | (key, v) :: rest => (key, v.arrange f) :: arrangeMembers f rest

end

mutual

/-- What is written down of a value: an absent item is null, and an absent member is left out. -/
def written : Value → Value
  | .array items => .array (writtenItems items)
  | .object members => .object (writtenMembers members)
  | v => v

def writtenItems : List Value → List Value
  | [] => []
  | .undefined :: rest => .null :: writtenItems rest
  | v :: rest => v.written :: writtenItems rest

def writtenMembers : List (String × Value) → List (String × Value)
  | [] => []
  | (_, .undefined) :: rest => writtenMembers rest
  | (key, v) :: rest => (key, v.written) :: writtenMembers rest

end

/-- `JSON.stringify` of a value that is not absent. -/
def stringify (v : Value) : String := String.ofList v.written.print

/-- The order of code units in which the host compares texts. -/
def codeUnits (text : String) : List Nat :=
  text.toList.flatMap fun c =>
    if c.toNat < 65536 then [c.toNat]
    else [55296 + (c.toNat - 65536) / 1024, 56320 + (c.toNat - 65536) % 1024]

/-- The members that are not absent, in the order of their keys. -/
def sorted (members : List (String × Value)) : List (String × Value) :=
  (members.filter fun | (_, .undefined) => false | _ => true).insertionSort
    fun m m' => codeUnits m.1 ≤ codeUnits m'.1

/-- The value with the members of each object in the order of their keys. -/
def stable (v : Value) : Value := v.arrange sorted

variable {f : List (String × Value) → List (String × Value)} {items : List Value}
  {members : List (String × Value)} {p : Value → Bool} {v w : Value}

theorem arrangeItems_eq (f : List (String × Value) → List (String × Value)) (items : List Value) :
    arrangeItems f items = items.map (arrange f) := by
  induction items with
  | nil => rfl
  | cons v rest ih => rw [arrangeItems, ih, List.map_cons]

theorem arrangeMembers_eq (f : List (String × Value) → List (String × Value))
    (members : List (String × Value)) :
    arrangeMembers f members = members.map fun m => (m.1, m.2.arrange f) := by
  induction members with
  | nil => rfl
  | cons m rest ih => rw [arrangeMembers, ih, List.map_cons]

/-- What holds of all that is in a value holds of all that is in it when it is arranged. -/
theorem every_arrange (hf : ∀ members, f members ⊆ members) (hv : v.every p = true) :
    (v.arrange f).every p = true := by
  induction v with
  | array items ih =>
    rw [arrange, arrangeItems_eq]
    rw [every_array] at hv ⊢
    intro w hw
    obtain ⟨v, hmem, rfl⟩ := List.mem_map.mp hw
    exact ih v hmem (hv v hmem)
  | object members ih =>
    rw [arrange, arrangeMembers_eq]
    rw [every_object] at hv ⊢
    intro m hm
    obtain ⟨m, hmem, rfl⟩ := List.mem_map.mp (hf _ hm)
    exact ih m hmem (hv m hmem)
  | _ => exact hv

/-! ## Equality up to the order of members -/

/-- The values are equal up to the order of the members of objects. -/
inductive Reorders : Value → Value → Prop
  | refl (v : Value) : Reorders v v
  | symm {v w : Value} (h : Reorders v w) : Reorders w v
  | trans {u v w : Value} (h : Reorders u v) (h' : Reorders v w) : Reorders u w
  | item {v w : Value} {before after : List Value} (h : Reorders v w) :
      Reorders (.array (before ++ v :: after)) (.array (before ++ w :: after))
  | member {v w : Value} {key : String} {before after : List (String × Value)}
      (h : Reorders v w) :
      Reorders (.object (before ++ (key, v) :: after)) (.object (before ++ (key, w) :: after))
  | members {members members' : List (String × Value)} (h : members.Perm members') :
      Reorders (.object members) (.object members')

theorem Reorders.eachItem {g : Value → Value} (h : ∀ v ∈ items, Reorders v (g v))
    (before : List Value) :
    Reorders (.array (before ++ items)) (.array (before ++ items.map g)) := by
  induction items generalizing before with
  | nil => exact .refl _
  | cons v rest ih =>
    obtain ⟨hv, hrest⟩ := List.forall_mem_cons.mp h
    have hmore := ih hrest (before ++ [g v])
    rw [List.append_assoc, List.append_assoc] at hmore
    exact (Reorders.item hv).trans hmore

theorem Reorders.eachMember {g : Value → Value} (h : ∀ m ∈ members, Reorders m.2 (g m.2))
    (before : List (String × Value)) :
    Reorders (.object (before ++ members))
      (.object (before ++ members.map fun m => (m.1, g m.2))) := by
  induction members generalizing before with
  | nil => exact .refl _
  | cons m rest ih =>
    obtain ⟨hm, hrest⟩ := List.forall_mem_cons.mp h
    have hmore := ih hrest (before ++ [(m.1, g m.2)])
    rw [List.append_assoc, List.append_assoc] at hmore
    exact (Reorders.member hm).trans hmore

/-- An arrangement that only permutes the members of a defined object reorders a defined value. -/
theorem reorders_arrange
    (hf : ∀ members, (∀ m ∈ members, m.2.Defined) → (f members).Perm members)
    (hsub : ∀ members, f members ⊆ members) (hv : v.Defined) : Reorders v (v.arrange f) := by
  induction v with
  | array items ih =>
    rw [arrange, arrangeItems_eq]
    exact Reorders.eachItem (fun v hmem => ih v hmem (every_array.mp hv v hmem)) []
  | object members ih =>
    rw [arrange, arrangeMembers_eq]
    have hmembers := every_object.mp hv
    refine (Reorders.eachMember (fun m hmem => ih m hmem (hmembers m hmem)) []).trans ?_
    refine .members (hf _ fun m hm => ?_).symm
    obtain ⟨m, hmem, rfl⟩ := List.mem_map.mp hm
    exact every_arrange hsub (hmembers m hmem)
  | _ => exact .refl _

theorem sorted_subset (members : List (String × Value)) : sorted members ⊆ members :=
  fun _ h => (List.filter_sublist.subset) ((List.perm_insertionSort _ _).subset h)

theorem sorted_perm (h : ∀ m ∈ members, m.2.Defined) : (sorted members).Perm members := by
  refine (List.perm_insertionSort _ _).trans ?_
  rw [List.filter_eq_self.mpr]
  rintro ⟨key, v⟩ hmem
  cases v with
  | undefined => exact absurd (h _ hmem) Bool.false_ne_true
  | _ => rfl

/-- Values that are printed alike once they are sorted are equal up to the order of members. -/
theorem reorders_of_print_stable (hv : v.Defined) (hw : w.Defined) (hvf : v.Finite)
    (hwf : w.Finite) (h : v.stable.print = w.stable.print) : Reorders v w := by
  have hsame : v.stable = w.stable :=
    print_inj (every_arrange sorted_subset hvf) (every_arrange sorted_subset hwf) h
  have hleft : Reorders v v.stable := reorders_arrange (fun _ => sorted_perm) sorted_subset hv
  have hright : Reorders w w.stable := reorders_arrange (fun _ => sorted_perm) sorted_subset hw
  exact hleft.trans (hsame ▸ hright.symm)

end Value

end Json
