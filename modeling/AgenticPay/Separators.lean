import Mathlib.Data.List.Basic
import Mathlib.Data.List.Forall2

/-!
# Texts that are joined by a separator

Parts that can be told apart when the separator comes after them are told apart when they are
joined.
-/
namespace Separators

/-- Where the separator follows either text, the two are told apart. -/
def Reads (sep : Char) (x y : String) : Prop :=
  ∀ r r' : List Char, x.toList ++ sep :: r = y.toList ++ sep :: r' → x = y ∧ r = r'

variable {sep : Char} {x y : String} {xs ys : List String}

/-- The first separator ends a text that has none. -/
theorem cut_inj {s t r r' : List Char} (hs : sep ∉ s) (ht : sep ∉ t)
    (h : s ++ sep :: r = t ++ sep :: r') : s = t ∧ r = r' := by
  induction s generalizing t with
  | nil =>
    cases t with
    | nil => exact ⟨rfl, (List.cons.inj h).2⟩
    | cons d t =>
      obtain rfl := (List.cons.inj h).1
      exact absurd List.mem_cons_self ht
  | cons c s ih =>
    cases t with
    | nil =>
      obtain rfl := (List.cons.inj h).1
      exact absurd List.mem_cons_self hs
    | cons d t =>
      obtain ⟨rfl, hrest⟩ := List.cons.inj h
      obtain ⟨rfl, hr⟩ := ih (fun hmem => hs (List.mem_cons_of_mem _ hmem))
        (fun hmem => ht (List.mem_cons_of_mem _ hmem)) hrest
      exact ⟨rfl, hr⟩

/-- The part after the last separator is determined by the whole. -/
theorem last_cut_inj {a a' b b' : List Char} (hb : sep ∉ b) (hb' : sep ∉ b')
    (h : a ++ sep :: b = a' ++ sep :: b') : b = b' := by
  have hreverse := congrArg List.reverse h
  rw [List.reverse_append, List.reverse_append, List.reverse_cons, List.reverse_cons,
    List.append_assoc, List.append_assoc] at hreverse
  have hcut := (cut_inj (by simpa using hb) (by simpa using hb') hreverse).1
  exact List.reverse_inj.mp hcut

theorem reads_of_not_mem (hx : sep ∉ x.toList) (hy : sep ∉ y.toList) : Reads sep x y := by
  intro r r' h
  obtain ⟨heq, hr⟩ := cut_inj hx hy h
  exact ⟨String.toList_inj.mp heq, hr⟩

theorem toList_intercalate (sep : Char) (x y : String) (xs : List String) :
    ((String.singleton sep).intercalate (x :: y :: xs)).toList =
      x.toList ++ sep :: ((String.singleton sep).intercalate (y :: xs)).toList := by
  rw [String.intercalate_cons_cons, String.toList_append, String.toList_append,
    String.toList_singleton, List.append_assoc]
  rfl

theorem intercalate_inj (h : List.Forall₂ (Reads sep) xs ys)
    (heq : (String.singleton sep).intercalate xs = (String.singleton sep).intercalate ys) :
    xs = ys := by
  induction h with
  | nil => rfl
  | @cons x y xs ys hread hrest ih =>
    cases hrest with
    | nil =>
      rw [String.intercalate_singleton, String.intercalate_singleton] at heq
      rw [heq]
    | @cons x' y' xs ys hread' hrest =>
      have hlist := congrArg String.toList heq
      rw [toList_intercalate, toList_intercalate] at hlist
      obtain ⟨rfl, hmore⟩ := hread _ _ hlist
      rw [ih (String.toList_inj.mp hmore)]

/-- A number is written with digits, and a sign. -/
theorem not_mem_toString (n : Int) {c : Char} (hc : (c.isDigit || c = '-') = false) :
    c ∉ (toString n).toList := by
  intro h
  have hdigit : ∀ n : Nat, c ∉ n.repr.toList := by
    intro n hmem
    rw [Nat.toList_repr] at hmem
    simp [Nat.isDigit_of_mem_toDigits (by decide) (by decide) hmem] at hc
  cases n with
  | ofNat n => exact hdigit n h
  | negSucc n =>
    have hmem : c ∈ ("-" ++ (n + 1).repr).toList := h
    rw [String.toList_append, List.mem_append] at hmem
    rcases hmem with hsign | hnumber
    · obtain rfl : c = '-' := List.mem_singleton.mp hsign
      exact absurd hc (by decide)
    · exact hdigit _ hnumber

end Separators

/-!
## Patterns with stars

A star in a pattern stands for a run of characters and any other character for
one. Which runs a star may stand for, and which characters another character, is
a parameter: for themselves, or as a regular expression would read them.
-/
namespace Globs

variable {single single' : Char → Char → Prop} {many many' : Char → Prop} {p t : List Char}

inductive Reads (single : Char → Char → Prop) (many : Char → Prop) : List Char → List Char → Prop
  | nil : Reads single many [] []
  | star {p t run : List Char} (hrun : ∀ c ∈ run, many c) (rest : Reads single many p t) :
      Reads single many ('*' :: p) (run ++ t)
  | one {c d : Char} {p t : List Char} (hc : c ≠ '*') (hd : single c d)
      (rest : Reads single many p t) : Reads single many (c :: p) (d :: t)

theorem Reads.imp (h : Reads single many p t)
    (hsingle : ∀ c ∈ p, ∀ d ∈ t, single c d → single' c d) (hmany : ∀ d ∈ t, many d → many' d) :
    Reads single' many' p t := by
  induction h with
  | nil => exact .nil
  | star hrun rest ih =>
    refine .star (fun c hc => hmany c (List.mem_append_left _ hc) (hrun c hc)) (ih ?_ ?_)
    · exact fun c hc d hd => hsingle c (List.mem_cons_of_mem _ hc) d (List.mem_append_right _ hd)
    · exact fun d hd => hmany d (List.mem_append_right _ hd)
  | one hc hd rest ih =>
    refine .one hc (hsingle _ List.mem_cons_self _ List.mem_cons_self hd) (ih ?_ ?_)
    · exact fun c hc d hd => hsingle c (List.mem_cons_of_mem _ hc) d (List.mem_cons_of_mem _ hd)
    · exact fun d hd => hmany d (List.mem_cons_of_mem _ hd)

/-- A star stands for any run, and every other character for itself. -/
abbrev Glob : List Char → List Char → Prop := Reads Eq fun _ => True

/-- The characters that a dot does not stand for. -/
def LineEnd (c : Char) : Prop := c.toNat ∈ [0x0A, 0x0D, 0x2028, 0x2029]

/-- The pattern as a regular expression reads it: a dot stands for any character on a line, and a
star for a run of these. -/
abbrev Dotted : List Char → List Char → Prop :=
  Reads (fun c d => if c = '.' then ¬ LineEnd d else c = d) fun d => ¬ LineEnd d

theorem glob_self (h : '*' ∉ p) : Glob p p := by
  induction p with
  | nil => exact .nil
  | cons c p ih =>
    exact .one (fun he => h (by rw [he]; exact List.mem_cons_self)) rfl
      (ih fun hmem => h (List.mem_cons_of_mem _ hmem))

/-- Without a star there is one text. -/
theorem glob_literal (h : '*' ∉ p) : Glob p t ↔ p = t := by
  constructor
  · intro hg
    induction hg with
    | nil => rfl
    | star => exact absurd List.mem_cons_self h
    | one _ hd _ ih => rw [hd, ih fun hmem => h (List.mem_cons_of_mem _ hmem)]
  · rintro rfl
    exact glob_self h

/-- Without a dot, and on one line, the two readings are the same. -/
theorem dotted_iff_glob (hdot : '.' ∉ p) (hline : ∀ d ∈ t, ¬ LineEnd d) :
    Dotted p t ↔ Glob p t := by
  have hne : ∀ c ∈ p, c ≠ '.' := fun c hc he => hdot (he ▸ hc)
  constructor
  · intro h
    refine h.imp (fun c hc d _ hd => ?_) fun _ _ _ => trivial
    rwa [if_neg (hne c hc)] at hd
  · intro h
    refine h.imp (fun c hc d _ hd => ?_) fun d hd _ => hline d hd
    rwa [if_neg (hne c hc)]

end Globs
