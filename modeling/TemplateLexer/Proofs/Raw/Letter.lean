import Mathlib.Data.List.Basic

/-!
# Letters of raw text

Raw text is made of letters: a character that stands as it is, or a character that an
escape character takes literally.  `letters` splits a text into its letters from left to
right, and `unescape` gives the characters that they stand for.
-/

namespace TemplateLexer

/-- A letter of raw text. -/
inductive Letter where
  /-- A character as it stands. -/
  | plain (c : Char)
  /-- A character taken literally. -/
  | escaped (c : Char)
  deriving DecidableEq, Repr

/-- The character that a letter stands for. -/
def Letter.char : Letter → Char
  | plain c => c
  | escaped c => c

/-- The letters of a text.  An escape character takes the character after it literally; where
there is none, it stands for itself. -/
def letters (escape : Char) : List Char → List Letter
  | [] => []
  | [c] => [.plain c]
  | c :: d :: cs =>
    if c = escape then .escaped d :: letters escape cs
    else .plain c :: letters escape (d :: cs)

/-- The characters that the letters of a text stand for. -/
def unescape (escape : Char) (cs : List Char) : List Char :=
  (letters escape cs).map Letter.char

section Letters

variable {escape c : Char} {cs : List Char}

@[simp]
theorem letters_nil :
  letters escape [] = []
  := rfl

@[simp]
theorem letters_escape_cons :
  letters escape (escape :: c :: cs) = .escaped c :: letters escape cs
  := if_pos rfl

theorem letters_cons_of_ne (h : c ≠ escape) :
  letters escape (c :: cs) = .plain c :: letters escape cs
  := by
  cases cs with
  | nil => rfl
  | cons d cs => apply if_neg h

/-- Without an escape character every character stands as it is. -/
theorem letters_eq_map_plain (h : escape ∉ cs) :
  letters escape cs = cs.map .plain
  := by
  induction cs with
  | nil => rfl
  | cons c cs ih =>
    rw [List.mem_cons, not_or] at h
    rw [letters_cons_of_ne (Ne.symm h.1), ih h.2, List.map_cons]

@[simp]
theorem letters_eq_nil_iff :
  letters escape cs = [] ↔ cs = []
  := by
  fun_cases letters escape cs <;> simp [*]

theorem unescape_of_notMem (h : escape ∉ cs) :
  unescape escape cs = cs
  := by
  rw [unescape, letters_eq_map_plain h, List.map_map]
  apply List.map_id

/-- Every escape character of a text takes a character: none is the last one and stands for
itself. -/
def IsPaired (escape : Char) (cs : List Char) : Prop :=
  .plain escape ∉ letters escape cs

instance : Decidable (IsPaired escape cs) :=
  inferInstanceAs (Decidable (_ ∉ _))

/-- Where every escape character takes a character, the letters of what follows do not depend on
what stands before. -/
theorem letters_append (h : IsPaired escape cs) (ds : List Char) :
  letters escape (cs ++ ds) = letters escape cs ++ letters escape ds
  := by
  rw [IsPaired] at h
  revert h
  fun_induction letters escape cs with
  | case1 =>
    intro _
    rfl
  | case2 c =>
    intro h
    have hc : c ≠ escape := by
      rintro rfl
      simp at h
    apply letters_cons_of_ne hc
  | case3 d cs ih =>
    intro h
    rw [List.mem_cons, not_or] at h
    rw [List.cons_append, List.cons_append, letters_escape_cons, ih h.2, List.cons_append]
  | case4 c d cs hc ih =>
    intro h
    rw [List.mem_cons, not_or] at h
    rw [List.cons_append, letters_cons_of_ne hc, ih h.2, List.cons_append]

end Letters

/-! ### Words in letters -/

theorem Letter.plain_injective :
  Function.Injective Letter.plain
  := by
  intro c d h
  cases h
  rfl

/-- A word that plain letters and more start with ends among them or takes all of them. -/
theorem prefix_comparable {p q : List Char} {ls : List Letter}
    (h : p.map Letter.plain <+: q.map .plain ++ ls) :
  p <+: q ∨ q <+: p
  := by
  rcases List.prefix_or_prefix_of_prefix h (List.prefix_append _ _) with h | h
  · left
    exact (List.prefix_map_iff_of_injective Letter.plain_injective).mp h
  · right
    exact (List.prefix_map_iff_of_injective Letter.plain_injective).mp h

/-- What is part of a word and does not end it is part of the word without its last character. -/
theorem eq_nil_or_infix_of_append {x p y w : List Char} {c : Char} (h : x ++ p ++ y = w ++ [c]) :
  y = [] ∨ p <:+: w
  := by
  rcases List.eq_nil_or_concat' y with rfl | ⟨y, c', rfl⟩
  · left
    rfl
  · right
    rw [← List.append_assoc] at h
    obtain ⟨hw, -⟩ := List.append_inj' h rfl
    rw [← hw]
    apply List.infix_append

/-- At the end of the letters a word ends. -/
theorem prefix_of_nil {p q : List Char} (h : p.map Letter.plain <+: q.map .plain ++ []) :
  p <+: q
  := by
  rw [List.append_nil] at h
  exact (List.prefix_map_iff_of_injective Letter.plain_injective).mp h

/-- Before an escaped letter a word ends. -/
theorem prefix_of_escaped {p q : List Char} {c : Char} {ls : List Letter}
    (h : p.map Letter.plain <+: q.map .plain ++ .escaped c :: ls) :
  p <+: q
  := by
  rcases prefix_comparable h with hp | ⟨r, rfl⟩
  · apply hp
  · rw [List.map_append, List.prefix_append_right_inj] at h
    cases r with
    | nil => simp
    | cons d r =>
      rw [List.map_cons, List.cons_prefix_cons] at h
      cases h.1

end TemplateLexer
