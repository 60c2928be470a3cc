/-!
# Operators

`Operator` lists the operators and punctuation marks of block code.  `chars` gives the
one or two characters that spell an operator, and `ofChars?` finds the operator that a
list of characters spells; the two are inverse to each other, by `ofChars?_eq_some_iff`.
-/

namespace TemplateLexer

/-- An operator or punctuation mark. -/
inductive Operator where
  | bang
  | colon
  | comma
  | dot
  | doubleAmpersand
  | doublePipe
  | equal
  | greater
  | greaterEqual
  | less
  | lessEqual
  | minus
  | notEqual
  | parenthesisOpen
  | parenthesisClose
  | bracketOpen
  | bracketClose
  | percent
  | plus
  | slash
  | star
  deriving DecidableEq, Repr

namespace Operator

/-- All operators. -/
def all : List Operator :=
  [bang, colon, comma, dot, doubleAmpersand, doublePipe, equal, greater, greaterEqual,
    less, lessEqual, minus, notEqual, parenthesisOpen, parenthesisClose, bracketOpen,
    bracketClose, percent, plus, slash, star]

/-- The characters that spell an operator. -/
def chars : Operator → List Char
  | bang => ['!']
  | colon => [':']
  | comma => [',']
  | dot => ['.']
  | doubleAmpersand => ['&', '&']
  | doublePipe => ['|', '|']
  | equal => ['=']
  | greater => ['>']
  | greaterEqual => ['>', '=']
  | less => ['<']
  | lessEqual => ['<', '=']
  | minus => ['-']
  | notEqual => ['!', '=']
  | parenthesisOpen => ['(']
  | parenthesisClose => [')']
  | bracketOpen => ['[']
  | bracketClose => [']']
  | percent => ['%']
  | plus => ['+']
  | slash => ['/']
  | star => ['*']

/-- The spelling of an operator in block code. -/
def spelling (o : Operator) : String :=
  String.ofList o.chars

/-- The name of an operator in tokens and events. -/
def name : Operator → String
  | bang => "Bang"
  | colon => "Colon"
  | comma => "Comma"
  | dot => "Dot"
  | doubleAmpersand => "DoubleAmpersand"
  | doublePipe => "DoublePipe"
  | equal => "Equal"
  | greater => "GreaterThan"
  | greaterEqual => "GreaterEqual"
  | less => "LowerThan"
  | lessEqual => "LowerEqual"
  | minus => "Minus"
  | notEqual => "NotEqual"
  | parenthesisOpen => "ParenthesisBegin"
  | parenthesisClose => "ParenthesisEnd"
  | bracketOpen => "BracketBegin"
  | bracketClose => "BracketEnd"
  | percent => "Percent"
  | plus => "Plus"
  | slash => "Slash"
  | star => "Star"

/-- The operator that `cs` spells, if any. -/
def ofChars? (cs : List Char) : Option Operator :=
  all.find? (·.chars = cs)

/-- Whether some operator's spelling starts with `c`. -/
def startsWith (c : Char) : Bool :=
  all.any (·.chars.head? = some c)

theorem mem_all (o : Operator) :
  o ∈ all
  := by
  cases o <;> decide

@[simp]
theorem ofChars?_chars (o : Operator) :
  ofChars? o.chars = some o
  := by
  cases o <;> rfl

/-- Different operators are spelled differently. -/
theorem chars_injective {o o' : Operator} (h : o.chars = o'.chars) :
  o = o'
  := by
  rw [← Option.some_inj, ← ofChars?_chars o, h, ofChars?_chars]

/-- `ofChars?` finds exactly the operator with the given spelling. -/
theorem ofChars?_eq_some_iff {cs : List Char} {o : Operator} :
  ofChars? cs = some o ↔ o.chars = cs
  := by
  constructor
  · intro h
    simpa using List.find?_some h
  · rintro rfl
    apply ofChars?_chars

/-- A spelling has one or two characters. -/
theorem length_chars (o : Operator) :
  o.chars.length = 1 ∨ o.chars.length = 2
  := by
  cases o <;> decide

end Operator

end TemplateLexer
