/-!
# Positions

A `Position` counts the lines and columns of the characters delivered so far, from line 1
and column 1 on.
-/

namespace TemplateLexer

/-- A line and a column. -/
structure Position where
  line : Nat
  column : Nat
  deriving DecidableEq, Repr

namespace Position

/-- The position before any character. -/
def start : Position :=
  ⟨1, 1⟩

/-- The position after the character `c`: a newline starts the next line. -/
def advance (p : Position) (c : Char) : Position :=
  if c = '\n' then ⟨p.line + 1, 1⟩ else { p with column := p.column + 1 }

/-- The position after the characters `cs`. -/
def advanceAll (p : Position) (cs : List Char) : Position :=
  cs.foldl advance p

end Position

end TemplateLexer
