import TemplateLexer.Error

/-!
# Modes

A template alternates between raw text and blocks, and whoever reads the tokens knows
which of the two comes next: every request for a token names a `Mode`.
-/

namespace TemplateLexer

/-- What the next token is to be read as. -/
inductive Mode where
  /-- A token of block code. -/
  | block
  /-- Raw text or a block delimiter. -/
  | raw
  deriving DecidableEq, Repr

namespace Mode

/-- The name of a mode. -/
def name : Mode → String
  | block => "block"
  | raw => "raw"

/-- The mode with the given name. -/
def ofName (s : String) : Except Error Mode :=
  match s with
  | "block" => .ok block
  | "raw" => .ok raw
  | value => .error (.unknownMode value)

@[simp]
theorem ofName_name (m : Mode) :
  ofName m.name = .ok m
  := by
  cases m <;> rfl

end Mode

end TemplateLexer
