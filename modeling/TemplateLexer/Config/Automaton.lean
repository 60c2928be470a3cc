import TemplateLexer.Automaton
import TemplateLexer.Config
import TemplateLexer.Error

/-!
# The automaton of the settings

`Config.automaton` makes an automaton of the three configured delimiters.  It registers
them one after another, so that the first bad option is the one reported: the first that
is empty or has the value of an earlier one.
-/

namespace TemplateLexer

namespace Config

/-- The automaton `a` with the delimiter `d` registered under its spelling, which has to be
neither empty nor in use. -/
def register (config : Config) (a : Automaton Kind) (d : Delimiter) :
    Except Error (Automaton Kind) :=
  let spelling := config.delimiter d
  if spelling.isEmpty then .error (.emptyDelimiter d)
  else
    match a.register? spelling (.delimiter d) with
    | some a => .ok a
    | none => .error (.duplicateDelimiter d spelling)

/-- The automaton of the configured delimiters; the first bad option is the error. -/
def automaton (config : Config) : Except Error (Automaton Kind) := do
  let a ← Delimiter.all.foldlM config.register Automaton.empty
  return a.build

end Config

end TemplateLexer
