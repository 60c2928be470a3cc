import TemplateLexer.Chunk
import TemplateLexer.Config.Automaton
import TemplateLexer.Lexeme
import TemplateLexer.Mode

/-!
# The lexer

A `Lexer` cuts a template into tokens, one for each request.  `Lexer.ofConfig` checks
settings and makes a lexer of them, `reset` binds it to an input, and `next` gives the
next token in the mode that the caller asks for.  When raw text ends at a delimiter, the
text is the token and the delimiter is `pending`: it is the next token of raw mode.

A failed read leaves the lexer usable: the text collected for the request is lost, and the
cursor stands on the last character delivered.
-/

namespace TemplateLexer

/-- A lexer and its place in the input. -/
structure Lexer where
  /-- The block delimiters. -/
  automaton : Automaton Kind
  /-- The character that takes the character after it literally. -/
  escape : Char
  /-- The size in bytes above which raw text is split. -/
  maxTextChunk : Nat
  /-- The place in the input. -/
  cursor : Cursor
  /-- The delimiter found after the last raw text. -/
  pending : Option Kind
  /-- The last token returned. -/
  current : Token

namespace Lexer

/-! ### Construction -/

/-- The lexer without an input that recognises the patterns of `automaton`. -/
def ofAutomaton (automaton : Automaton Kind) (escape : Char) (maxTextChunk : Nat) : Lexer :=
  ⟨automaton, escape, maxTextChunk, .unbound, none, .endOfInput⟩

/-- The lexer with the given settings. -/
def ofConfig (config : Config) : Except Error Lexer := do
  return ofAutomaton (← config.automaton) config.escape config.maxTextChunk

/-! ### Reading -/

/-- The position after all characters read. -/
def position (l : Lexer) : Position :=
  l.cursor.position

/-- The lexer bound to `source` and on its first character, and whether there is one. -/
def reset (l : Lexer) (source : Source) : Except Error Bool × Lexer :=
  let l := { l with pending := none, current := .endOfInput }
  match (Cursor.before source).advance with
  | (.error e, cursor) => (.error (.io e), { l with cursor })
  | (.ok (), cursor) => (.ok !cursor.isEnded, { l with cursor })

/-- The next token of raw mode.  Without a matcher nothing is recognised: that is found out
when the first character is read. -/
def nextRaw (l : Lexer) : Except Error Token × Lexer :=
  match l.pending, l.automaton.matcher? with
  | some k, _ => (.ok (.empty k), { l with pending := none })
  | none, none =>
    match l.cursor.advance with
    | (.error e, cursor) => (.error (.io e), { l with cursor })
    | (.ok (), cursor) => (.error .matcherMissing, { l with cursor })
  | none, some m =>
    match l.cursor.nextChunk m l.escape l.maxTextChunk with
    | (.error e, cursor) => (.error (.io e), { l with cursor })
    | (.ok chunk, cursor) =>
      (.ok chunk.token, { l with cursor, pending := chunk.pending })

/-- The next token of block mode. -/
def nextBlock (l : Lexer) : Except Error Token × Lexer :=
  let step := l.cursor.nextLexeme l.escape
  (step.1, { l with cursor := step.2 })

/-- The next token in the given mode, before it becomes the current one. -/
def produce (l : Lexer) : Mode → Except Error Token × Lexer
  | .block => l.nextBlock
  | .raw => l.nextRaw

/-- The next token in the given mode.  It becomes the current one; after an error the
current token is still the one before. -/
def next (l : Lexer) (mode : Mode) : Except Error Token × Lexer :=
  match l.produce mode with
  | (.ok token, l) => (.ok token, { l with current := token })
  | (.error e, l) => (.error e, l)

/-! ### Sequences of requests -/

/-- The results of requests in the given modes, one after another, each with the lexer after
it. -/
def run (l : Lexer) : List Mode → List (Except Error Token × Lexer)
  | [] => []
  | mode :: modes =>
    let step := l.next mode
    step :: step.2.run modes

/-- The results of at most `limit` requests in the same mode, each with the lexer after it,
up to the first error or the end of the input. -/
def runToEnd (l : Lexer) (mode : Mode) : Nat → List (Except Error Token × Lexer)
  | 0 => []
  | limit + 1 =>
    match l.next mode with
    | (.ok token, l) =>
      (.ok token, l) :: if token.isEndOfInput then [] else l.runToEnd mode limit
    | (.error e, l) => [(.error e, l)]

end Lexer

end TemplateLexer
