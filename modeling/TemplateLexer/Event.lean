import TemplateLexer.Lexer

/-!
# Events

An `Event` tells a log what a lexer or an automaton has just done.  The events follow from
the results: `Event.ofBuild` and `Event.ofLexer` describe what was made, `Event.ofReset` and
`Event.ofNext` the outcome of a call.  Of the errors, only a mismatch found in the input is
an event.
-/

namespace TemplateLexer

/-- Something worth a line in a log. -/
inductive Event where
  /-- An automaton was built. -/
  | built (nodes delimiters : Nat)
  /-- A lexer was created. -/
  | created (states : Nat) (escape : Char) (maxTextChunk : Nat)
  /-- A lexer was bound to an input. -/
  | reset (hasData : Bool)
  /-- A token was returned. -/
  | token (mode : Mode) (kind : Kind) (position : Position)
  /-- The input is not what it has to be. -/
  | lexicalError (mismatch : Mismatch)
  deriving DecidableEq, Repr

/-- How much a log has to show for an event to appear in it. -/
inductive Event.Level where
  | debug
  | trace
  deriving DecidableEq, Repr

/-- The name of a level. -/
def Event.Level.name : Event.Level → String
  | debug => "DEBUG"
  | trace => "TRACE"

namespace Event

/-- The level of an event. -/
def level : Event → Level
  | built .. | created .. | lexicalError .. => .debug
  | reset .. | token .. => .trace

/-- The wording of an event. -/
def message : Event → String
  | built .. => "built delimiter automaton"
  | created .. => "created lexer"
  | reset .. => "lexer reset"
  | token .. => "token"
  | lexicalError .. => "lexical error"

/-- The event of building `automaton`. -/
def ofBuild (automaton : Automaton Kind) : Event :=
  built automaton.trie.size automaton.trie.patternCount

/-- The event of creating the lexer `l`. -/
def ofLexer (l : Lexer) : Event :=
  created l.automaton.trie.size l.escape l.maxTextChunk

/-- The events of making a lexer of settings. -/
def ofConfig : Except Error Lexer → List Event
  | .ok l => [ofBuild l.automaton, ofLexer l]
  | .error _ => []

/-- The events of a reset. -/
def ofReset : Except Error Bool → List Event
  | .ok hasData => [reset hasData]
  | .error _ => []

/-- The events of a request in the given mode, from its result and the lexer after it. -/
def ofNext (mode : Mode) : Except Error Token × Lexer → List Event
  | (.ok t, l) => [token mode t.kind l.position]
  | (.error e, _) => (e.mismatch?.map lexicalError).toList

end Event

end TemplateLexer
