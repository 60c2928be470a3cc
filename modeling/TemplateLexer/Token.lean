import TemplateLexer.Operator
import TemplateLexer.Text.Escape

/-!
# Tokens

A `Token` is a `Kind` and a text.  The kind alone decides about grammar; the text is the
payload of raw text, symbols, numbers, strings and unknown characters, and empty for all
other kinds.  `Kind.describe` and `Token.describe` are the forms in which kinds and tokens
appear in messages.
-/

namespace TemplateLexer

/-- The role of one of the configured block delimiters. -/
inductive Delimiter where
  /-- The delimiter that opens a block. -/
  | opening
  /-- The delimiter between two parts of a block. -/
  | continuation
  /-- The delimiter that closes a block. -/
  | closing
  deriving DecidableEq, Repr

/-- The classification of a token. -/
inductive Kind where
  /-- A character that starts no token. -/
  | unknown
  /-- The end of the input. -/
  | endOfInput
  /-- Literal text outside of blocks. -/
  | text
  /-- An identifier. -/
  | symbol
  /-- A numeric literal. -/
  | number
  /-- A quoted string. -/
  | string
  /-- A configured block delimiter. -/
  | delimiter (d : Delimiter)
  /-- An operator or punctuation mark. -/
  | operator (o : Operator)
  deriving DecidableEq, Repr

/-- A classified unit of the input. -/
structure Token where
  kind : Kind
  text : String
  deriving DecidableEq, Repr

/-! ### Delimiters -/

namespace Delimiter

/-- All delimiters, in the order in which their options are validated. -/
def all : List Delimiter :=
  [opening, continuation, closing]

/-- The name of the delimiter in tokens and events. -/
def name : Delimiter → String
  | opening => "BlockBegin"
  | continuation => "BlockContinue"
  | closing => "BlockEnd"

/-- The delimiter in the words of a message. -/
def describe : Delimiter → String
  | opening => "block begin"
  | continuation => "block continue"
  | closing => "block end"

/-- The name of the option that configures the delimiter. -/
def option : Delimiter → String
  | opening => "blockBegin"
  | continuation => "blockContinue"
  | closing => "blockEnd"

end Delimiter

/-! ### Kinds -/

namespace Kind

/-- All kinds. -/
def all : List Kind :=
  [unknown, endOfInput, text, symbol, number, string] ++ Delimiter.all.map delimiter
    ++ Operator.all.map operator

/-- The name of the kind in tokens and events. -/
def name : Kind → String
  | unknown => "None"
  | endOfInput => "EndOfFile"
  | text => "Text"
  | symbol => "Symbol"
  | number => "Number"
  | string => "String"
  | delimiter d => d.name
  | operator o => o.name

/-- The kind with the given name, if any. -/
def ofName? (s : String) : Option Kind :=
  all.find? (·.name = s)

/-- The kind in the words of a message. -/
def describe : Kind → String
  | unknown => "unknown character"
  | endOfInput => "<eof>"
  | text => "raw text"
  | symbol => "symbol"
  | number => "number"
  | string => "string"
  | delimiter d => d.describe
  | operator o => "`" ++ o.spelling ++ "`"

/-- Whether the kind is one of the configured block delimiters. -/
def isDelimiter : Kind → Bool
  | delimiter _ => true
  | _ => false

/-- The fixed spelling of an operator. -/
def spelling? : Kind → Option String
  | operator o => some o.spelling
  | _ => none

@[simp]
theorem ofName?_name (k : Kind) :
  ofName? k.name = some k
  := by
  cases k with
  | delimiter d => cases d <;> decide
  | operator o => cases o <;> decide
  | _ => decide

end Kind

/-! ### Tokens -/

namespace Token

/-- The token of kind `k` without a payload. -/
def empty (k : Kind) : Token :=
  ⟨k, ""⟩

/-- The token at the end of the input. -/
def endOfInput : Token :=
  empty .endOfInput

instance : Inhabited Token := ⟨endOfInput⟩

/-- Whether the token marks the end of the input. -/
def isEndOfInput (t : Token) : Bool :=
  t.kind = .endOfInput

/-- The token in a message: the name of its kind, with the payload in parentheses where
the kind has one, in quotes for a string. -/
def describe (t : Token) : String :=
  match t.kind with
  | .text | .symbol | .number | .unknown => t.kind.name ++ "(" ++ t.text ++ ")"
  | .string => t.kind.name ++ "(" ++ Text.quote t.text ++ ")"
  | _ => t.kind.name

end Token

end TemplateLexer
