import TemplateLexer.Cursor.Scan
import TemplateLexer.Error

/-!
# Lexemes of block code

Between the delimiters of a block a template holds expressions: numbers, symbols, quoted
strings and operators, with blanks in between.  Each of these is the longest run of
characters that a step function scans, and `Cursor.nextLexeme` skips blanks and scans the
one that the next character starts.

A character that starts no token is left where it is.  So is one that spells an operator
only when it is doubled and stands alone, unless the input ends after it.
-/

namespace TemplateLexer

namespace Lexeme

/-! ### Blanks -/

/-- Whether `c` separates tokens. -/
def isBlank (c : Char) : Bool :=
  c = ' ' || c = '\t' || c = '\r' || c = '\n'

/-- Blanks are skipped. -/
def blank (_ : Unit) (c : Char) : Verdict Unit :=
  if isBlank c then .take () else .leave ()

/-! ### Operators -/

/-- One character is taken, and a second one where the two spell an operator. -/
def operator (cs : List Char) (c : Char) : Verdict (List Char) :=
  if cs.isEmpty then .take [c]
  else if (Operator.ofChars? (cs ++ [c])).isSome then .finish (cs ++ [c])
  else .leave cs

/-! ### Numbers -/

/-- The part of a number read so far. -/
structure Number where
  text : String
  /-- Whether the text has a decimal point. -/
  hasPoint : Bool
  deriving DecidableEq, Repr

/-- The number before its first digit. -/
def Number.start : Number :=
  ⟨"", false⟩

/-- A number is made of digits with at most one point among them. -/
def number (s : Number) (c : Char) : Verdict Number :=
  if c.isDigit then .take { s with text := s.text.push c }
  else if c = '.' && !s.hasPoint then .take ⟨s.text.push c, true⟩
  else .leave s

/-! ### Symbols -/

/-- Whether a symbol can start with `c`. -/
def startsSymbol (c : Char) : Bool :=
  c.isAlpha || c = '_'

/-- A symbol is made of ASCII letters, digits and underscores. -/
def symbol (text : String) (c : Char) : Verdict String :=
  if c.isAlphanum || c = '_' then .take (text.push c) else .leave text

/-! ### Strings -/

/-- Whether `c` opens a quoted string, and closes one that it opened. -/
def isQuote (c : Char) : Bool :=
  c = '\x27' || c = '\x22'

/-- Where in a quoted string the scan is. -/
inductive Quoted.Place where
  /-- Before the opening quote. -/
  | opening
  /-- Between the quotes. -/
  | inside
  /-- After an escape character. -/
  | escaping
  /-- After the closing quote. -/
  | closed
  deriving DecidableEq, Repr

/-- The part of a quoted string read so far, without its quotes and escapes. -/
structure Quoted where
  text : String
  place : Quoted.Place
  deriving DecidableEq, Repr

/-- The string before its opening quote. -/
def Quoted.start : Quoted :=
  ⟨"", .opening⟩

/-- A string ends at the first quote that no escape precedes; the character after an
escape is taken literally.  A quote that is also the escape character closes the string. -/
def quoted (escape quote : Char) (s : Quoted) (c : Char) : Verdict Quoted :=
  match s.place with
  | .opening => .take { s with place := .inside }
  | .inside =>
    if c = quote then .finish { s with place := .closed }
    else if c = escape then .take { s with place := .escaping }
    else .take { s with text := s.text.push c }
  | .escaping => .take ⟨s.text.push c, .inside⟩
  | .closed => .leave s

end Lexeme

/-! ### The next lexeme -/

namespace Cursor

/-- The operator that starts with the character `c` under the cursor. -/
def operator (cursor : Cursor) (c : Char) : Except Error Token × Cursor :=
  match cursor.scan Lexeme.operator [] with
  | (.error e, cursor) => (.error (.io e), cursor)
  | (.ok cs, cursor) =>
    match Operator.ofChars? cs with
    | some o => (.ok (.empty (.operator o)), cursor)
    | none => (.ok ⟨.unknown, String.singleton c⟩, cursor.handBack c)

/-- The number from the cursor on. -/
def number (cursor : Cursor) : Except Error Token × Cursor :=
  match cursor.scan Lexeme.number .start with
  | (.error e, cursor) => (.error (.io e), cursor)
  | (.ok s, cursor) => (.ok ⟨.number, s.text⟩, cursor)

/-- The symbol from the cursor on. -/
def symbol (cursor : Cursor) : Except Error Token × Cursor :=
  match cursor.scan Lexeme.symbol "" with
  | (.error e, cursor) => (.error (.io e), cursor)
  | (.ok text, cursor) => (.ok ⟨.symbol, text⟩, cursor)

/-- The quoted string that the character `quote` under the cursor opens. -/
def quoted (cursor : Cursor) (escape quote : Char) : Except Error Token × Cursor :=
  match cursor.scan (Lexeme.quoted escape quote) .start with
  | (.error e, cursor) => (.error (.io e), cursor)
  | (.ok s, cursor) =>
    if s.place = .closed then (.ok ⟨.string, s.text⟩, cursor)
    else (.error (.unterminatedString cursor.position), cursor)

/-- The token of block code from the cursor on, where no blank stands under it. -/
def lexeme (cursor : Cursor) (escape : Char) : Except Error Token × Cursor :=
  match cursor.look with
  | .ended => (.ok .endOfInput, cursor)
  | .on c _ =>
    if Operator.startsWith c then cursor.operator c
    else if c.isDigit then cursor.number
    else if Lexeme.startsSymbol c then cursor.symbol
    else if Lexeme.isQuote c then cursor.quoted escape c
    else (.ok ⟨.unknown, String.singleton c⟩, cursor)

/-- The next token of block code. -/
def nextLexeme (cursor : Cursor) (escape : Char) : Except Error Token × Cursor :=
  match cursor.scan Lexeme.blank () with
  | (.error e, cursor) => (.error (.io e), cursor)
  | (.ok (), cursor) => cursor.lexeme escape

theorem nextLexeme_of_ended {cursor : Cursor} (h : cursor.look = .ended) (escape : Char) :
  cursor.nextLexeme escape = (.ok .endOfInput, cursor)
  := by
  rw [nextLexeme, scan_of_ended _ _ h]
  dsimp only
  rw [lexeme, h]

end Cursor

end TemplateLexer
