import TemplateLexer.Token

/-!
# Settings of a lexer

`Config` holds the three block delimiters, the escape character and the size above which
raw text is split.
-/

namespace TemplateLexer

/-- The settings of a lexer. -/
structure Config where
  /-- The delimiter that opens a block. -/
  blockBegin : String := "\x7b"
  /-- The delimiter between two parts of a block. -/
  blockContinue : String := "|"
  /-- The delimiter that closes a block. -/
  blockEnd : String := "\x7d"
  /-- The character that takes the character after it literally. -/
  escape : Char := '\\'
  /-- The size in bytes above which raw text is split into several tokens. -/
  maxTextChunk : Nat := 42000
  deriving DecidableEq, Repr

namespace Config

/-- The settings that hold where none are given. -/
def default : Config := {}

instance : Inhabited Config := ⟨default⟩

/-- The value of a delimiter option. -/
def delimiter (config : Config) : Delimiter → String
  | .opening => config.blockBegin
  | .continuation => config.blockContinue
  | .closing => config.blockEnd

end Config

end TemplateLexer
