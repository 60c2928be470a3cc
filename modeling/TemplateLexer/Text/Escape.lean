import TemplateLexer.Text.Unprintable

/-!
# Escaped text

A `Style` says how a character is shown where not every character may stand as it is: as
a backslash and one character, as itself, or as its code point in hexadecimal.  The
styles are `quotedText` for text between double quotes, `quotedChar` for a character
between single quotes, and `ascii` for output that holds printable ASCII characters only.
-/

namespace TemplateLexer.Text

/-- A way of showing characters. -/
structure Style where
  /-- The characters shown as a backslash and one character, with that character. -/
  short : List (Char × Char)
  /-- The other characters that are shown as they are. -/
  plain : Char → Bool

/-- The code point of a character in lowercase hexadecimal, without padding. -/
def codePoint (c : Char) : List Char :=
  ['\\', 'u', '{'] ++ Nat.toDigits 16 c.toNat ++ ['}']

/-- The characters that show `c`. -/
def Style.showChar (style : Style) (c : Char) : List Char :=
  match style.short.lookup c with
  | some short => ['\\', short]
  | none => if style.plain c then [c] else codePoint c

/-- The text that shows `s`, character by character. -/
def Style.showText (style : Style) (s : String) : String :=
  String.ofList (s.toList.flatMap style.showChar)

/-- Text between double quotes: controls with a letter of their own, the backslash and
the double quote are short, all else that is printable is plain. -/
def quotedText : Style where
  short := [('\x00', '0'), ('\t', 't'), ('\r', 'r'), ('\n', 'n'), ('\\', '\\'), ('\x22', '\x22')]
  plain c := !isUnprintable c

/-- A character between single quotes: as `quotedText`, with the two quotes exchanged. -/
def quotedChar : Style where
  short := [('\x00', '0'), ('\t', 't'), ('\r', 'r'), ('\n', 'n'), ('\\', '\\'), ('\x27', '\x27')]
  plain c := !isUnprintable c

/-- Printable ASCII characters are plain but for the backslash and both quotes. -/
def ascii : Style where
  short := [('\t', 't'), ('\r', 'r'), ('\n', 'n'), ('\\', '\\'), ('\x22', '\x22'),
    ('\x27', '\x27')]
  plain c := '\x20' ≤ c && c ≤ '\x7e'

/-- `s` between double quotes. -/
def quote (s : String) : String :=
  "\"" ++ quotedText.showText s ++ "\""

/-- `c` between single quotes. -/
def quoteChar (c : Char) : String :=
  "'" ++ String.ofList (quotedChar.showChar c) ++ "'"

end TemplateLexer.Text
