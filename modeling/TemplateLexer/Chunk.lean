import TemplateLexer.Cursor.Scan
import TemplateLexer.Matcher
import TemplateLexer.Token

/-!
# Chunks of raw text

Outside of blocks a template holds raw text up to the next delimiter.  A `Chunk` is the
part of it that one request reads: `Cursor.nextChunk` scans until a delimiter is complete,
until the text is longer than allowed and no delimiter is in progress, or to the end of
the input.

An escape character takes the character after it literally: the partial match before it
becomes text, and so does that character.  An escape character at the very end of the
input is a character like any other.
-/

namespace TemplateLexer

variable {κ : Type}

/-- Raw text read so far, and the delimiter that may follow it. -/
structure Chunk (κ : Type) where
  /-- The text that belongs to no delimiter. -/
  text : String
  /-- The node of the delimiter in progress. -/
  node : Nat
  /-- Whether the last character read is an escape character that has not taken its
  character yet. -/
  escaping : Bool
  /-- The tag of the delimiter that ends the chunk. -/
  found : Option κ
  deriving DecidableEq, Repr

namespace Chunk

/-- The chunk before its first character. -/
def start : Chunk κ :=
  ⟨"", Trie.root, false, none⟩

/-- The chunk with the character `c` read as it stands. -/
def plain (m : Matcher κ) (chunk : Chunk κ) (c : Char) : Chunk κ :=
  let step := m.move chunk.node c
  ⟨chunk.text ++ String.ofList step.2, step.1, false, m.trie.tag? step.1⟩

/-- The chunk with the character `c` taken literally after an escape character. -/
def literal (m : Matcher κ) (chunk : Chunk κ) (c : Char) : Chunk κ :=
  ⟨(chunk.text ++ String.ofList (m.held chunk.node)).push c, Trie.root, false, none⟩

/-- Whether the chunk is to be returned for its size: its text has more than `maxSize`
bytes and no delimiter is in progress. -/
def isFull (maxSize : Nat) (chunk : Chunk κ) : Bool :=
  maxSize < chunk.text.utf8ByteSize && chunk.node = Trie.root

/-- A chunk goes on until a delimiter is found or it is full; after an escaped character
it always goes on. -/
def step (m : Matcher κ) (escape : Char) (maxSize : Nat) (chunk : Chunk κ) (c : Char) :
    Verdict (Chunk κ) :=
  if chunk.escaping then .take (chunk.literal m c)
  else if c = escape then .take { chunk with escaping := true }
  else
    let chunk := chunk.plain m c
    if chunk.found.isSome || chunk.isFull maxSize then .finish chunk else .take chunk

/-- The chunk after its last character: an escape character with nothing to take is read as
it stands, and a delimiter in progress becomes text unless one was found. -/
def close (m : Matcher κ) (escape : Char) (chunk : Chunk κ) : Chunk κ :=
  let chunk := if chunk.escaping then chunk.plain m escape else chunk
  if chunk.found.isSome then chunk
  else { chunk with text := chunk.text ++ String.ofList (m.held chunk.node), node := Trie.root }

end Chunk

/-- The chunk of raw text from the cursor on, and the cursor after it. -/
def Cursor.nextChunk (cursor : Cursor) (m : Matcher κ) (escape : Char) (maxSize : Nat) :
    Except IoError (Chunk κ) × Cursor :=
  match cursor.scan (Chunk.step m escape maxSize) .start with
  | (.error e, cursor) => (.error e, cursor)
  | (.ok chunk, cursor) => (.ok (chunk.close m escape), cursor)

theorem Cursor.nextChunk_of_ended {cursor : Cursor} (h : cursor.look = .ended) (m : Matcher κ)
    (escape : Char) (maxSize : Nat) :
  cursor.nextChunk m escape maxSize = (.ok (Chunk.start.close m escape), cursor)
  := by
  rw [nextChunk, scan_of_ended _ _ h]

/-! ### Chunks as tokens -/

namespace Chunk

/-- The token that a chunk of raw text amounts to: its text, or the delimiter or the end
that follows at once. -/
def token (chunk : Chunk Kind) : Token :=
  if chunk.text.isEmpty then .empty (chunk.found.getD .endOfInput) else ⟨.text, chunk.text⟩

/-- The delimiter that is still to be returned after the token of the chunk. -/
def pending (chunk : Chunk Kind) : Option Kind :=
  if chunk.text.isEmpty then none else chunk.found

end Chunk

end TemplateLexer
