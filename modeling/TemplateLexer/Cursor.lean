import TemplateLexer.Position
import TemplateLexer.Source

/-!
# Cursors

A `Cursor` stands on one character of its source, or at the end of the input.  `advance`
moves to the next character; `handBack` puts the cursor back on a character it has just
left.  The position counts every character when the source delivers it, so that a
character handed back is not counted twice.

`remaining` is the input from the cursor on, as far as the source delivers it without an
end or a failure in between.
-/

namespace TemplateLexer

/-- What a cursor stands on. -/
inductive Lookahead where
  /-- The end of the input. -/
  | ended
  /-- A character, followed by one that was handed back before, if any. -/
  | on (current : Char) (handedBack : Option Char)
  deriving DecidableEq, Repr

/-- A place in the input. -/
structure Cursor where
  look : Lookahead
  /-- What lies beyond the lookahead. -/
  source : Source
  /-- The position after all characters delivered so far. -/
  position : Position
  deriving DecidableEq, Repr

namespace Cursor

/-- The cursor without an input. -/
def unbound : Cursor :=
  ⟨.ended, [], .start⟩

/-- The cursor before the first character of `source`.  It stands on a NUL that is no part
of the input, until it advances. -/
def before (source : Source) : Cursor :=
  ⟨.on '\x00' none, source, .start⟩

/-- Whether the cursor stands at the end of the input. -/
def isEnded (cursor : Cursor) : Bool :=
  cursor.look = .ended

/-- The cursor on the next character or at the end of the input.  At the end it stays
there without asking the source, and when the source fails it stays where it is. -/
def advance (cursor : Cursor) : Except IoError Unit × Cursor :=
  match cursor.look with
  | .ended => (.ok (), cursor)
  | .on _ (some c) => (.ok (), { cursor with look := .on c none })
  | .on _ none =>
    match cursor.source.read with
    | (.char c, source) => (.ok (), ⟨.on c none, source, cursor.position.advance c⟩)
    | (.ended, source) => (.ok (), { cursor with look := .ended, source })
    | (.failed e, source) => (.error e, { cursor with source })

/-- The cursor back on the character `c`, which it has just left; it stays at the end of the
input. -/
def handBack (cursor : Cursor) (c : Char) : Cursor :=
  match cursor.look with
  | .ended => cursor
  | .on d _ => { cursor with look := .on c (some d) }

/-- The input from the cursor on. -/
def remaining (cursor : Cursor) : List Char :=
  match cursor.look with
  | .ended => []
  | .on c handedBack => c :: handedBack.toList ++ cursor.source.leading

theorem remaining_of_look {cursor : Cursor} {c : Char} {handedBack : Option Char}
    (h : cursor.look = .on c handedBack) :
  cursor.remaining = c :: cursor.remaining.tail
  := by
  simp [remaining, h]

/-- Over a source that does not fail a cursor always advances, by the first of the remaining
characters. -/
theorem advance_of_isErrorFree {cursor : Cursor} (h : cursor.source.IsErrorFree) :
  cursor.advance.1 = .ok () ∧ cursor.advance.2.source.IsErrorFree
    ∧ cursor.advance.2.remaining = cursor.remaining.tail
  := by
  obtain ⟨look, source, position⟩ := cursor
  have htail {d : Delivery} {ds : Source} (h : Source.IsErrorFree (d :: ds)) :
      ds.IsErrorFree :=
    fun e he => h e (List.mem_cons_of_mem d he)
  match look, source with
  | .ended, _ => exact ⟨rfl, h, rfl⟩
  | .on _ (some _), _ => exact ⟨rfl, h, rfl⟩
  | .on _ none, [] => exact ⟨rfl, h, rfl⟩
  | .on _ none, .char _ :: _ => exact ⟨rfl, htail h, rfl⟩
  | .on _ none, .ended :: _ => exact ⟨rfl, htail h, rfl⟩
  | .on _ none, .failed e :: _ => exact absurd List.mem_cons_self (h e)

/-- The steps that the cursor can still make, counted. -/
def size (cursor : Cursor) : Nat :=
  match cursor.look with
  | .ended => 0
  | .on _ handedBack => 1 + handedBack.toList.length + cursor.source.length

/-- A cursor that is not at the end comes closer to it, even when the source fails. -/
theorem size_advance_lt {cursor : Cursor} (h : cursor.look ≠ .ended) :
  cursor.advance.2.size < cursor.size
  := by
  obtain ⟨look, source, position⟩ := cursor
  match look, source with
  | .ended, _ => contradiction
  | .on _ (some _), _ => simp only [advance, size, Option.toList, List.length]; omega
  | .on _ none, [] => simp only [advance, size, Source.read]; omega
  | .on _ none, .char _ :: _ => simp only [advance, size, Source.read, List.length]; omega
  | .on _ none, .ended :: _ => simp only [advance, size, Source.read]; omega
  | .on _ none, .failed _ :: _ => simp only [advance, size, Source.read, List.length]; omega

theorem size_lt_of_advance_eq {cursor next : Cursor} {result : Except IoError Unit}
    (h : cursor.look ≠ .ended) (hadvance : cursor.advance = (result, next)) :
  next.size < cursor.size
  := by
  have := size_advance_lt h
  rwa [hadvance] at this

end Cursor

end TemplateLexer
