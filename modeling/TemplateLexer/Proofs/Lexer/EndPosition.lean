import TemplateLexer.Proofs.Cursor.Simulation
import TemplateLexer.Proofs.Lexer.Session

/-!
# The position at the end of the input

Whatever a lexer is asked for, all that it does to its cursor is to advance it and to hand
characters back.  What these two keep is therefore true after any requests (`Lexer.kept_after`).
Over an input that does not fail this is so for the position in which the input will end
(`Cursor.isKept_endsAt`).
-/

namespace TemplateLexer

namespace Cursor

/-! ### What cursors keep -/

/-- The property `P` is kept when a cursor advances and when a character is handed back. -/
structure IsKept (P : Cursor → Prop) : Prop where
  advance : ∀ {cursor}, P cursor → P cursor.advance.2
  handBack : ∀ {cursor} (c : Char), P cursor → P (cursor.handBack c)

namespace IsKept

variable {P : Cursor → Prop} (h : IsKept P) {cursor next : Cursor} (hcursor : P cursor)
include h hcursor

theorem of_advance_eq {result : Except IoError Unit} (hnext : cursor.advance = (result, next)) :
  P next
  := by
  have hadvance := h.advance hcursor
  rwa [hnext] at hadvance

omit hcursor in
/-- A cursor of which `P` holds is read like itself, and `P` holds of it all the time. -/
theorem isSimulation :
  IsSimulation (fun cursor cursor' => cursor' = cursor ∧ P cursor) fun _ cursor cursor' =>
    cursor' = cursor ∧ P cursor
  := by
  constructor
  · rintro _ cursor ⟨rfl, -⟩
    rfl
  · rintro _ cursor ⟨rfl, hcursor⟩
    rcases hnext : cursor.advance with ⟨e | _, next⟩
    · exact .failed rfl rfl ⟨rfl, h.of_advance_eq hcursor hnext⟩
    · exact .done rfl rfl ⟨rfl, h.of_advance_eq hcursor hnext⟩
  · rintro _ cursor c ⟨rfl, hcursor⟩
    exact ⟨rfl, h.handBack c hcursor⟩

theorem nextLexeme (escape : Char) :
  P (cursor.nextLexeme escape).2
  := by
  rcases h.isSimulation.nextLexeme ⟨rfl, hcursor⟩ escape with
    ⟨hnext, -, -, hP⟩ | ⟨_, _, hnext, -, -, hP⟩ | ⟨hnext, -, -, hP⟩
  all_goals
    rw [hnext]
    exact hP

theorem nextChunk {κ : Type} (m : Matcher κ) (escape : Char) (maxSize : Nat) :
  P (cursor.nextChunk m escape maxSize).2
  := by
  rcases h.isSimulation.nextChunk ⟨rfl, hcursor⟩ m escape maxSize with
    ⟨hnext, -, -, hP⟩ | ⟨hnext, -, -, hP⟩
  all_goals
    rw [hnext]
    exact hP

end IsKept

end Cursor

/-! ### Requests -/

namespace Lexer

variable {P : Cursor → Prop} (h : Cursor.IsKept P) {l : Lexer} (hcursor : P l.cursor)
include h hcursor

theorem kept_nextRaw :
  P l.nextRaw.2.cursor
  := by
  rcases l.cursor_nextRaw with hnext | hnext | ⟨m, hnext⟩
  · rw [hnext]
    exact hcursor
  · rw [hnext]
    apply h.advance hcursor
  · rw [hnext]
    apply h.nextChunk hcursor

theorem kept_next (mode : Mode) :
  P (l.next mode).2.cursor
  := by
  rw [cursor_next]
  cases mode with
  | block => apply h.nextLexeme hcursor
  | raw => apply kept_nextRaw h hcursor

/-- What advancing and handing back keep is true after any requests. -/
theorem kept_after (modes : List Mode) :
  P (l.after modes).cursor
  := after_induction (P := fun l => P l.cursor) (fun _ mode h' => kept_next h h' mode) hcursor modes

end Lexer

/-! ### The end of the input -/

namespace Cursor

/-- The position of the cursor when it will have reached the end of the input. -/
def endPosition (cursor : Cursor) : Position :=
  match cursor.look with
  | .ended => cursor.position
  | .on _ _ => cursor.position.advanceAll cursor.source.leading

/-- The input does not fail, and will end in the position `p`. -/
structure EndsAt (p : Position) (cursor : Cursor) : Prop where
  isErrorFree : cursor.source.IsErrorFree
  endPosition_eq : cursor.endPosition = p

theorem endPosition_advance {cursor : Cursor} (h : cursor.source.IsErrorFree) :
  cursor.advance.2.endPosition = cursor.endPosition
  := by
  obtain ⟨look, source, position⟩ := cursor
  match look, source with
  | .ended, _ => rfl
  | .on _ (some _), _ => rfl
  | .on _ none, [] => rfl
  | .on _ none, .char _ :: _ => rfl
  | .on _ none, .ended :: _ => rfl
  | .on _ none, .failed e :: _ => exact absurd List.mem_cons_self (h e)

theorem endPosition_handBack (cursor : Cursor) (c : Char) :
  (cursor.handBack c).endPosition = cursor.endPosition
  := by
  obtain ⟨look, source, position⟩ := cursor
  cases look <;> rfl

theorem isKept_endsAt (p : Position) :
  IsKept (EndsAt p)
  := by
  constructor
  · intro cursor h
    constructor
    · apply (advance_of_isErrorFree h.isErrorFree).2.1
    · rw [endPosition_advance h.isErrorFree, h.endPosition_eq]
  · intro cursor c h
    constructor
    · rw [source_handBack]
      apply h.isErrorFree
    · rw [endPosition_handBack, h.endPosition_eq]

/-- Where nothing remains of the input it has ended. -/
theorem EndsAt.position_eq {p : Position} {cursor : Cursor} (h : cursor.EndsAt p)
    (hnil : cursor.remaining = []) :
  cursor.position = p
  := by
  have hend := h.endPosition_eq
  rw [endPosition] at hend
  rw [remaining] at hnil
  cases hlook : cursor.look with
  | ended =>
    rw [hlook] at hend
    exact hend
  | on c handedBack =>
    rw [hlook] at hnil
    cases hnil

end Cursor

end TemplateLexer
