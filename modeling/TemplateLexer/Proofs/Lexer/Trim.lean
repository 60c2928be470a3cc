import TemplateLexer.Proofs.Cursor.Simulation

/-!
# Trimmed sources

A source that has delivered everything has ended, so that it makes no difference whether it
still holds some ends.  `Source.trim` takes these away.  Trimming commutes with everything that a
cursor and a lexer do, up to the runs of a lexer (`Lexer.run_trim`): all results and positions are
those of the trimmed source.
-/

namespace TemplateLexer

/-! ### Sources -/

namespace Source

/-- The source without the ends after its last character or failure. -/
def trim : Source → Source
  | [] => []
  | d :: source => if d = .ended ∧ trim source = [] then [] else d :: trim source

theorem trim_cons_of_ne {d : Delivery} (h : d ≠ .ended) (source : Source) :
  trim (d :: source) = d :: trim source
  := by
  rw [trim, if_neg]
  simp [h]

theorem read_trim (source : Source) :
  source.trim.read = source.read.map id trim
  := by
  cases source with
  | nil => rfl
  | cons d source =>
    rw [trim]
    split
    case isTrue h =>
      rw [h.1, read, read, Prod.map, h.2]
      rfl
    case isFalse => rfl

/-- Trimming changes no answer. -/
theorem readMany_trim (n : Nat) (source : Source) :
  source.trim.readMany n = (source.readMany n).map id trim
  := by
  induction n generalizing source with
  | zero => rfl
  | succ n ih =>
    rw [readMany, read_trim]
    dsimp only [Prod.map]
    rw [ih]
    rfl

end Source

/-! ### Cursors -/

namespace Cursor

/-- The cursor over the trimmed source. -/
def trim (cursor : Cursor) : Cursor :=
  { cursor with source := cursor.source.trim }

theorem look_trim (cursor : Cursor) :
  cursor.trim.look = cursor.look
  := rfl

theorem advance_trim (cursor : Cursor) :
  cursor.trim.advance = cursor.advance.map id trim
  := by
  obtain ⟨look, source, position⟩ := cursor
  match look with
  | .ended => rfl
  | .on _ (some _) => rfl
  | .on _ none =>
    rw [advance, advance, trim]
    dsimp only
    rw [Source.read_trim]
    rcases source.read with ⟨_ | _ | _, _⟩ <;> rfl

theorem handBack_trim (cursor : Cursor) (c : Char) :
  cursor.trim.handBack c = (cursor.handBack c).trim
  := by
  obtain ⟨look, source, position⟩ := cursor
  cases look <;> rfl

/-- A cursor and the one over the trimmed source are read alike. -/
theorem isSimulation_trim :
  IsSimulation (fun cursor cursor' => cursor' = cursor.trim) fun _ cursor cursor' =>
    cursor' = cursor.trim
  := by
  constructor
  · rintro cursor _ rfl
    apply look_trim
  · rintro cursor _ rfl
    rw [advance_trim]
    rcases cursor.advance with ⟨e | _, next⟩
    · exact .failed rfl rfl rfl
    · exact .done rfl rfl rfl
  · rintro cursor _ c rfl
    apply handBack_trim

/-- The next token of block code does not depend on ends that are still held. -/
theorem nextLexeme_trim (cursor : Cursor) (escape : Char) :
  cursor.trim.nextLexeme escape = (cursor.nextLexeme escape).map id trim
  := by
  rcases isSimulation_trim.nextLexeme (Eq.refl cursor.trim) escape with
    ⟨hnext, hnext', rfl⟩ | ⟨_, _, hnext, hnext', rfl⟩ | ⟨hnext, hnext', rfl⟩
  all_goals
    rw [hnext, hnext']
    rfl

/-- Nor does the next chunk of raw text. -/
theorem nextChunk_trim {κ : Type} (m : Matcher κ) (escape : Char) (maxSize : Nat)
    (cursor : Cursor) :
  cursor.trim.nextChunk m escape maxSize = (cursor.nextChunk m escape maxSize).map id trim
  := by
  rcases isSimulation_trim.nextChunk (Eq.refl cursor.trim) m escape maxSize with
    ⟨hnext, hnext', rfl⟩ | ⟨hnext, hnext', rfl⟩
  all_goals
    rw [hnext, hnext']
    rfl

end Cursor

/-! ### Lexers -/

namespace Lexer

/-- The lexer over the trimmed source. -/
def trim (l : Lexer) : Lexer :=
  { l with cursor := l.cursor.trim }

theorem reset_trim (l : Lexer) (source : Source) :
  l.reset source.trim = (l.reset source).map id trim
  := by
  have hadvance : (Cursor.before source.trim).advance = _ :=
    Cursor.advance_trim (.before source)
  rw [reset, reset, hadvance]
  rcases (Cursor.before source).advance with ⟨_ | _, _⟩ <;> rfl

theorem nextBlock_trim (l : Lexer) :
  l.trim.nextBlock = l.nextBlock.map id trim
  := by
  rw [nextBlock, trim, Cursor.nextLexeme_trim]
  rfl

theorem nextRaw_trim (l : Lexer) :
  l.trim.nextRaw = l.nextRaw.map id trim
  := by
  rw [nextRaw, nextRaw, trim]
  dsimp only
  cases l.pending with
  | some k => rfl
  | none =>
    cases l.automaton.matcher? with
    | none =>
      dsimp only
      rw [Cursor.advance_trim]
      rcases l.cursor.advance with ⟨_ | _, _⟩ <;> rfl
    | some m =>
      dsimp only
      rw [Cursor.nextChunk_trim]
      rcases l.cursor.nextChunk m l.escape l.maxTextChunk with ⟨_ | _, _⟩ <;> rfl

theorem next_trim (l : Lexer) (mode : Mode) :
  l.trim.next mode = (l.next mode).map id trim
  := by
  have hproduce : l.trim.produce mode = (l.produce mode).map id trim := by
    cases mode with
    | block => apply nextBlock_trim
    | raw => apply nextRaw_trim
  rw [next, next, hproduce]
  rcases l.produce mode with ⟨_ | _, _⟩ <;> rfl

/-- Trimming changes no result of any requests. -/
theorem run_trim (l : Lexer) (modes : List Mode) :
  l.trim.run modes = (l.run modes).map (Prod.map id trim)
  := by
  induction modes generalizing l with
  | nil => rfl
  | cons mode modes ih =>
    rw [run, next_trim]
    apply congrArg _ (ih (l.next mode).2)

end Lexer

end TemplateLexer
