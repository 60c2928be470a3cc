import TemplateLexer.Proofs.Block.Contents
import TemplateLexer.Proofs.Lexer.Remaining

/-!
# Sessions

A `Session` is a lexer that is asked for anything in any order: it is bound to a source and asked
for tokens, goes on after errors, and is bound to the next source.  Every request takes characters
from the cursor (`Lexer.exists_takes_next`), so that all that the lexer has taken since it was bound
to a source is what the source has delivered (`Session.exists_takes_after`).  In particular the
position counts exactly these characters (`Session.position_after`).
-/

namespace TemplateLexer

/-- The line counts the newlines, and the column the characters after the last one. -/
theorem Position.advanceAll_start (cs : List Char) :
  start.advanceAll cs = ⟨1 + cs.count '\n', 1 + (cs.rtakeWhile (· != '\n')).length⟩
  := by
  induction cs using List.reverseRecOn with
  | nil => rfl
  | append_singleton cs c ih =>
    rw [advanceAll_append, ih, List.count_append, List.rtakeWhile_concat]
    by_cases hc : c = '\n'
    · simp [advanceAll, advance, hc, Nat.add_assoc]
    · simp [advanceAll, advance, hc, Nat.add_assoc]

/-! ### Requests -/

namespace Lexer

variable {l : Lexer}

theorem exists_takes_nextRaw (l : Lexer) :
  ∃ cs, l.cursor.Takes cs l.nextRaw.2.cursor
  := by
  rcases l.cursor_nextRaw with h | h | ⟨m, h⟩
  · rw [h]
    exact ⟨[], .refl l.cursor⟩
  · rw [h]
    apply Cursor.exists_takes_advance
  · obtain ⟨_ | chunk, next, cs, hscan, htakes⟩ :=
      Cursor.exists_takes_scan (Chunk.step m l.escape l.maxTextChunk) .start l.cursor
    all_goals
      rw [h, Cursor.nextChunk, hscan]
      exact ⟨cs, htakes⟩

/-- A request takes characters from the cursor, whether or not it fails. -/
theorem exists_takes_next (l : Lexer) (mode : Mode) :
  ∃ cs, l.cursor.Takes cs (l.next mode).2.cursor
  := by
  rw [cursor_next]
  cases mode with
  | block =>
    obtain ⟨cs, hcuts⟩ := l.cursor.exists_cuts_nextLexeme default l.escape
    exact ⟨cs, hcuts.takes⟩
  | raw => apply exists_takes_nextRaw

/-! ### What does not move a lexer -/

/-- At the end of the input a request leaves the cursor there. -/
theorem cursor_next_of_ended (h : l.cursor.look = .ended) (mode : Mode) :
  (l.next mode).2.cursor = l.cursor
  := by
  cases mode with
  | block => rw [cursor_next_block, Cursor.nextLexeme_of_ended h]
  | raw =>
    rw [cursor_next, produce]
    rcases l.cursor_nextRaw with hcursor | hcursor | ⟨m, hcursor⟩
    · exact hcursor
    · rw [hcursor, Cursor.advance, h]
    · rw [hcursor, Cursor.nextChunk_of_ended h]

/-- After an unknown character another request in block mode leaves the cursor where it is. -/
theorem cursor_next_block_of_unknown {text : String}
    (h : (l.next .block).1 = .ok ⟨.unknown, text⟩) :
  ((l.next .block).2.next .block).2.cursor = (l.next .block).2.cursor
  := by
  have hnext : l.cursor.nextLexeme l.escape = (.ok ⟨.unknown, text⟩, (l.next .block).2.cursor) := by
    rw [cursor_next_block, ← h, next_block_fst]
  rcases Cursor.nextLexeme_of_unknown hnext with hend | hagain
  · apply cursor_next_of_ended hend
  · rw [cursor_next_block (l.next .block).2, (sameSettings_next l .block).escape_eq, hagain]

/-- What does not count a character again: the position stays when a character that was handed
back is read again, when the source fails, when an unknown character is returned again or a
pending delimiter is returned, and at the end of the input. -/
structure HoldsPosition (l : Lexer) : Prop where
  handedBack : ∀ c d, l.cursor.look = .on c (some d) → l.cursor.advance.2.position = l.position
  failed : ∀ e, l.cursor.advance.1 = .error e → l.cursor.advance.2.position = l.position
  unknown : ∀ text, (l.next .block).1 = .ok ⟨.unknown, text⟩ →
    ((l.next .block).2.next .block).2.position = (l.next .block).2.position
  pending : ∀ k, l.pending = some k → (l.next .raw).2.position = l.position
  ended : l.cursor.isEnded → ∀ mode, (l.next mode).2.position = l.position

theorem holdsPosition (l : Lexer) :
  l.HoldsPosition
  := by
  constructor
  · intro c d hlook
    rw [Cursor.advance, hlook]
    rfl
  · intro e he
    apply (Cursor.takes_of_advance_eq_error (Prod.ext he rfl)).2
  · intro text hunknown
    apply congrArg Cursor.position (cursor_next_block_of_unknown hunknown)
  · intro k hk
    rw [next_raw_of_pending hk]
    rfl
  · intro hend mode
    apply congrArg Cursor.position (cursor_next_of_ended (of_decide_eq_true hend) mode)

end Lexer

/-! ### Sessions -/

/-- What a lexer is asked for. -/
inductive Request where
  /-- To be bound to a source. -/
  | reset (source : Source)
  /-- The next token in the given mode. -/
  | next (mode : Mode)

/-- A lexer, the source that it was bound to last, and the tokens that it has returned since. -/
structure Session where
  lexer : Lexer
  source : Source
  tokens : List Token

namespace Session

/-- The session of a lexer that has no input yet. -/
def new (l : Lexer) : Session :=
  ⟨l, [], []⟩

/-- The session after a request, whether or not it fails. -/
def answer (s : Session) : Request → Session
  | .reset source => ⟨(s.lexer.reset source).2, source, []⟩
  | .next mode =>
    let step := s.lexer.next mode
    ⟨step.2, s.source, s.tokens ++ step.1.toOption.toList⟩

/-- The session after the given requests, one after another. -/
def after (s : Session) (requests : List Request) : Session :=
  requests.foldl answer s

/-- The characters that the source has delivered since the lexer was bound to it. -/
def delivered (s : Session) : List Char :=
  s.source.delivered s.lexer.cursor.source

/-- What every request keeps is true after any number of them. -/
theorem after_induction {P : Session → Prop} (hanswer : ∀ s r, P s → P (s.answer r)) {s : Session}
    (h : P s) (requests : List Request) :
  P (s.after requests)
  := by
  induction requests generalizing s with
  | nil => exact h
  | cons r requests ih => apply ih (hanswer s r h)

/-- No request changes the settings of the lexer. -/
theorem sameSettings_after (l : Lexer) (requests : List Request) :
  l.SameSettings ((new l).after requests).lexer
  := by
  apply after_induction (P := fun s => l.SameSettings s.lexer)
  · rintro s (source | mode) h
    · apply h.trans (Lexer.sameSettings_reset _ source)
    · apply h.trans (Lexer.sameSettings_next _ mode)
  · exact ⟨rfl, rfl, rfl⟩

/-- A lexer without an input stands like one that is bound to an empty source. -/
theorem advance_before_nil :
  (Cursor.before []).advance.2 = Cursor.unbound
  := rfl

/-- Since a lexer was bound to a source it has taken characters from it. -/
theorem exists_takes_after {l : Lexer} (h : l.cursor = .unbound) (requests : List Request) :
  let s := (new l).after requests
  ∃ cs, (Cursor.before s.source).Takes cs s.lexer.cursor
  := by
  apply after_induction (P := fun s => ∃ cs, (Cursor.before s.source).Takes cs s.lexer.cursor)
  · rintro s (source | mode) ⟨cs, htakes⟩
    · rw [answer, Lexer.cursor_reset]
      apply Cursor.exists_takes_advance
    · obtain ⟨ds, hnext⟩ := s.lexer.exists_takes_next mode
      exact ⟨cs ++ ds, htakes.trans hnext⟩
  · rw [new, h, ← advance_before_nil]
    apply Cursor.exists_takes_advance

/-- Whatever a lexer was asked for, and whether or not it failed, its position counts every
character that its source has delivered, once and in order: the line counts the newlines and the
column the characters after the last one. -/
theorem position_after (automaton : Automaton Kind) (escape : Char) (maxTextChunk : Nat)
    (requests : List Request) :
  let s := (new (.ofAutomaton automaton escape maxTextChunk)).after requests
  s.lexer.cursor.source <:+ s.source
    ∧ s.lexer.position = Position.start.advanceAll s.delivered
    ∧ s.lexer.position
      = ⟨1 + s.delivered.count '\n', 1 + (s.delivered.rtakeWhile (· != '\n')).length⟩
    ∧ s.lexer.HoldsPosition
  := by
  intro s
  obtain ⟨cs, htakes⟩ : ∃ cs, (Cursor.before s.source).Takes cs s.lexer.cursor :=
    exists_takes_after rfl requests
  have hposition : s.lexer.position = Position.start.advanceAll s.delivered := htakes.position_eq
  refine ⟨htakes.suffix, hposition, ?_, s.lexer.holdsPosition⟩
  rw [hposition, Position.advanceAll_start]

end Session

end TemplateLexer
