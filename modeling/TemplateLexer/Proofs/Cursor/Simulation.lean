import TemplateLexer.Lexer

/-!
# Cursors in step

All that a lexer does with a cursor is to look at what it stands on, to advance it and to hand
characters back.  So two cursors that stand on the same, that advance alike and that stay so are
read alike: `Cursor.IsSimulation` says when a relation between cursors ensures this, and
`IsSimulation.nextLexeme` and `IsSimulation.nextChunk` that it does.  When the source fails both
readings fail, and what holds of the cursors then may be another relation.

A relation that holds only of a cursor and itself says what holds of the cursor while it is read.
-/

namespace TemplateLexer

/-! ### Equal results -/

section Alike

variable {σ α : Type}

/-- Both results are the same value, or the same failure; `R` holds of the states after the value,
`Q` of those after the failure. -/
inductive EndsAlike (R : σ → σ → Prop) (Q : IoError → σ → σ → Prop)
    (r r' : Except IoError α × σ) : Prop
  | done {a : α} {next next' : σ} (h : r = (.ok a, next)) (h' : r' = (.ok a, next'))
      (hnext : R next next')
  | failed {e : IoError} {next next' : σ} (h : r = (.error e, next)) (h' : r' = (.error e, next'))
      (hnext : Q e next next')

/-- Both results are the same token, or say that a quoted string is not closed before the position
of the state, or are the same failure; `R` holds of the states, but `Q` after the failure. -/
inductive ReturnsAlike (position : σ → Position) (R : σ → σ → Prop)
    (Q : IoError → σ → σ → Prop) (r r' : Except Error Token × σ) : Prop
  | token {t : Token} {next next' : σ} (h : r = (.ok t, next)) (h' : r' = (.ok t, next'))
      (hnext : R next next')
  | unterminated (next next' : σ) (h : r = (.error (.unterminatedString (position next)), next))
      (h' : r' = (.error (.unterminatedString (position next')), next')) (hnext : R next next')
  | failed {e : IoError} {next next' : σ} (h : r = (.error (.io e), next))
      (h' : r' = (.error (.io e), next')) (hnext : Q e next next')

end Alike

namespace Cursor

/-! ### Simulations -/

/-- Cursors of which `R` holds stand on the same, and `R` is kept when both advance and when a
character is handed back to both; where both fail to advance `Q` holds. -/
structure IsSimulation (R : Cursor → Cursor → Prop) (Q : IoError → Cursor → Cursor → Prop) :
    Prop where
  look_eq : ∀ {cursor cursor'}, R cursor cursor' → cursor'.look = cursor.look
  advance : ∀ {cursor cursor'}, R cursor cursor' → EndsAlike R Q cursor.advance cursor'.advance
  handBack : ∀ {cursor cursor'} (c : Char), R cursor cursor' →
    R (cursor.handBack c) (cursor'.handBack c)

namespace IsSimulation

variable {R : Cursor → Cursor → Prop} {Q : IoError → Cursor → Cursor → Prop}
  (h : IsSimulation R Q) {cursor cursor' : Cursor} (hcursor : R cursor cursor')
include h hcursor

theorem advance_of_eq_ok {next : Cursor} (hnext : cursor.advance = (.ok (), next)) :
  ∃ next', cursor'.advance = (.ok (), next') ∧ R next next'
  := by
  rcases h.advance hcursor with ⟨hadvance, hadvance', hR⟩ | ⟨hadvance, -, -⟩
  · cases hnext.symm.trans hadvance
    exact ⟨_, hadvance', hR⟩
  · cases hnext.symm.trans hadvance

theorem advance_of_eq_error {e : IoError} {next : Cursor}
    (hnext : cursor.advance = (.error e, next)) :
  ∃ next', cursor'.advance = (.error e, next') ∧ Q e next next'
  := by
  rcases h.advance hcursor with ⟨hadvance, -, -⟩ | ⟨hadvance, hadvance', hQ⟩
  · cases hnext.symm.trans hadvance
  · cases hnext.symm.trans hadvance
    exact ⟨_, hadvance', hQ⟩

/-- Scans that start alike end alike. -/
theorem scan {σ : Type} (step : σ → Char → Verdict σ) (s : σ) :
  EndsAlike R Q (cursor.scan step s) (cursor'.scan step s)
  := by
  fun_induction Cursor.scan step s cursor generalizing cursor' with
  | case1 s cursor hlook =>
    rw [← h.look_eq hcursor] at hlook
    exact .done rfl (scan_of_ended step s hlook) hcursor
  | case2 s cursor c handedBack hlook s' hleave =>
    rw [← h.look_eq hcursor] at hlook
    rw [scan_of_on step s hlook, hleave]
    exact .done rfl rfl hcursor
  | case3 s cursor c handedBack hlook s' htake e next hadvance =>
    obtain ⟨next', hadvance', hQ⟩ := h.advance_of_eq_error hcursor hadvance
    rw [← h.look_eq hcursor] at hlook
    rw [scan_of_on step s hlook, htake, hadvance']
    exact .failed rfl rfl hQ
  | case4 s cursor c handedBack hlook s' htake next hadvance ih =>
    obtain ⟨next', hadvance', hR⟩ := h.advance_of_eq_ok hcursor hadvance
    rw [← h.look_eq hcursor] at hlook
    rw [scan_of_on step s hlook, htake, hadvance']
    apply ih hR
  | case5 s cursor c handedBack hlook s' hfinish e next hadvance =>
    obtain ⟨next', hadvance', hQ⟩ := h.advance_of_eq_error hcursor hadvance
    rw [← h.look_eq hcursor] at hlook
    rw [scan_of_on step s hlook, hfinish, hadvance']
    exact .failed rfl rfl hQ
  | case6 s cursor c handedBack hlook s' hfinish next hadvance =>
    obtain ⟨next', hadvance', hR⟩ := h.advance_of_eq_ok hcursor hadvance
    rw [← h.look_eq hcursor] at hlook
    rw [scan_of_on step s hlook, hfinish, hadvance']
    exact .done rfl rfl hR

/-! ### Block code -/

theorem operator (c : Char) :
  ReturnsAlike position R Q (cursor.operator c) (cursor'.operator c)
  := by
  rw [Cursor.operator, Cursor.operator]
  rcases h.scan hcursor Lexeme.operator [] with ⟨hscan, hscan', hR⟩ | ⟨hscan, hscan', hQ⟩
  · rw [hscan, hscan']
    dsimp only
    split
    · exact .token rfl rfl hR
    · exact .token rfl rfl (h.handBack c hR)
  · rw [hscan, hscan']
    exact .failed rfl rfl hQ

theorem number :
  ReturnsAlike position R Q cursor.number cursor'.number
  := by
  rw [Cursor.number, Cursor.number]
  rcases h.scan hcursor Lexeme.number .start with ⟨hscan, hscan', hR⟩ | ⟨hscan, hscan', hQ⟩
  · rw [hscan, hscan']
    exact .token rfl rfl hR
  · rw [hscan, hscan']
    exact .failed rfl rfl hQ

theorem symbol :
  ReturnsAlike position R Q cursor.symbol cursor'.symbol
  := by
  rw [Cursor.symbol, Cursor.symbol]
  rcases h.scan hcursor Lexeme.symbol "" with ⟨hscan, hscan', hR⟩ | ⟨hscan, hscan', hQ⟩
  · rw [hscan, hscan']
    exact .token rfl rfl hR
  · rw [hscan, hscan']
    exact .failed rfl rfl hQ

theorem quoted (escape quote : Char) :
  ReturnsAlike position R Q (cursor.quoted escape quote) (cursor'.quoted escape quote)
  := by
  rw [Cursor.quoted, Cursor.quoted]
  rcases h.scan hcursor (Lexeme.quoted escape quote) .start with
    ⟨hscan, hscan', hR⟩ | ⟨hscan, hscan', hQ⟩
  · rw [hscan, hscan']
    dsimp only
    split
    · exact .token rfl rfl hR
    · exact .unterminated _ _ rfl rfl hR
  · rw [hscan, hscan']
    exact .failed rfl rfl hQ

theorem lexeme (escape : Char) :
  ReturnsAlike position R Q (cursor.lexeme escape) (cursor'.lexeme escape)
  := by
  rw [Cursor.lexeme, Cursor.lexeme, h.look_eq hcursor]
  cases cursor.look with
  | ended => exact .token rfl rfl hcursor
  | on c handedBack =>
    dsimp only
    split
    · apply h.operator hcursor
    split
    · apply h.number hcursor
    split
    · apply h.symbol hcursor
    split
    · apply h.quoted hcursor
    · exact .token rfl rfl hcursor

/-- The next tokens of block code are the same. -/
theorem nextLexeme (escape : Char) :
  ReturnsAlike position R Q (cursor.nextLexeme escape) (cursor'.nextLexeme escape)
  := by
  rw [Cursor.nextLexeme, Cursor.nextLexeme]
  rcases h.scan hcursor Lexeme.blank () with ⟨hscan, hscan', hR⟩ | ⟨hscan, hscan', hQ⟩
  · rw [hscan, hscan']
    apply h.lexeme hR
  · rw [hscan, hscan']
    exact .failed rfl rfl hQ

/-! ### Raw text -/

/-- The next chunks of raw text are the same. -/
theorem nextChunk {κ : Type} (m : Matcher κ) (escape : Char) (maxSize : Nat) :
  EndsAlike R Q (cursor.nextChunk m escape maxSize) (cursor'.nextChunk m escape maxSize)
  := by
  rw [Cursor.nextChunk, Cursor.nextChunk]
  rcases h.scan hcursor (Chunk.step m escape maxSize) .start with
    ⟨hscan, hscan', hR⟩ | ⟨hscan, hscan', hQ⟩
  · rw [hscan, hscan']
    exact .done rfl rfl hR
  · rw [hscan, hscan']
    exact .failed rfl rfl hQ

end IsSimulation

end Cursor

end TemplateLexer
