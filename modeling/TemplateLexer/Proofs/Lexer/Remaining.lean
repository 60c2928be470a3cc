import Mathlib
import TemplateLexer.Proofs.Block.Reading
import TemplateLexer.Proofs.Raw.Scan

/-!
# Lexers and their remaining input

The input of a lexer is spread over the character that its cursor stands on, one that was handed
back, and the source.  What matters of it are the remaining characters: a request in block mode
reads the next lexeme of these, a request in raw mode the next chunk, and whatever the requests,
what remains is the end of what remained before.  So a lexer goes on as a new one that is bound
to its remaining input (`Lexer.refines_after_reset`), but for a delimiter that is pending.
-/

namespace TemplateLexer.Lexer

variable {l : Lexer} {m : Matcher Kind}

/-! ### Requests in any modes -/

/-- The lexer after requests in the given modes. -/
def after (l : Lexer) (modes : List Mode) : Lexer :=
  ((l.run modes).map (·.2)).getLastD l

@[simp]
theorem after_nil (l : Lexer) :
  l.after [] = l
  := rfl

@[simp]
theorem after_cons (l : Lexer) (mode : Mode) (modes : List Mode) :
  l.after (mode :: modes) = (l.next mode).2.after modes
  := by
  rw [after, run, List.map_cons, List.getLastD_cons]
  rfl

theorem after_concat (l : Lexer) (modes : List Mode) (mode : Mode) :
  l.after (modes ++ [mode]) = ((l.after modes).next mode).2
  := by
  induction modes generalizing l with
  | nil => rfl
  | cons mode' modes ih => rw [List.cons_append, after_cons, after_cons, ih]

/-- What every request keeps is true after any number of them. -/
theorem after_induction {P : Lexer → Prop} (hnext : ∀ l mode, P l → P (l.next mode).2) (h : P l)
    (modes : List Mode) :
  P (l.after modes)
  := by
  induction modes generalizing l with
  | nil => exact h
  | cons mode modes ih =>
    rw [after_cons]
    apply ih (hnext l mode h)

theorem sameSettings_after (l : Lexer) (modes : List Mode) :
  SameSettings l (l.after modes)
  := by
  apply after_induction (P := SameSettings l) _ ⟨rfl, rfl, rfl⟩
  intro l' mode h
  apply h.trans (sameSettings_next l' mode)

/-! ### Block mode -/

theorem next_block_of_eq_ok {token : Token} {cursor : Cursor}
    (h : l.cursor.nextLexeme l.escape = (.ok token, cursor)) :
  l.next .block = (.ok token, { l with cursor, current := token })
  := by
  rw [next, produce, nextBlock, h]

theorem next_block_of_eq_error {e : Error} {cursor : Cursor}
    (h : l.cursor.nextLexeme l.escape = (.error e, cursor)) :
  l.next .block = (.error e, { l with cursor })
  := by
  rw [next, produce, nextBlock, h]

theorem next_block_fst (l : Lexer) :
  (l.next .block).1 = (l.cursor.nextLexeme l.escape).1
  := by
  rw [next, produce, nextBlock]
  cases (l.cursor.nextLexeme l.escape).1 <;> rfl

theorem cursor_next_block (l : Lexer) :
  (l.next .block).2.cursor = (l.cursor.nextLexeme l.escape).2
  := by
  rw [next, produce, nextBlock]
  cases (l.cursor.nextLexeme l.escape).1 <;> rfl

/-- A request in block mode leaves a pending delimiter alone. -/
@[simp]
theorem pending_next_block (l : Lexer) :
  (l.next .block).2.pending = l.pending
  := by
  rw [next, produce, nextBlock]
  cases (l.cursor.nextLexeme l.escape).1 <;> rfl

theorem pending_after_block (l : Lexer) (n : Nat) :
  (l.after (List.replicate n .block)).pending = l.pending
  := by
  induction n generalizing l with
  | zero => rfl
  | succ n ih => rw [List.replicate_succ, after_cons, ih, pending_next_block]

/-- A request in block mode reads the next token of the remaining characters. -/
theorem reads_next_block (h : l.cursor.source.IsErrorFree) :
  Cursor.Reads ((l.next .block).1, (l.next .block).2.cursor) (.next l.escape l.cursor.remaining)
  := by
  rw [next_block_fst, cursor_next_block]
  apply Cursor.reads_nextLexeme h

/-! ### Raw mode -/

/-- A request in raw mode with nothing pending reads the next chunk of the remaining
characters. -/
theorem next_raw_of_isErrorFree (h : l.cursor.source.IsErrorFree) (hm : l.automaton = .built m)
    (hpending : l.pending = none) :
  let r := Verdict.run (Chunk.step m l.escape l.maxTextChunk) .start l.cursor.remaining
  (l.next .raw).1 = .ok (r.1.close m l.escape).token
    ∧ (l.next .raw).2.pending = (r.1.close m l.escape).pending
    ∧ (l.next .raw).2.cursor.source.IsErrorFree
    ∧ (l.next .raw).2.cursor.remaining = r.2
  := by
  obtain ⟨hresult, hfree, hremaining⟩ :=
    Cursor.nextChunk_of_isErrorFree h m l.escape l.maxTextChunk
  rw [next_raw_of_chunk hpending hm (Prod.ext hresult rfl)]
  exact ⟨rfl, rfl, hfree, hremaining⟩

/-- A cursor of an input that does not fail, further on in the same input. -/
structure IsFurther (cursor next : Cursor) : Prop where
  isErrorFree : next.source.IsErrorFree
  suffix : next.remaining <:+ cursor.remaining

theorem isFurther_next_raw (h : l.cursor.source.IsErrorFree) :
  IsFurther l.cursor (l.next .raw).2.cursor
  := by
  rw [cursor_next, produce]
  rcases l.cursor_nextRaw with hcursor | hcursor | ⟨m, hcursor⟩
  · rw [hcursor]
    exact ⟨h, List.suffix_rfl⟩
  · obtain ⟨-, hfree, hremaining⟩ := Cursor.advance_of_isErrorFree h
    rw [hcursor]
    exact ⟨hfree, hremaining ▸ List.tail_suffix _⟩
  · obtain ⟨-, hfree, hremaining⟩ :=
      Cursor.nextChunk_of_isErrorFree h m l.escape l.maxTextChunk
    rw [hcursor]
    exact ⟨hfree, hremaining ▸ Verdict.run_snd_suffix _ _ _⟩

/-- What remains after a request is the end of what remained before. -/
theorem isFurther_next (h : l.cursor.source.IsErrorFree) (mode : Mode) :
  IsFurther l.cursor (l.next mode).2.cursor
  := by
  cases mode with
  | raw => apply isFurther_next_raw h
  | block =>
    have hreads := reads_next_block h
    exact ⟨hreads.isErrorFree, hreads.remaining_eq ▸ Reading.rest_next_suffix _ _⟩

theorem isFurther_after (h : l.cursor.source.IsErrorFree) (modes : List Mode) :
  IsFurther l.cursor (l.after modes).cursor
  := by
  apply after_induction (P := fun l' => IsFurther l.cursor l'.cursor) _ ⟨h, List.suffix_rfl⟩
  intro l' mode hl'
  have hnext := isFurther_next hl'.isErrorFree mode
  exact ⟨hnext.isErrorFree, hnext.suffix.trans hl'.suffix⟩

/-! ### Starting anew -/

/-- A new lexer with the settings of `l`, bound to the input that remains to `l`. -/
def restart (l : Lexer) : Lexer :=
  ((ofAutomaton l.automaton l.escape l.maxTextChunk).reset (.ofChars l.cursor.remaining)).2

theorem sameSettings_restart (l : Lexer) :
  SameSettings l l.restart
  := by
  have := sameSettings_reset (ofAutomaton l.automaton l.escape l.maxTextChunk)
    (.ofChars l.cursor.remaining)
  exact ⟨this.automaton_eq, this.escape_eq, this.maxTextChunk_eq⟩

theorem remaining_restart (l : Lexer) :
  l.restart.cursor.source.IsErrorFree ∧ l.restart.cursor.remaining = l.cursor.remaining
  := by
  have h := remaining_reset (ofAutomaton l.automaton l.escape l.maxTextChunk)
    (Source.isErrorFree_ofChars l.cursor.remaining)
  rwa [Source.leading_ofChars] at h

/-- The results are the same token, or both say that a quoted string is not closed, whatever the
position. -/
inductive SameOutcome : Except Error Token → Except Error Token → Prop
  | token (t : Token) : SameOutcome (.ok t) (.ok t)
  | unterminated (p p' : Position) :
      SameOutcome (.error (.unterminatedString p)) (.error (.unterminatedString p'))

theorem sameOutcome_result (r : Reading) (p p' : Position) :
  SameOutcome (r.result p) (r.result p')
  := by
  rw [Reading.result, Reading.result]
  cases r.token? with
  | some t => apply SameOutcome.token
  | none => apply SameOutcome.unterminated

/-- A request in the given mode has the same outcome as one to a new lexer that is bound to the
remaining input, and leaves the same input. -/
structure AgreesWithRestart (l : Lexer) (mode : Mode) : Prop where
  sameOutcome : SameOutcome (l.next mode).1 (l.restart.next mode).1
  remaining_eq : (l.next mode).2.cursor.remaining = (l.restart.next mode).2.cursor.remaining

/-- The pending delimiter `k` is still pending after any number of requests in block mode, and
the first one in raw mode returns it and takes no character. -/
def KeepsPending (l : Lexer) (k : Kind) : Prop :=
  ∀ n, (l.after (List.replicate n .block)).pending = some k
    ∧ ((l.after (List.replicate n .block)).next .raw).1 = .ok (.empty k)
    ∧ ((l.after (List.replicate n .block)).next .raw).2.cursor
      = (l.after (List.replicate n .block)).cursor
    ∧ ((l.after (List.replicate n .block)).next .raw).2.pending = none

theorem agreesWithRestart_block (h : l.cursor.source.IsErrorFree) :
  l.AgreesWithRestart .block
  := by
  obtain ⟨hfree, hremaining⟩ := remaining_restart l
  have hreads := reads_next_block h
  have hreads' := reads_next_block hfree
  rw [hremaining, (sameSettings_restart l).escape_eq] at hreads'
  constructor
  · have hresult := hreads.result_eq
    have hresult' := hreads'.result_eq
    dsimp only at hresult hresult'
    rw [hresult, hresult']
    apply sameOutcome_result
  · exact hreads.remaining_eq.trans hreads'.remaining_eq.symm

theorem agreesWithRestart_raw (h : l.cursor.source.IsErrorFree) (hm : l.automaton = .built m)
    (hpending : l.pending = none) :
  l.AgreesWithRestart .raw ∧ (l.next .raw).2.pending = (l.restart.next .raw).2.pending
  := by
  obtain ⟨hfree, hremaining⟩ := remaining_restart l
  have hpending' : l.restart.pending = none := pending_reset _ _
  have hsettings := sameSettings_restart l
  obtain ⟨hresult, hpend, -, hrest⟩ := next_raw_of_isErrorFree h hm hpending
  obtain ⟨hresult', hpend', -, hrest'⟩ :=
    next_raw_of_isErrorFree hfree (hsettings.automaton_eq.trans hm) hpending'
  rw [hremaining, hsettings.escape_eq, hsettings.maxTextChunk_eq] at hresult' hpend' hrest'
  refine ⟨⟨?_, ?_⟩, ?_⟩
  · rw [hresult, hresult']
    apply SameOutcome.token
  · rw [hrest, hrest']
  · rw [hpend, hpend']

theorem keepsPending {k : Kind} (h : l.pending = some k) :
  l.KeepsPending k
  := by
  intro n
  have hpending := (pending_after_block l n).trans h
  use hpending
  rw [next_raw_of_pending hpending]
  exact ⟨rfl, rfl, rfl⟩

/-- Whatever was requested since the lexer was bound to the text `s`, what remains is the end of
`s`, and the lexer goes on as a new one bound to what remains: in block mode always, in raw mode
when nothing is pending.  A pending delimiter waits for raw mode. -/
theorem refines_after_reset (hm : l.automaton = .built m) (s : String) (modes : List Mode) :
  let l' := (l.reset (.ofString s)).2.after modes
  l'.cursor.remaining <:+ s.toList
    ∧ l'.AgreesWithRestart .block
    ∧ (l'.pending = none →
      l'.AgreesWithRestart .raw ∧ (l'.next .raw).2.pending = (l'.restart.next .raw).2.pending)
    ∧ ∀ k, l'.pending = some k → l'.KeepsPending k
  := by
  intro l'
  obtain ⟨hfree, hremaining⟩ := remaining_reset l (Source.isErrorFree_ofString s)
  have hfurther := isFurther_after hfree modes
  have hautomaton : l'.automaton = .built m := by
    rw [(sameSettings_after _ modes).automaton_eq, (sameSettings_reset l _).automaton_eq, hm]
  refine ⟨?_, ?_, ?_, ?_⟩
  · rw [← Source.leading_ofString, ← hremaining]
    apply hfurther.suffix
  · apply agreesWithRestart_block hfurther.isErrorFree
  · apply agreesWithRestart_raw hfurther.isErrorFree hautomaton
  · intro k hk
    apply keepsPending hk

/-- Settings whose delimiters are pairs of braces. -/
def braces : Config :=
  ⟨"\x7b\x7b", "\x7d\x7b", "\x7d\x7d", '\\', 42000⟩

/-- After the text `a` and a lone `|` a delimiter is pending, and `|x` remains with the `x` handed
back. -/
theorem refines_after_reset_handedBack :
  ∃ l m, ofConfig braces = .ok l ∧ l.automaton = .built m ∧
    let l' := (l.reset (.ofString "a\x7b\x7b|x")).2.after [.raw, .block]
    (l'.cursor.look = .on '|' (some 'x') ∧ l'.pending = some (.delimiter .opening))
      ∧ l'.cursor.remaining <:+ "a\x7b\x7b|x".toList ∧ l'.AgreesWithRestart .block
      ∧ l'.KeepsPending (.delimiter .opening)
  := by
  refine ⟨_, _, rfl, rfl, ⟨by cbv, by cbv⟩, ?_, ?_, ?_⟩
  · apply (refines_after_reset rfl _ _).1
  · apply (refines_after_reset rfl _ _).2.1
  · apply (refines_after_reset rfl _ _).2.2.2
    cbv

end TemplateLexer.Lexer
