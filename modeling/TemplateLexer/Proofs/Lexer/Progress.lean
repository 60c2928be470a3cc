import TemplateLexer.Proofs.Block.Printed
import TemplateLexer.Proofs.Lexer.EndOfInput
import TemplateLexer.Proofs.Raw.Falls

/-!
# Progress

`Lexer.extent` counts the remaining characters and the pending delimiter.  A request in raw mode
makes it smaller unless it returns the end of the input, and one in block mode unless it returns
the end or an unknown character (`Lexer.MakesProgress`).  A request follows no more fallbacks than
it takes characters, so that the loops of the matcher end as well.  Hence a scan in raw mode comes
to the end of the input after as many requests as there are characters (`Lexer.Reachable.progress`).
-/

namespace TemplateLexer

/-- A scan that takes the first character leaves fewer. -/
theorem Verdict.length_run_lt {σ : Type} {step : σ → Char → Verdict σ} {s s' : σ} {c : Char}
    (h : step s c = .take s') (cs : List Char) :
  (run step s (c :: cs)).2.length < (c :: cs).length
  := by
  rw [run, h]
  apply Nat.lt_succ_of_le (run_snd_suffix step s' cs).length_le

/-! ### Block mode -/

namespace Reading

theorem length_rest_operator_lt {c : Char} {cs : List Char}
    (h : ∀ text, (operator c cs).token? ≠ some ⟨.unknown, text⟩) :
  (operator c cs).rest.length < (c :: cs).length
  := by
  rcases operator_cases c cs with ⟨o, rest, hrest, heq⟩ | ⟨-, heq⟩
  · have hlength := o.length_chars
    rw [heq, ← hrest, List.length_append]
    dsimp only
    omega
  · rw [heq] at h
    exact absurd rfl (h _)

/-- Where a token begins a character is taken, also when a quoted string is not closed. -/
theorem length_rest_lexeme_lt {escape : Char} {cs : List Char}
    (hend : (lexeme escape cs).token? ≠ some .endOfInput)
    (hunknown : ∀ text, (lexeme escape cs).token? ≠ some ⟨.unknown, text⟩) :
  (lexeme escape cs).rest.length < cs.length
  := by
  revert hend hunknown
  fun_cases lexeme escape cs with
  | case1 => exact fun hend _ => absurd rfl hend
  | case2 c cs => exact fun _ hunknown => length_rest_operator_lt hunknown
  | case3 c cs _ hdigit =>
    intro _ _
    apply Verdict.length_run_lt
    rw [Lexeme.number, if_pos hdigit]
  | case4 c cs _ _ hstarts =>
    intro _ _
    apply Verdict.length_run_lt
    have hc : c.isAlpha ∨ c = '_' := by simpa [Lexeme.startsSymbol] using hstarts
    rw [Lexeme.symbol, if_pos (by simpa using Lexeme.isAlphanum_of_isAlpha hc)]
  | case5 c cs =>
    intro _ _
    apply Verdict.length_run_lt
    rfl
  | case6 c cs => exact fun _ hunknown => absurd rfl (hunknown _)

theorem length_rest_next_lt {escape : Char} {cs : List Char}
    (hend : (next escape cs).token? ≠ some .endOfInput)
    (hunknown : ∀ text, (next escape cs).token? ≠ some ⟨.unknown, text⟩) :
  (next escape cs).rest.length < cs.length
  := Nat.lt_of_lt_of_le (length_rest_lexeme_lt hend hunknown) (List.dropWhile_suffix _).length_le

end Reading

namespace Lexer

variable {config : Config} {m : Matcher Kind} {l : Lexer}

/-- What a request does: it ends with a token or the error of a quoted string that is not closed,
takes characters or the pending delimiter wherever it does not say that it cannot, and follows no
more fallbacks than it takes characters. -/
structure MakesProgress (l : Lexer) : Prop where
  next_raw : ∃ token, (l.next .raw).1 = .ok token
    ∧ (token = .endOfInput ∨ (l.next .raw).2.extent < l.extent)
  falls_raw : ∀ m, l.automaton = .built m → l.pending = none →
    Chunk.falls m l.escape l.maxTextChunk .start l.cursor.remaining
        + (l.next .raw).2.cursor.remaining.length
      ≤ l.cursor.remaining.length
  next_block : (∃ token, (l.next .block).1 = .ok token)
    ∨ ∃ p, (l.next .block).1 = .error (.unterminatedString p)
  extent_next_block_le : (l.next .block).2.extent ≤ l.extent
  extent_next_block_lt : (l.next .block).1 ≠ .ok .endOfInput →
    (∀ text, (l.next .block).1 ≠ .ok ⟨.unknown, text⟩) → (l.next .block).2.extent < l.extent

theorem extent_next_block (h : l.cursor.source.IsErrorFree) :
  (l.next .block).2.extent
    = l.pending.toList.length + (Reading.next l.escape l.cursor.remaining).rest.length
  := by
  rw [extent, pending_next_block, (reads_next_block h).remaining_eq]

theorem IsScanning.makesProgress (h : l.IsScanning config m) :
  l.MakesProgress
  := by
  have hreads := reads_next_block h.isErrorFree
  have hresult : (l.next .block).1 = _ := hreads.result_eq
  constructor
  · obtain ⟨token, htoken, hreturns⟩ := h.next
    use token, htoken
    rcases hreturns.outcome with ⟨hend, -, -⟩ | ⟨-, -, hlt⟩
    · exact .inl hend
    · exact .inr hlt
  · intro m' hm' hpending
    obtain ⟨-, -, -, hremaining⟩ := next_raw_of_isErrorFree h.isErrorFree hm' hpending
    rw [hremaining]
    have hmatcher := h.isConfigured.isMatcher
    cases h.isConfigured.automaton_eq.symm.trans hm'
    apply Chunk.falls_le hmatcher.wellFormed
  · rw [hresult, Reading.result]
    cases (Reading.next l.escape l.cursor.remaining).token? with
    | some token => exact .inl ⟨token, rfl⟩
    | none => exact .inr ⟨_, rfl⟩
  · rw [extent_next_block h.isErrorFree, extent]
    have := (Reading.rest_next_suffix l.escape l.cursor.remaining).length_le
    omega
  · intro hend hunknown
    rw [hresult, Reading.result] at hend hunknown
    have hlt : (Reading.next l.escape l.cursor.remaining).rest.length
        < l.cursor.remaining.length := by
      apply Reading.length_rest_next_lt
      · intro htoken
        apply hend
        rw [htoken]
      · intro text htoken
        apply hunknown text
        rw [htoken]
    rw [extent_next_block h.isErrorFree, extent]
    omega

/-- Requests in raw mode come to the end of the input. -/
theorem IsScanning.exists_endOfInput (h : l.IsScanning config m) {n : Nat} (hn : l.extent < n) :
  ∃ r ∈ l.run (List.replicate n .raw), r.1 = .ok .endOfInput
  := by
  induction n generalizing l with
  | zero => cases hn
  | succ n ih =>
    obtain ⟨token, htoken, hreturns⟩ := h.next
    rw [List.replicate_succ, run]
    rcases hreturns.outcome with ⟨rfl, -, -⟩ | ⟨-, -, hlt⟩
    · exact ⟨_, List.mem_cons_self, htoken⟩
    · obtain ⟨r, hr, hend⟩ := ih hreturns.isScanning (by omega)
      exact ⟨r, List.mem_cons_of_mem _ hr, hend⟩

/-- Whatever was requested over an input that does not fail, every request makes progress, and
raw mode comes to the end of the input: from there on with one request more than there are
characters and pending delimiters left, and from the beginning with one more than the input has
characters. -/
theorem Reachable.progress (h : Reachable config l) {source : Source} (hsource : source.IsErrorFree)
    (modes : List Mode) :
  let l' := (l.reset source).2.after modes
  l'.MakesProgress
    ∧ (∃ r ∈ l'.run (List.replicate (l'.extent + 1) .raw), r.1 = .ok .endOfInput)
    ∧ ∃ r ∈ (l.reset source).2.run (List.replicate (source.leading.length + 1) .raw),
      r.1 = .ok .endOfInput
  := by
  obtain ⟨m, hm⟩ := h.exists_isConfigured
  have hscanning := hm.isScanning_reset hsource
  have hscanning' := hscanning.isScanning_after modes
  refine ⟨hscanning'.makesProgress, hscanning'.exists_endOfInput (Nat.lt_succ_self _), ?_⟩
  apply hscanning.exists_endOfInput
  rw [extent, pending_reset, (remaining_reset l hsource).2, Option.toList_none, List.length_nil]
  omega

/-- With a chunk size of zero a request on `aab|` leaves a delimiter and a character, and the next
three requests come to the end. -/
theorem progress_nested :
  ∃ l, ofConfig nested = .ok l ∧
    let l' := (l.reset (.ofString "aab|")).2.after [.raw]
    l'.extent = 2 ∧ l'.MakesProgress
      ∧ ∃ r ∈ l'.run (List.replicate (l'.extent + 1) .raw), r.1 = .ok .endOfInput
  := by
  refine ⟨_, rfl, by cbv, ?_⟩
  obtain ⟨hprogress, hend, -⟩ := Reachable.progress (.new (show ofConfig nested = .ok _ from rfl))
    (Source.isErrorFree_ofString "aab|") [.raw]
  exact ⟨hprogress, hend⟩

end Lexer

end TemplateLexer
