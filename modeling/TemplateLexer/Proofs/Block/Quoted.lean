import TemplateLexer.Proofs.Block.Printed
import TemplateLexer.Proofs.Lexer.EndOfInput
import TemplateLexer.Proofs.Lexer.EndPosition

/-!
# Quoted strings

Between its quotes a string is read from left to right: the first quote that no escape character
takes closes it (`Lexeme.Closes`), whether or not the escape character is a quote itself.  Block
mode returns what stands before that quote and leaves what comes after it; where no quote closes the
string all of the input is read, and the error has its last position.  There is no other mismatch
between the input and what is expected of it (`Session.next_block_of_quote`).
-/

namespace TemplateLexer

/-! ### The closing quote -/

namespace Lexeme

/-- The characters after an opening quote hold the quote that closes the string: what stands before
it stands for `text`, and `rest` comes after it. -/
inductive Closes (escape quote : Char) : List Char → List Char → List Char → Prop
  | quote (rest : List Char) : Closes escape quote (quote :: rest) [] rest
  /-- An escape character takes the character after it, unless it is the quote. -/
  | escaped {c : Char} {cs text rest : List Char} (hne : escape ≠ quote)
      (h : Closes escape quote cs text rest) :
      Closes escape quote (escape :: c :: cs) (c :: text) rest
  | plain {c : Char} {cs text rest : List Char} (hquote : c ≠ quote) (hescape : c ≠ escape)
      (h : Closes escape quote cs text rest) : Closes escape quote (c :: cs) (c :: text) rest

variable {escape quote : Char} {cs text rest : List Char}

/-- The scan of a string is over after the quote that closes it. -/
theorem Closes.run_eq (h : Closes escape quote cs text rest) (s : String) :
  Verdict.run (quoted escape quote) ⟨s, .inside⟩ cs = (⟨s ++ String.ofList text, .closed⟩, rest)
  := by
  induction h generalizing s with
  | quote rest => simp [Verdict.run, quoted]
  | escaped hne h ih =>
    rw [← push_append_ofList, ← ih]
    simp [Verdict.run, quoted, hne]
  | plain hquote hescape h ih =>
    rw [← push_append_ofList, ← ih]
    simp [Verdict.run, quoted, hquote, hescape]

/-- Where a scan of the string is not over at a quote, none closes it. -/
theorem not_closes_of_run
    (h : (Verdict.run (quoted escape quote) ⟨"", .inside⟩ cs).1.place ≠ .closed)
    (text rest : List Char) :
  ¬ Closes escape quote cs text rest
  := by
  intro hcloses
  rw [hcloses.run_eq] at h
  contradiction

/-- Where no quote closes the string, the scan takes all characters. -/
theorem run_of_not_closes (h : ∀ text rest, ¬ Closes escape quote cs text rest) (s : String) :
  ∃ s', Verdict.run (quoted escape quote) ⟨s, .inside⟩ cs = (s', []) ∧ s'.place ≠ .closed
  := by
  -- an escape character is read together with the character after it
  induction hlength : cs.length using Nat.strongRecOn generalizing cs s with
  | ind n ih =>
    cases cs with
    | nil => exact ⟨_, rfl, by simp⟩
    | cons c cs =>
      have hquote : c ≠ quote := by
        rintro rfl
        apply h [] cs (.quote cs)
      by_cases hescape : c = escape
      · subst hescape
        cases cs with
        | nil => exact ⟨⟨s, .escaping⟩, by simp [Verdict.run, quoted, hquote], by simp⟩
        | cons d cs =>
          have hlt : cs.length < n := by
            rw [← hlength, List.length_cons, List.length_cons]
            omega
          obtain ⟨s', hrun, hplace⟩ := ih cs.length hlt
            (fun text rest h' => h (d :: text) rest (.escaped hquote h')) (s.push d) rfl
          refine ⟨s', ?_, hplace⟩
          rw [← hrun]
          simp [Verdict.run, quoted, hquote]
      · obtain ⟨s', hrun, hplace⟩ := ih cs.length (by simp [← hlength])
          (fun text rest h' => h (c :: text) rest (.plain hquote hescape h')) (s.push c) rfl
        refine ⟨s', ?_, hplace⟩
        rw [← hrun]
        simp [Verdict.run, quoted, hquote, hescape]

end Lexeme

namespace Reading

open Lexeme

variable {escape quote : Char} {cs text rest : List Char}

/-- A string is read up to the quote that closes it. -/
theorem lexeme_of_closes (hquote : quote ∈ quotes) (h : Closes escape quote cs text rest) :
  lexeme escape (quote :: cs) = ⟨some ⟨.string, String.ofList text⟩, rest⟩
  := by
  rw [lexeme_of_mem_quotes hquote, quoted, run_quoted_start, h.run_eq]
  simp

/-- A string that is not closed is read to the end. -/
theorem lexeme_of_not_closes (hquote : quote ∈ quotes)
    (h : ∀ text rest, ¬ Closes escape quote cs text rest) :
  lexeme escape (quote :: cs) = ⟨none, []⟩
  := by
  obtain ⟨s, hrun, hplace⟩ := run_of_not_closes h ""
  rw [lexeme_of_mem_quotes hquote, quoted, run_quoted_start, hrun]
  simp [hplace]

end Reading

/-! ### Mismatches -/

namespace Cursor

open Lexeme

variable {cursor next : Cursor} {escape quote : Char} {cs : List Char} {e : Error} {x : Mismatch}

theorem mismatch?_of_operator_eq_error {c : Char} (h : cursor.operator c = (.error e, next)) :
  e.mismatch? = none
  := by
  rw [operator] at h
  rcases hscan : cursor.scan Lexeme.operator [] with ⟨e' | cs, next'⟩ <;> rw [hscan] at h
  · cases h
    rfl
  · dsimp only at h
    split at h <;> cases h

theorem mismatch?_of_number_eq_error (h : cursor.number = (.error e, next)) :
  e.mismatch? = none
  := by
  rw [number] at h
  rcases hscan : cursor.scan Lexeme.number .start with ⟨e' | s, next'⟩ <;> rw [hscan] at h <;>
    cases h
  rfl

theorem mismatch?_of_symbol_eq_error (h : cursor.symbol = (.error e, next)) :
  e.mismatch? = none
  := by
  rw [symbol] at h
  rcases hscan : cursor.scan Lexeme.symbol "" with ⟨e' | text, next'⟩ <;> rw [hscan] at h <;>
    cases h
  rfl

/-- A string that is a mismatch is not closed, whatever the source delivers. -/
theorem not_closes_of_quoted_eq_error (h : cursor.quoted escape quote = (.error e, next))
    (hx : e.mismatch? = some x) (hremaining : cursor.remaining = quote :: cs)
    (text rest : List Char) :
  ¬ Closes escape quote cs text rest
  := by
  rw [quoted] at h
  rcases hscan : cursor.scan (Lexeme.quoted escape quote) .start with ⟨e' | s, next'⟩ <;>
    rw [hscan] at h
  · cases h
    cases hx
  · intro hcloses
    have hrun := run_of_scan_eq_ok hscan
    rw [hremaining, Reading.run_quoted_start, hcloses.run_eq] at hrun
    cases hrun
    cases h

/-- Of what stands under a cursor only a string that is not closed is a mismatch. -/
theorem exists_of_lexeme_eq_error (h : cursor.lexeme escape = (.error e, next))
    (hx : e.mismatch? = some x) :
  ∃ quote cs, quote ∈ quotes ∧ cursor.remaining = quote :: cs
    ∧ ∀ text rest, ¬ Closes escape quote cs text rest
  := by
  rw [lexeme] at h
  cases hlook : cursor.look with
  | ended =>
    rw [hlook] at h
    cases h
  | on c handedBack =>
    rw [hlook] at h
    dsimp only at h
    split at h
    · cases hx.symm.trans (mismatch?_of_operator_eq_error h)
    split at h
    · cases hx.symm.trans (mismatch?_of_number_eq_error h)
    split at h
    · cases hx.symm.trans (mismatch?_of_symbol_eq_error h)
    split at h
    case isTrue hquote =>
      have hremaining := remaining_of_look hlook
      use c, cursor.remaining.tail, isQuote_iff_mem.mp hquote, hremaining
      apply not_closes_of_quoted_eq_error h hx hremaining
    case isFalse => cases h

/-- Whatever the source delivers, only a string that is not closed is a mismatch. -/
theorem exists_of_nextLexeme_eq_error (h : cursor.nextLexeme escape = (.error e, next))
    (hx : e.mismatch? = some x) :
  ∃ quote cs, quote ∈ quotes ∧ cursor.remaining.dropWhile (· ∈ blanks) = quote :: cs
    ∧ ∀ text rest, ¬ Closes escape quote cs text rest
  := by
  rw [nextLexeme] at h
  rcases hscan : cursor.scan blank () with ⟨e' | _, next'⟩ <;> rw [hscan] at h
  · cases h
    cases hx
  · have hrun := run_of_scan_eq_ok hscan
    rw [Verdict.run_blank] at hrun
    have hremaining : cursor.remaining.dropWhile (· ∈ blanks) = next'.remaining :=
      congrArg Prod.snd hrun
    rw [hremaining]
    apply exists_of_lexeme_eq_error h hx

end Cursor

/-! ### Requests -/

namespace Lexer

open Lexeme

variable {l : Lexer} {quote : Char} {cs : List Char}

/-- The string that the lexer reads in block mode is not closed: the request fails in the position
`p` with nothing left, and the position stays.  Later requests return the end of the input, once
what is pending is returned. -/
structure FailsUnclosed (l : Lexer) (p : Position) : Prop where
  next_block : ∃ e, (l.next .block).1 = .error e
    ∧ e.mismatch? = some ⟨p, "<eof>", "end of string"⟩
  remaining_eq : (l.next .block).2.cursor.remaining = []
  position_after : ∀ later, ((l.next .block).2.after later).position = p
  run_block : ∀ n, ((l.next .block).2.run (List.replicate n .block)).map (·.1)
    = List.replicate n (.ok .endOfInput)
  run : ∀ patterns m, Automaton.Reachable patterns (.built m) → l.automaton = .built m →
    ∀ later, ((l.next .block).2.run later).map (·.1) = (tokensAtEnd l.pending later).map .ok

/-- Where nothing remains, block mode returns the end of the input again and again. -/
theorem run_block_of_remaining_eq_nil (h : l.cursor.source.IsErrorFree)
    (hnil : l.cursor.remaining = []) (n : Nat) :
  (l.run (List.replicate n .block)).map (·.1) = List.replicate n (.ok .endOfInput)
  := by
  induction n generalizing l with
  | zero => rfl
  | succ n ih =>
    have hreads := reads_next_block h
    rw [hnil] at hreads
    rw [List.replicate_succ, run, List.map_cons, ih hreads.isErrorFree hreads.remaining_eq,
      List.replicate_succ]
    apply congrArg (· :: _) hreads.result_eq

/-- A string that is not closed is read up to the position in which the input ends. -/
theorem failsUnclosed {p : Position} (h : l.cursor.EndsAt p) (hquote : quote ∈ quotes)
    (hremaining : l.cursor.remaining.dropWhile (· ∈ blanks) = quote :: cs)
    (hnot : ∀ text rest, ¬ Closes l.escape quote cs text rest) :
  l.FailsUnclosed p
  := by
  have hreads := reads_next_block h.isErrorFree
  rw [Reading.next, hremaining, Reading.lexeme_of_not_closes hquote hnot] at hreads
  have hnil : (l.next .block).2.cursor.remaining = [] := hreads.remaining_eq
  have hends := kept_next (Cursor.isKept_endsAt p) h .block
  constructor
  · refine ⟨_, hreads.result_eq, ?_⟩
    rw [← hends.position_eq hnil]
    rfl
  · exact hnil
  · intro later
    apply (kept_after (Cursor.isKept_endsAt p) hends later).position_eq
    have hsuffix := (isFurther_after hends.isErrorFree later).suffix
    rwa [hnil, List.suffix_nil] at hsuffix
  · apply run_block_of_remaining_eq_nil hreads.isErrorFree hnil
  · intro patterns m hreachable hm later
    rw [← pending_next_block l]
    apply run_of_remaining_eq_nil hreachable.wellFormed
      ((sameSettings_next l .block).automaton_eq.trans hm) hreads.isErrorFree hnil

/-- A mismatch of block mode is a string that is not closed. -/
theorem exists_of_next_block_eq_error {e : Error} (he : (l.next .block).1 = .error e) {x : Mismatch}
    (hx : e.mismatch? = some x) :
  ∃ quote cs, quote ∈ quotes ∧ l.cursor.remaining.dropWhile (· ∈ blanks) = quote :: cs
    ∧ ∀ text rest, ¬ Closes l.escape quote cs text rest
  := by
  rw [next_block_fst] at he
  apply Cursor.exists_of_nextLexeme_eq_error (Prod.ext he rfl) hx

/-- Raw mode expects nothing of its input. -/
theorem mismatch?_of_next_raw (l : Lexer) {e : Error} (he : (l.next .raw).1 = .error e) :
  e.mismatch? = none
  := by
  rw [next, produce] at he
  rcases l.rawStep with ⟨-, h⟩ | ⟨-, -, -, h⟩ | ⟨-, -, -, h⟩ | ⟨-, -, -, hmismatch, h⟩
  all_goals
    rw [h] at he
    cases he
  · rfl
  · exact hmismatch

end Lexer

/-! ### Sessions -/

namespace Session

open Lexeme

/-- The input of a session ends in the position that counts all of it. -/
theorem endPosition_after (automaton : Automaton Kind) (escape : Char) (maxTextChunk : Nat)
    (requests : List Request) :
  let s := (new (.ofAutomaton automaton escape maxTextChunk)).after requests
  s.lexer.cursor.remaining ≠ [] →
    s.lexer.cursor.endPosition
      = Position.start.advanceAll (s.delivered ++ s.lexer.cursor.source.leading)
  := by
  intro s hne
  have hposition : s.lexer.cursor.position = Position.start.advanceAll s.delivered :=
    (position_after automaton escape maxTextChunk requests).2.1
  rw [Cursor.endPosition, Position.advanceAll_append, ← hposition]
  cases hlook : s.lexer.cursor.look with
  | ended =>
    rw [Cursor.remaining, hlook] at hne
    contradiction
  | on c handedBack => rfl

/-- Whatever was requested before, and whether or not it failed: where the rest of the input does
not fail, a quoted string of block mode ends at the first quote that no escape character takes, and
what comes after that quote remains.  Without such a quote the request fails in the position after
all of the input, and from then on the input has ended.  No other request finds a mismatch, whatever
the source delivers. -/
theorem next_block_of_quote (automaton : Automaton Kind) (escape : Char) (maxTextChunk : Nat)
    (requests : List Request) :
  let s := (new (.ofAutomaton automaton escape maxTextChunk)).after requests
  let l := s.lexer
  (l.cursor.source.IsErrorFree →
      ∀ quote cs, quote ∈ quotes → l.cursor.remaining.dropWhile (· ∈ blanks) = quote :: cs →
      (∀ text rest, Closes escape quote cs text rest →
        (l.next .block).1 = .ok ⟨.string, String.ofList text⟩
          ∧ (l.next .block).2.cursor.remaining = rest)
      ∧ ((∀ text rest, ¬ Closes escape quote cs text rest) →
        l.FailsUnclosed (Position.start.advanceAll (s.delivered ++ l.cursor.source.leading))))
    ∧ (∀ e x, (l.next .block).1 = .error e → e.mismatch? = some x →
      ∃ quote cs, quote ∈ quotes ∧ l.cursor.remaining.dropWhile (· ∈ blanks) = quote :: cs
        ∧ ∀ text rest, ¬ Closes escape quote cs text rest)
    ∧ ∀ e, (l.next .raw).1 = .error e → e.mismatch? = none
  := by
  intro s l
  have hescape : l.escape = escape :=
    (sameSettings_after (.ofAutomaton automaton escape maxTextChunk) requests).escape_eq
  rw [← hescape]
  refine ⟨?_, ?_, ?_⟩
  · intro hfree quote cs hquote hremaining
    constructor
    · intro text rest hcloses
      obtain ⟨hresult, -, hrest⟩ := Lexer.next_block_of_lexeme hfree hremaining
        (Reading.lexeme_of_closes hquote hcloses)
      exact ⟨hresult, hrest⟩
    · have hne : l.cursor.remaining ≠ [] := by
        intro hnil
        rw [hnil] at hremaining
        cases hremaining
      have hend := endPosition_after automaton escape maxTextChunk requests hne
      apply Lexer.failsUnclosed ⟨hfree, hend⟩ hquote hremaining
  · intro e x he hx
    apply Lexer.exists_of_next_block_eq_error he hx
  · intro e
    apply l.mismatch?_of_next_raw

/-- After a blank the escaped quote of `'a\'b'c` is part of the string, and `c` remains.  The string
of `'a\'`, which stands on a second line, is not closed. -/
theorem next_block_of_quote_escaped :
  ∃ l, Lexer.ofConfig .default = .ok l ∧
    let closed := (new l).after [.reset (.ofString " \x27a\\\x27b\x27c")]
    let unclosed := (new l).after [.reset (.ofString "\n\x27a\\\x27")]
    (closed.lexer.next .block).1 = .ok ⟨.string, "a\x27b"⟩
      ∧ (closed.lexer.next .block).2.cursor.remaining = ['c']
      ∧ unclosed.lexer.FailsUnclosed ⟨2, 5⟩
  := by
  obtain ⟨l, hl⟩ : ∃ l, Lexer.ofConfig .default = .ok l := ⟨_, rfl⟩
  obtain ⟨m, -, rfl⟩ := Config.of_ofConfig_eq_ok hl
  refine ⟨_, hl, ?_⟩
  intro closed unclosed
  have hcloses : Closes '\\' '\x27' ['a', '\\', '\x27', 'b', '\x27', 'c'] ['a', '\x27', 'b']
      ['c'] := by
    apply Closes.plain (by decide) (by decide)
    apply Closes.escaped (by decide)
    apply Closes.plain (by decide) (by decide)
    apply Closes.quote
  have hnot : ∀ text rest, ¬ Closes '\\' '\x27' ['a', '\\', '\x27'] text rest :=
    not_closes_of_run (by decide)
  have hclosed : closed.lexer.cursor.remaining.dropWhile (· ∈ blanks)
      = '\x27' :: ['a', '\\', '\x27', 'b', '\x27', 'c'] := by rfl
  have hunclosed : unclosed.lexer.cursor.remaining.dropWhile (· ∈ blanks)
      = '\x27' :: ['a', '\\', '\x27'] := by rfl
  have hend : Position.start.advanceAll (unclosed.delivered ++ unclosed.lexer.cursor.source.leading)
      = ⟨2, 5⟩ := by rfl
  have hfree : closed.lexer.cursor.source.IsErrorFree :=
    Source.isErrorFree_ofString "\x27a\\\x27b\x27c"
  have hfree' : unclosed.lexer.cursor.source.IsErrorFree :=
    Source.isErrorFree_ofString "\x27a\\\x27"
  rw [← and_assoc, ← hend]
  constructor
  · have hquoted := (next_block_of_quote (.built m) '\\' 42000 _).1 hfree _ _ (by decide) hclosed
    apply hquoted.1 _ _ hcloses
  · have hquoted := (next_block_of_quote (.built m) '\\' 42000 _).1 hfree' _ _ (by decide) hunclosed
    apply hquoted.2 hnot

end Session

end TemplateLexer
