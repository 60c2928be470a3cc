import TemplateLexer.Proofs.Lexer.Remaining

/-!
# The end of the input

Once a request has returned the end of the input, nothing remains of it
(`Lexer.IsScanning.remaining_of_endOfInput`), and every later request returns the end again, with
one exception: block mode also returns it while a delimiter is pending, and the first request in
raw mode after that returns the delimiter.
-/

namespace TemplateLexer.Lexer

variable {config : Config} {m : Matcher Kind} {l : Lexer}

/-- A request in any mode keeps a lexer scanning. -/
theorem IsScanning.isScanning_next (h : l.IsScanning config m) (mode : Mode) :
  (l.next mode).2.IsScanning config m
  := by
  cases mode with
  | raw =>
    obtain ⟨token, -, hreturns⟩ := h.next
    apply hreturns.isScanning
  | block =>
    constructor
    · apply h.isConfigured.of_sameSettings (sameSettings_next l .block)
    · apply (isFurther_next h.isErrorFree .block).isErrorFree
    · rw [pending_next_block]
      apply h.pending_eq

theorem IsScanning.isScanning_after (h : l.IsScanning config m) (modes : List Mode) :
  (l.after modes).IsScanning config m
  := after_induction (fun _ mode h => h.isScanning_next mode) h modes

/-- Where the end of the input is returned, nothing remains, and a request in raw mode leaves
nothing pending. -/
theorem IsScanning.remaining_of_endOfInput (h : l.IsScanning config m) {mode : Mode}
    (hend : (l.next mode).1 = .ok .endOfInput) :
  (l.next mode).2.cursor.remaining = [] ∧ (mode = .raw → (l.next mode).2.pending = none)
  := by
  cases mode with
  | raw =>
    obtain ⟨token, htoken, hreturns⟩ := h.next
    obtain rfl := Except.ok.inj (htoken.symm.trans hend)
    rcases hreturns.outcome with ⟨-, -, hextent⟩ | ⟨hraw, -, -⟩
    · rw [extent, Nat.add_eq_zero_iff, List.length_eq_zero_iff, List.length_eq_zero_iff] at hextent
      exact ⟨hextent.2, fun _ => Option.toList_eq_nil_iff.mp hextent.1⟩
    · rcases hraw with ⟨cs, -, hcs⟩ | ⟨d, hd⟩
      · cases congrArg Token.kind hcs
      · cases congrArg Token.kind hd
  | block =>
    have hreads := reads_next_block h.isErrorFree
    have hnil := Reading.eq_nil_of_lexeme_eq_endOfInput (hreads.token?_eq hend)
    refine ⟨?_, fun hmode => by cases hmode⟩
    rw [hreads.remaining_eq, Reading.next, hnil]
    rfl

/-! ### Requests at the end -/

/-- The token of a request when nothing remains, and the delimiter that is pending after it. -/
def nextAtEnd (pending : Option Kind) : Mode → Token × Option Kind
  | .block => (.endOfInput, pending)
  | .raw => (.empty (pending.getD .endOfInput), none)

/-- The tokens of requests when nothing remains. -/
def tokensAtEnd (pending : Option Kind) : List Mode → List Token
  | [] => []
  | mode :: modes =>
    (nextAtEnd pending mode).1 :: tokensAtEnd (nextAtEnd pending mode).2 modes

theorem tokensAtEnd_none (modes : List Mode) :
  tokensAtEnd none modes = modes.map fun _ => Token.endOfInput
  := by
  induction modes with
  | nil => rfl
  | cons mode modes ih =>
    have hnext : nextAtEnd none mode = (.endOfInput, none) := by cases mode <;> rfl
    rw [tokensAtEnd, hnext, ih, List.map_cons]

/-- A chunk of no characters is empty. -/
theorem close_start (h : m.trie.WellFormed) (escape : Char) :
  (Chunk.start : Chunk Kind).close m escape = .start
  := by
  simp [Chunk.close, Chunk.start, Matcher.held_root h]

section Nothing

variable (h : m.trie.WellFormed) (hm : l.automaton = .built m)
  (hfree : l.cursor.source.IsErrorFree) (hnil : l.cursor.remaining = [])
include h hm hfree hnil

theorem next_of_remaining_eq_nil (mode : Mode) :
  (l.next mode).1 = .ok (nextAtEnd l.pending mode).1
    ∧ (l.next mode).2.pending = (nextAtEnd l.pending mode).2
  := by
  cases mode with
  | block =>
    have hresult := (reads_next_block hfree).result_eq
    rw [hnil] at hresult
    exact ⟨hresult, pending_next_block l⟩
  | raw =>
    cases hpending : l.pending with
    | some k =>
      rw [next_raw_of_pending hpending]
      exact ⟨rfl, rfl⟩
    | none =>
      obtain ⟨hresult, hpend, -⟩ := next_raw_of_isErrorFree hfree hm hpending
      rw [hnil, Verdict.run, close_start h] at hresult hpend
      exact ⟨hresult, hpend⟩

/-- Where nothing remains, requests return the end of the input, and once what is pending. -/
theorem run_of_remaining_eq_nil (modes : List Mode) :
  (l.run modes).map (·.1) = (tokensAtEnd l.pending modes).map .ok
  := by
  induction modes generalizing l with
  | nil => rfl
  | cons mode modes ih =>
    obtain ⟨hresult, hpending⟩ := next_of_remaining_eq_nil h hm hfree hnil mode
    have hfurther := isFurther_next hfree mode
    have hremaining : (l.next mode).2.cursor.remaining = [] := by
      have := hfurther.suffix
      rwa [hnil, List.suffix_nil] at this
    rw [run, List.map_cons,
      ih ((sameSettings_next l mode).automaton_eq.trans hm) hfurther.isErrorFree hremaining,
      hresult, hpending]
    rfl

end Nothing

theorem IsScanning.next_of_remaining_eq_nil (h : l.IsScanning config m)
    (hnil : l.cursor.remaining = []) (mode : Mode) :
  (l.next mode).1 = .ok (nextAtEnd l.pending mode).1
    ∧ (l.next mode).2.pending = (nextAtEnd l.pending mode).2
  := by
  apply Lexer.next_of_remaining_eq_nil h.isConfigured.isMatcher.wellFormed
    h.isConfigured.automaton_eq h.isErrorFree hnil

theorem IsScanning.run_of_remaining_eq_nil (h : l.IsScanning config m)
    (hnil : l.cursor.remaining = []) (modes : List Mode) :
  (l.run modes).map (·.1) = (tokensAtEnd l.pending modes).map .ok
  := by
  apply Lexer.run_of_remaining_eq_nil h.isConfigured.isMatcher.wellFormed
    h.isConfigured.automaton_eq h.isErrorFree hnil

/-- Once a request on a text has returned the end of the input, every later one returns it, in any
modes, exactly when no delimiter is pending; and then only the first request in raw mode returns
something else, which is that delimiter. -/
theorem Reachable.run_of_endOfInput (h : Reachable config l) (s : String) (modes : List Mode)
    {mode : Mode}
    (hend : (((l.reset (.ofString s)).2.after modes).next mode).1 = .ok .endOfInput) :
  let l' := (((l.reset (.ofString s)).2.after modes).next mode).2
  (∀ later, (l'.run later).map (·.1) = (tokensAtEnd l'.pending later).map .ok)
    ∧ ((∀ later, ∀ r ∈ l'.run later, r.1 = .ok .endOfInput) ↔ l'.pending = none)
    ∧ (mode = .raw → l'.pending = none)
  := by
  obtain ⟨m, hm⟩ := h.exists_isConfigured
  have hscanning := (hm.reset s).1.isScanning_after modes
  obtain ⟨hnil, hraw⟩ := hscanning.remaining_of_endOfInput hend
  have hscanning' := hscanning.isScanning_next mode
  intro l'
  have hrun : ∀ later, (l'.run later).map (·.1) = (tokensAtEnd l'.pending later).map .ok :=
    hscanning'.run_of_remaining_eq_nil hnil
  refine ⟨hrun, ?_, hraw⟩
  constructor
  · intro hfinal
    by_contra hpending
    obtain ⟨k, hk⟩ := Option.ne_none_iff_exists'.mp hpending
    obtain ⟨d, rfl⟩ := hscanning'.pending_eq k hk
    have hfirst := hfinal [.raw] _ (List.mem_singleton_self _)
    rw [next_raw_of_pending hk] at hfirst
    cases hfirst
  · intro hpending later r hr
    have hmem : r.1 ∈ (l'.run later).map (·.1) := List.mem_map_of_mem hr
    rw [hrun, hpending, tokensAtEnd_none, List.map_map, List.mem_map] at hmem
    obtain ⟨_, -, hresult⟩ := hmem
    exact hresult.symm

/-- After the text `a` the delimiter is pending while block mode already returns the end. -/
theorem run_of_endOfInput_braces :
  ∃ l, ofConfig braces = .ok l ∧
    let l' := (l.reset (.ofString "a\x7b\x7b")).2.after [.raw]
    (l'.next .block).1 = .ok .endOfInput ∧ (l'.next .block).2.pending = some (.delimiter .opening)
      ∧ ∀ later, ((l'.next .block).2.run later).map (·.1)
        = (tokensAtEnd (l'.next .block).2.pending later).map .ok
  := by
  refine ⟨_, rfl, by cbv, by cbv, ?_⟩
  apply (Reachable.run_of_endOfInput (.new (show ofConfig braces = .ok _ from rfl)) _ _ _).1
  cbv

/-- The end of the input that block mode returns is not the last token: a delimiter is returned
after it. -/
theorem not_final_braces :
  ∃ l, ofConfig braces = .ok l ∧
    ((l.reset (.ofString "a\x7b\x7b")).2.run [.raw, .block, .raw]).map (·.1)
      = [.ok (.ofText ['a']), .ok .endOfInput, .ok (.empty (.delimiter .opening))]
  := by
  refine ⟨_, rfl, ?_⟩
  cbv

end TemplateLexer.Lexer
