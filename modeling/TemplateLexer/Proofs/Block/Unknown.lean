import Mathlib.Data.List.DropRight
import TemplateLexer.Proofs.Raw.Shortest

/-!
# Characters that start no token

Block mode returns a character that starts no token of block code, but does not take it: the
lexer stands on it, another request in block mode returns it again, and raw mode reads from it on
(`Lexer.StandsOn`).  Only a lone `&` or `|` at the end of the input is taken
(`Lexer.next_block_of_unknown`).
-/

namespace TemplateLexer

/-- A character that starts an operator but spells none is `&` or `|`. -/
theorem Operator.eq_of_startsWith {c : Char} (hstarts : startsWith c)
    (hnone : ofChars? [c] = none) :
  c = '&' ∨ c = '|'
  := by
  obtain ⟨o, -, ho⟩ := List.any_eq_true.mp hstarts
  revert hnone
  cases o <;> cases of_decide_eq_true ho <;> decide

namespace Reading

/-- The input is a `&` or a `|` that is not doubled, and nothing after it. -/
def IsLone (cs : List Char) : Prop :=
  cs = ['&'] ∨ cs = ['|']

instance (cs : List Char) : Decidable (IsLone cs) :=
  inferInstanceAs (Decidable (_ ∨ _))

/-- An unknown character is the first one, and it is left unless nothing follows a character that
would have to be doubled. -/
theorem lexeme_of_unknown {escape : Char} {cs : List Char} {text : String}
    (h : (lexeme escape cs).token? = some ⟨.unknown, text⟩) :
  ∃ c ds, cs = c :: ds ∧ text = String.singleton c
    ∧ lexeme escape cs = ⟨some ⟨.unknown, text⟩, if IsLone cs then [] else cs⟩
  := by
  revert h
  fun_cases lexeme escape cs with
  | case1 => simp [Token.endOfInput, Token.empty]
  | case2 c ds hstarts =>
    rcases operator_cases c ds with ⟨o, rest, -, heq⟩ | ⟨hnone, heq⟩
    · simp [heq, Token.empty]
    · intro htoken
      rw [heq, Option.some_inj, Token.mk.injEq] at htoken
      obtain ⟨-, rfl⟩ := htoken
      have hlone : IsLone (c :: ds) ↔ ds.isEmpty := by
        rcases Operator.eq_of_startsWith hstarts hnone with rfl | rfl <;> simp [IsLone]
      use c, ds, rfl, rfl
      simp [heq, hlone]
  | case3 c ds => simp [number]
  | case4 c ds => simp [symbol]
  | case5 c ds => simp [quoted]
  | case6 c ds hstarts =>
    intro htoken
    rw [Option.some_inj, Token.mk.injEq] at htoken
    obtain ⟨-, rfl⟩ := htoken
    have hlone : ¬ IsLone (c :: ds) := by
      rintro (heq | heq) <;> cases heq <;> exact hstarts (by decide)
    use c, ds, rfl, rfl
    rw [if_neg hlone]

/-- Blanks are skipped once. -/
theorem next_dropWhile_blanks (escape : Char) (cs : List Char) :
  next escape (cs.dropWhile (· ∈ Lexeme.blanks)) = next escape cs
  := by
  rw [next, List.dropWhile_idempotent, next]

end Reading

namespace Lexer

variable {l : Lexer}

/-- The lexer stands on the character `c`, which starts no token of block code, with `cs` after
it: block mode returns `c` and stays, and raw mode reads from `c` on. -/
structure StandsOn (l : Lexer) (c : Char) (cs : List Char) : Prop where
  remaining_eq : l.cursor.remaining = c :: cs
  next_block : (l.next .block).1 = .ok ⟨.unknown, String.singleton c⟩
  remaining_next_block : (l.next .block).2.cursor.remaining = c :: cs
  /-- The first character that raw mode reads is `c`. -/
  next_raw : ∀ m, l.automaton = .built m → l.pending = none →
    let r := Verdict.run (Chunk.step m l.escape l.maxTextChunk) .start (c :: cs)
    (l.next .raw).1 = .ok (r.1.close m l.escape).token ∧ (l.next .raw).2.cursor.remaining = r.2
  /-- Of the patterns that stand here the shortest is recognised. -/
  finds : ∀ patterns m, Automaton.Reachable patterns (.built m) → l.automaton = .built m →
    l.pending = none → ∀ p, IsShortestStart patterns (c :: cs) p → l.escape ∉ p.1.toList →
    (l.next .raw).1 = .ok (.empty p.2)

/-- A lexer stands on a character that block mode would return and leave. -/
theorem standsOn_of_next (h : l.cursor.source.IsErrorFree) {c : Char} {cs : List Char}
    (hremaining : l.cursor.remaining = c :: cs)
    (hnext : Reading.next l.escape (c :: cs) = ⟨some ⟨.unknown, String.singleton c⟩, c :: cs⟩) :
  l.StandsOn c cs
  := by
  have hreads := reads_next_block h
  rw [hremaining, hnext] at hreads
  refine ⟨hremaining, hreads.result_eq, hreads.remaining_eq, ?_, ?_⟩
  · intro m hm hpending
    obtain ⟨hresult, -, -, hrest⟩ := next_raw_of_isErrorFree h hm hpending
    rw [hremaining] at hresult hrest
    exact ⟨hresult, hrest⟩
  · intro patterns m hreachable hm hpending p hp hescape
    rw [← hremaining] at hp
    apply (next_raw_of_isShortestStart hreachable.holds h hm hpending hp _ hescape).1
    apply hreachable.ne_empty p hp.mem

/-- Whatever was requested over an input that does not fail: a character that block mode returns
as unknown is the first one that is no blank, and the lexer stands on it afterwards.  Only when it
is a lone `&` or `|` that ends the input it is taken, and the end of the input is next. -/
theorem next_block_of_unknown (l : Lexer) {source : Source} (h : source.IsErrorFree)
    (modes : List Mode) {text : String}
    (hunknown : (((l.reset source).2.after modes).next .block).1 = .ok ⟨.unknown, text⟩) :
  let l' := (l.reset source).2.after modes
  ∃ c cs, l'.cursor.remaining.dropWhile (· ∈ Lexeme.blanks) = c :: cs ∧ text = String.singleton c
    ∧ if Reading.IsLone (c :: cs) then
        (l'.next .block).2.cursor.remaining = []
          ∧ ((l'.next .block).2.next .block).1 = .ok .endOfInput
      else (l'.next .block).2.StandsOn c cs
  := by
  intro l'
  have hl' : l'.cursor.source.IsErrorFree :=
    (isFurther_after (remaining_reset l h).1 modes).isErrorFree
  have hreads := reads_next_block hl'
  have hfurther := isFurther_next hl' .block
  obtain ⟨c, cs, hblank, rfl, hnext⟩ := Reading.lexeme_of_unknown (hreads.token?_eq hunknown)
  have hremaining := hreads.remaining_eq
  rw [Reading.next, hnext, hblank] at hremaining
  dsimp only at hremaining
  use c, cs, hblank, rfl
  split_ifs with hlone
  · rw [if_pos hlone] at hremaining
    have hend := (reads_next_block hfurther.isErrorFree).result_eq
    rw [hremaining] at hend
    exact ⟨hremaining, hend⟩
  · rw [if_neg hlone] at hremaining
    apply standsOn_of_next hfurther.isErrorFree hremaining
    rw [(sameSettings_next l' .block).escape_eq, ← hblank, Reading.next_dropWhile_blanks,
      Reading.next, hnext, hblank, if_neg hlone]

/-- The default settings separate the parts of a block by `|`: after a blank the lexer stands on
it, and raw mode returns the delimiter. -/
theorem next_block_of_unknown_pipe :
  ∃ l m, ofConfig .default = .ok l ∧ l.automaton = .built m ∧
    let l' := (l.reset (.ofString " |x")).2.after []
    (l'.next .block).1 = .ok ⟨.unknown, "|"⟩ ∧ (l'.next .block).2.StandsOn '|' ['x']
      ∧ ((l'.next .block).2.next .raw).1 = .ok (.empty (.delimiter .continuation))
  := by
  refine ⟨_, _, rfl, rfl, ?_⟩
  intro l'
  have hunknown : (l'.next .block).1 = .ok ⟨.unknown, "|"⟩ := by cbv
  have hremaining : l'.cursor.remaining.dropWhile (· ∈ Lexeme.blanks) = ['|', 'x'] := by cbv
  obtain ⟨c, cs, hblank, -, hstands⟩ :=
    next_block_of_unknown _ (Source.isErrorFree_ofString " |x") [] hunknown
  obtain ⟨rfl, rfl⟩ := List.cons_eq_cons.mp (hremaining.symm.trans hblank)
  rw [if_neg (by decide)] at hstands
  exact ⟨hunknown, hstands, by cbv⟩

/-- A lone `|` that ends the input does not remain, and the end of the input follows it. -/
theorem not_standsOn_lone :
  ∃ l, ofConfig .default = .ok l ∧
    let l' := (l.reset (.ofString "|")).2
    (l'.next .block).1 = .ok ⟨.unknown, "|"⟩
      ∧ l'.cursor.remaining.dropWhile (· ∈ Lexeme.blanks) = ['|']
      ∧ (l'.next .block).2.cursor.remaining = []
      ∧ ((l'.next .block).2.next .block).1 = .ok .endOfInput
      ∧ ∀ cs, ¬ (l'.next .block).2.StandsOn '|' cs
  := by
  refine ⟨_, rfl, ?_⟩
  intro l'
  have hnil : (l'.next .block).2.cursor.remaining = [] := by cbv
  refine ⟨by cbv, by cbv, hnil, by cbv, ?_⟩
  intro cs hstands
  cases hnil.symm.trans hstands.remaining_eq

end Lexer

end TemplateLexer
