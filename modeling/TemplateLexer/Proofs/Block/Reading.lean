import Mathlib.Data.List.Basic
import TemplateLexer.Lexeme

/-!
# Reading block code

The next token of block code depends on nothing but the remaining characters.  A `Reading` is
a token with the characters after it; `Reading.lexeme` is that of characters with no blank in
front, and `Reading.next` skips the blanks before it.  Over a source that does not fail a cursor
reads just that (`Cursor.reads_nextLexeme`), whether or not a character was handed back to it.
-/

namespace TemplateLexer

/-! ### Blanks and quotes -/

namespace Lexeme

/-- The characters that separate tokens of block code. -/
def blanks : List Char :=
  [' ', '\t', '\r', '\n']

/-- The characters that a string of block code may stand between. -/
def quotes : List Char :=
  ['\x27', '\x22']

variable {c : Char}

theorem isBlank_iff_mem :
  isBlank c ↔ c ∈ blanks
  := by
  simp [isBlank, blanks, or_assoc]

theorem isQuote_iff_mem :
  isQuote c ↔ c ∈ quotes
  := by
  simp [isQuote, quotes]

end Lexeme

/-! ### Reading from characters -/

/-- A token, or none for a quoted string that is not closed, and the characters after it. -/
structure Reading where
  token? : Option Token
  rest : List Char
  deriving DecidableEq, Repr

namespace Reading

/-- The reading of the operator that `c` starts before the characters `cs`.  Where the two spell
none, nothing is taken, except at the end of the input. -/
def operator (c : Char) (cs : List Char) : Reading :=
  let r := Verdict.run Lexeme.operator [] (c :: cs)
  match Operator.ofChars? r.1 with
  | some o => ⟨some (.empty (.operator o)), r.2⟩
  | none => ⟨some ⟨.unknown, String.singleton c⟩, if r.2.isEmpty then [] else c :: r.2⟩

/-- The reading of a number. -/
def number (cs : List Char) : Reading :=
  let r := Verdict.run Lexeme.number .start cs
  ⟨some ⟨.number, r.1.text⟩, r.2⟩

/-- The reading of a symbol. -/
def symbol (cs : List Char) : Reading :=
  let r := Verdict.run Lexeme.symbol "" cs
  ⟨some ⟨.symbol, r.1⟩, r.2⟩

/-- The reading of a string that `quote` opens. -/
def quoted (escape quote : Char) (cs : List Char) : Reading :=
  let r := Verdict.run (Lexeme.quoted escape quote) .start cs
  ⟨if r.1.place = .closed then some ⟨.string, r.1.text⟩ else none, r.2⟩

/-- The reading of characters that no blank stands in front of. -/
def lexeme (escape : Char) : List Char → Reading
  | [] => ⟨some .endOfInput, []⟩
  | c :: cs =>
    if Operator.startsWith c then operator c cs
    else if c.isDigit then number (c :: cs)
    else if Lexeme.startsSymbol c then symbol (c :: cs)
    else if Lexeme.isQuote c then quoted escape c (c :: cs)
    else ⟨some ⟨.unknown, String.singleton c⟩, c :: cs⟩

/-- The reading of characters after the blanks in front of them. -/
def next (escape : Char) (cs : List Char) : Reading :=
  lexeme escape (cs.dropWhile (· ∈ Lexeme.blanks))

/-- The result of a request that reads up to the position `p`. -/
def result (r : Reading) (p : Position) : Except Error Token :=
  match r.token? with
  | some t => .ok t
  | none => .error (.unterminatedString p)

end Reading

/-- Skipping blanks leaves the characters from the first on that is none. -/
theorem Verdict.run_blank (cs : List Char) :
  run Lexeme.blank () cs = ((), cs.dropWhile (· ∈ Lexeme.blanks))
  := by
  induction cs with
  | nil => rfl
  | cons c cs ih =>
    by_cases hc : c ∈ Lexeme.blanks
    · simpa [run, Lexeme.blank, Lexeme.isBlank_iff_mem, hc] using ih
    · simp [run, Lexeme.blank, Lexeme.isBlank_iff_mem, hc]

/-- A scan leaves the end of its characters. -/
theorem Verdict.run_snd_suffix {σ : Type} (step : σ → Char → Verdict σ) (s : σ)
    (cs : List Char) :
  (run step s cs).2 <:+ cs
  := by
  fun_induction run step s cs with
  | case1 s => apply List.suffix_rfl
  | case2 s c cs s' hstep => apply List.suffix_rfl
  | case3 s c cs s' hstep ih => apply ih.trans (List.suffix_cons c cs)
  | case4 s c cs s' hstep => apply List.suffix_cons

namespace Reading

/-- The first character of an operator is taken, and the second where the two spell one. -/
theorem run_operator (c : Char) (cs : List Char) :
  Verdict.run Lexeme.operator [] (c :: cs) = ([c], cs)
    ∨ ∃ d ds, cs = d :: ds ∧ (Operator.ofChars? [c, d]).isSome
      ∧ Verdict.run Lexeme.operator [] (c :: cs) = ([c, d], ds)
  := by
  cases cs with
  | nil => exact .inl rfl
  | cons d ds =>
    by_cases hd : (Operator.ofChars? [c, d]).isSome
    · right
      exact ⟨d, ds, rfl, hd, by simp [Verdict.run, Lexeme.operator, hd]⟩
    · left
      simp [Verdict.run, Lexeme.operator, hd]

/-- An operator is read with its spelling, or its first character is unknown and handed back
where the input goes on. -/
theorem operator_cases (c : Char) (cs : List Char) :
  (∃ o rest, o.chars ++ rest = c :: cs ∧ operator c cs = ⟨some (.empty (.operator o)), rest⟩)
    ∨ Operator.ofChars? [c] = none
      ∧ operator c cs = ⟨some ⟨.unknown, String.singleton c⟩, if cs.isEmpty then [] else c :: cs⟩
  := by
  rw [operator]
  rcases run_operator c cs with hrun | ⟨d, ds, rfl, hd, hrun⟩ <;> rw [hrun] <;> dsimp only
  · cases ho : Operator.ofChars? [c] with
    | none => exact .inr ⟨rfl, rfl⟩
    | some o =>
      left
      use o, cs
      rw [Operator.ofChars?_eq_some_iff.mp ho]
      exact ⟨rfl, rfl⟩
  · obtain ⟨o, ho⟩ := Option.isSome_iff_exists.mp hd
    left
    use o, ds
    rw [ho, Operator.ofChars?_eq_some_iff.mp ho]
    exact ⟨rfl, rfl⟩

theorem rest_operator_suffix (c : Char) (cs : List Char) :
  (operator c cs).rest <:+ c :: cs
  := by
  rcases operator_cases c cs with ⟨o, rest, hrest, heq⟩ | ⟨-, heq⟩ <;> rw [heq]
  · rw [← hrest]
    apply List.suffix_append
  · dsimp only
    split
    · apply List.nil_suffix
    · apply List.suffix_rfl

/-- A reading leaves the end of its characters. -/
theorem rest_lexeme_suffix (escape : Char) (cs : List Char) :
  (lexeme escape cs).rest <:+ cs
  := by
  fun_cases lexeme escape cs with
  | case1 => apply List.nil_suffix
  | case2 c cs => apply rest_operator_suffix
  | case3 c cs => apply Verdict.run_snd_suffix
  | case4 c cs => apply Verdict.run_snd_suffix
  | case5 c cs => apply Verdict.run_snd_suffix
  | case6 c cs => apply List.suffix_rfl

theorem rest_next_suffix (escape : Char) (cs : List Char) :
  (next escape cs).rest <:+ cs
  := (rest_lexeme_suffix escape _).trans (List.dropWhile_suffix _)

/-- Only where there are no characters is the end of the input read. -/
theorem eq_nil_of_lexeme_eq_endOfInput {escape : Char} {cs : List Char}
    (h : (lexeme escape cs).token? = some .endOfInput) :
  cs = []
  := by
  revert h
  fun_cases lexeme escape cs with
  | case1 => exact fun _ => rfl
  | case2 c cs =>
    rcases operator_cases c cs with ⟨o, rest, -, heq⟩ | ⟨-, heq⟩ <;>
      simp [heq, Token.endOfInput, Token.empty]
  | case3 c cs => simp [number, Token.endOfInput, Token.empty]
  | case4 c cs => simp [symbol, Token.endOfInput, Token.empty]
  | case5 c cs => simp [quoted, Token.endOfInput, Token.empty]
  | case6 c cs => simp [Token.endOfInput, Token.empty]

end Reading

/-! ### Handing back -/

namespace Cursor

variable {cursor : Cursor}

/-- The cursor holds no character that was handed back. -/
def IsPlain (cursor : Cursor) : Prop :=
  ∀ c handedBack, cursor.look = .on c handedBack → handedBack = none

theorem isPlain_advance (cursor : Cursor) :
  cursor.advance.2.IsPlain
  := by
  obtain ⟨look, source, position⟩ := cursor
  intro c handedBack h
  match look, source with
  | .ended, _ => cases h
  | .on _ (some _), _ => cases h; rfl
  | .on _ none, [] => cases h
  | .on _ none, .char _ :: _ => cases h; rfl
  | .on _ none, .ended :: _ => cases h
  | .on _ none, .failed _ :: _ => cases h; rfl

theorem isPlain_of_advance_eq {next : Cursor} {result : Except IoError Unit}
    (h : cursor.advance = (result, next)) :
  next.IsPlain
  := by
  have := isPlain_advance cursor
  rwa [h] at this

/-- A scan that starts without a character handed back ends without one. -/
theorem isPlain_scan {σ : Type} (step : σ → Char → Verdict σ) (s : σ) (h : cursor.IsPlain) :
  (scan step s cursor).2.IsPlain
  := by
  fun_induction scan step s cursor with
  | case1 s cursor hlook => exact h
  | case2 s cursor c handedBack hlook s' hstep => exact h
  | case3 s cursor c handedBack hlook s' hstep e next hadvance =>
    apply isPlain_of_advance_eq hadvance
  | case4 s cursor c handedBack hlook s' hstep next hadvance ih =>
    apply ih (isPlain_of_advance_eq hadvance)
  | case5 s cursor c handedBack hlook s' hstep e next hadvance =>
    apply isPlain_of_advance_eq hadvance
  | case6 s cursor c handedBack hlook s' hstep next hadvance =>
    apply isPlain_of_advance_eq hadvance

/-- The first character of an operator is taken, and so what was handed back before. -/
theorem isPlain_scan_operator (cursor : Cursor) :
  (cursor.scan Lexeme.operator []).2.IsPlain
  := by
  fun_cases scan Lexeme.operator [] cursor with
  | case1 hlook =>
    intro c handedBack h
    rw [hlook] at h
    cases h
  | case2 c handedBack hlook s' hstep => cases hstep
  | case3 c handedBack hlook s' hstep e next hadvance => apply isPlain_of_advance_eq hadvance
  | case4 c handedBack hlook s' hstep next hadvance =>
    apply isPlain_scan _ _ (isPlain_of_advance_eq hadvance)
  | case5 c handedBack hlook s' hstep e next hadvance => apply isPlain_of_advance_eq hadvance
  | case6 c handedBack hlook s' hstep next hadvance => apply isPlain_of_advance_eq hadvance

/-- A character handed back stands in front of the remaining input, unless that has ended. -/
theorem remaining_handBack (h : cursor.IsPlain) (c : Char) :
  (cursor.handBack c).remaining = if cursor.remaining.isEmpty then [] else c :: cursor.remaining
  := by
  obtain ⟨look, source, position⟩ := cursor
  cases look with
  | ended => rfl
  | on d handedBack =>
    obtain rfl := h d handedBack rfl
    rfl

theorem source_handBack (cursor : Cursor) (c : Char) :
  (cursor.handBack c).source = cursor.source
  := by
  rw [handBack]
  cases cursor.look <;> rfl

/-! ### Reading with a cursor -/

/-- The cursor reads `r`: the token, or the error of a quoted string that is not closed, and the
characters that it leaves. -/
structure Reads (step : Except Error Token × Cursor) (r : Reading) : Prop where
  result_eq : step.1 = r.result step.2.position
  isErrorFree : step.2.source.IsErrorFree
  remaining_eq : step.2.remaining = r.rest

theorem Reads.token?_eq {step : Except Error Token × Cursor} {r : Reading} (h : Reads step r)
    {t : Token} (ht : step.1 = .ok t) :
  r.token? = some t
  := by
  have hresult := h.result_eq
  rw [ht, Reading.result] at hresult
  cases htoken : r.token? with
  | none =>
    rw [htoken] at hresult
    cases hresult
  | some t' =>
    rw [htoken] at hresult
    rw [Except.ok.inj hresult]

variable (h : cursor.source.IsErrorFree)
include h

/-- A scan over a source that does not fail, with its result and the cursor after it. -/
theorem exists_scan_eq {σ : Type} (step : σ → Char → Verdict σ) (s : σ) :
  ∃ next : Cursor, cursor.scan step s = (.ok (Verdict.run step s cursor.remaining).1, next)
    ∧ next.source.IsErrorFree ∧ next.remaining = (Verdict.run step s cursor.remaining).2
  := by
  obtain ⟨hresult, hfree, hremaining⟩ := scan_of_isErrorFree step s h
  exact ⟨_, Prod.ext hresult rfl, hfree, hremaining⟩

theorem reads_operator {c : Char} {cs : List Char} (hremaining : cursor.remaining = c :: cs) :
  Reads (cursor.operator c) (.operator c cs)
  := by
  obtain ⟨next, hscan, hfree, hrest⟩ := exists_scan_eq h Lexeme.operator []
  have hplain := isPlain_scan_operator cursor
  rw [hscan] at hplain
  rw [hremaining] at hscan hrest
  rw [operator, Reading.operator, hscan]
  dsimp only
  cases Operator.ofChars? (Verdict.run Lexeme.operator [] (c :: cs)).1 with
  | some o => exact ⟨rfl, hfree, hrest⟩
  | none =>
    refine ⟨rfl, ?_, ?_⟩
    · rw [source_handBack]
      apply hfree
    · rw [remaining_handBack hplain, hrest]

theorem reads_number :
  Reads cursor.number (.number cursor.remaining)
  := by
  obtain ⟨next, hscan, hfree, hrest⟩ := exists_scan_eq h Lexeme.number .start
  rw [number, hscan]
  exact ⟨rfl, hfree, hrest⟩

theorem reads_symbol :
  Reads cursor.symbol (.symbol cursor.remaining)
  := by
  obtain ⟨next, hscan, hfree, hrest⟩ := exists_scan_eq h Lexeme.symbol ""
  rw [symbol, hscan]
  exact ⟨rfl, hfree, hrest⟩

theorem reads_quoted (escape quote : Char) :
  Reads (cursor.quoted escape quote) (.quoted escape quote cursor.remaining)
  := by
  obtain ⟨next, hscan, hfree, hrest⟩ := exists_scan_eq h (Lexeme.quoted escape quote) .start
  rw [quoted, Reading.quoted, hscan]
  dsimp only
  split
  · exact ⟨rfl, hfree, hrest⟩
  · exact ⟨rfl, hfree, hrest⟩

theorem reads_lexeme (escape : Char) :
  Reads (cursor.lexeme escape) (.lexeme escape cursor.remaining)
  := by
  rw [lexeme]
  cases hlook : cursor.look with
  | ended =>
    have hremaining : cursor.remaining = [] := by rw [remaining, hlook]
    rw [hremaining]
    exact ⟨rfl, h, hremaining⟩
  | on c handedBack =>
    have hremaining := remaining_of_look hlook
    rw [hremaining, Reading.lexeme, ← hremaining]
    dsimp only
    split
    · apply reads_operator h hremaining
    split
    · apply reads_number h
    split
    · apply reads_symbol h
    split
    · apply reads_quoted h
    · exact ⟨rfl, h, rfl⟩

/-- Over a source that does not fail the next token of block code is that of the remaining
characters. -/
theorem reads_nextLexeme (escape : Char) :
  Reads (cursor.nextLexeme escape) (.next escape cursor.remaining)
  := by
  obtain ⟨next, hscan, hfree, hrest⟩ := exists_scan_eq h Lexeme.blank ()
  rw [Verdict.run_blank] at hscan hrest
  dsimp only at hrest
  rw [nextLexeme, Reading.next, hscan, ← hrest]
  apply reads_lexeme hfree

end Cursor

end TemplateLexer
