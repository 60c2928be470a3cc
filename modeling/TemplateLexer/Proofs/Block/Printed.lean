import TemplateLexer.Proofs.Lexer.Remaining

/-!
# Printed block code

A token of block code is printed by its spelling or its text, and a string between quotes with the
escape character before every quote and every escape character (`Token.Prints`).  Each printed
token that is followed by a blank or by nothing is read back (`Reading.lexeme_of_prints`), and so
block mode reads back tokens that are printed with blanks between them
(`Lexer.run_of_printsAll`).
-/

namespace TemplateLexer

/-! ### Printing -/

namespace Token

/-- The text of a string between quotes: the escape character stands before every quote and every
escape character. -/
def quotedText (escape quote : Char) (cs : List Char) : List Char :=
  cs.flatMap fun c => if c = quote ∨ c = escape then [escape, c] else [c]

/-- The token is printed with the characters. -/
inductive Prints (escape : Char) : Token → List Char → Prop
  | operator (o : Operator) : Prints escape (.empty (.operator o)) o.spelling.toList
  | symbol {c : Char} {cs : List Char} (hc : c.isAlpha ∨ c = '_')
      (hcs : ∀ d ∈ cs, d.isAlphanum ∨ d = '_') :
      Prints escape ⟨.symbol, String.ofList (c :: cs)⟩ (c :: cs)
  | whole {cs : List Char} (hne : cs ≠ []) (hcs : ∀ c ∈ cs, c.isDigit) :
      Prints escape ⟨.number, String.ofList cs⟩ cs
  | decimal {cs ds : List Char} (hne : cs ≠ []) (hcs : ∀ c ∈ cs, c.isDigit)
      (hds : ∀ d ∈ ds, d.isDigit) :
      Prints escape ⟨.number, String.ofList (cs ++ '.' :: ds)⟩ (cs ++ '.' :: ds)
  | string {quote : Char} (hquote : quote ∈ Lexeme.quotes) (hne : quote ≠ escape)
      (text : String) :
      Prints escape ⟨.string, text⟩ (quote :: quotedText escape quote text.toList ++ [quote])

/-- The tokens are printed one after another, each with blanks after it, which may be missing only
after the last one. -/
inductive PrintsAll (escape : Char) : List Token → List Char → Prop
  | nil : PrintsAll escape [] []
  | cons {t : Token} {ts : List Token} {cs blanks ds : List Char} (h : Prints escape t cs)
      (hblanks : ∀ c ∈ blanks, c ∈ Lexeme.blanks) (hne : ts ≠ [] → blanks ≠ [])
      (hts : PrintsAll escape ts ds) : PrintsAll escape (t :: ts) (cs ++ blanks ++ ds)

end Token

/-! ### First characters -/

section First

variable {c : Char}

/-- No operator has a letter, a digit, an underscore or a blank in its spelling. -/
theorem Operator.of_mem_chars {o : Operator} (h : c ∈ o.chars) :
  ¬ (c.isAlphanum ∨ c = '_') ∧ c ∉ Lexeme.blanks
  := by
  have hall : o.chars.all fun c => ¬ (c.isAlphanum ∨ c = '_') ∧ c ∉ Lexeme.blanks := by
    cases o <;> decide
  apply of_decide_eq_true (List.all_eq_true.mp hall c h)

theorem Operator.exists_chars_eq_cons (o : Operator) :
  ∃ c cs, o.chars = c :: cs
  := by
  cases o <;> exact ⟨_, _, rfl⟩

theorem Operator.exists_mem_chars (h : startsWith c) :
  ∃ o : Operator, c ∈ o.chars
  := by
  obtain ⟨o, -, ho⟩ := List.any_eq_true.mp h
  use o
  apply List.mem_of_mem_head? (of_decide_eq_true ho)

theorem Operator.startsWith_head {o : Operator} {cs : List Char} (h : o.chars = c :: cs) :
  startsWith c
  := by
  apply List.any_eq_true.mpr
  use o, mem_all o
  rw [h]
  simp

theorem Operator.startsWith_eq_false (h : c.isAlphanum ∨ c = '_') :
  startsWith c = false
  := by
  rw [Bool.eq_false_iff]
  intro hstarts
  obtain ⟨o, ho⟩ := exists_mem_chars hstarts
  apply (of_mem_chars ho).1 h

theorem Lexeme.isAlphanum_of_isDigit (h : c.isDigit) :
  c.isAlphanum ∨ c = '_'
  := by
  simp [Char.isAlphanum, h]

theorem Lexeme.isAlphanum_of_isAlpha (h : c.isAlpha ∨ c = '_') :
  c.isAlphanum ∨ c = '_'
  := by
  rcases h with h | rfl
  · simp [Char.isAlphanum, h]
  · right
    rfl

theorem Lexeme.notMem_blanks (h : c.isAlphanum ∨ c = '_') :
  c ∉ blanks
  := by
  intro hblank
  rw [blanks] at hblank
  revert h
  fin_cases hblank <;> decide

theorem Lexeme.isDigit_eq_false (h : c.isAlpha ∨ c = '_') :
  c.isDigit = false
  := by
  rcases h with h | rfl
  · simp only [Char.isAlpha, Char.isUpper, Char.isLower, Bool.or_eq_true, Bool.and_eq_true,
      decide_eq_true_eq, ge_iff_le, UInt32.le_iff_toNat_le] at h
    rw [Bool.eq_false_iff, ne_eq, Char.isDigit, Bool.and_eq_true, decide_eq_true_eq,
      decide_eq_true_eq, ge_iff_le, UInt32.le_iff_toNat_le, UInt32.le_iff_toNat_le]
    have h65 : 'A'.val.toNat = 65 := rfl
    have h97 : 'a'.val.toNat = 97 := rfl
    have h57 : '9'.val.toNat = 57 := rfl
    omega
  · rfl

end First

theorem push_append_ofList (text : String) (c : Char) (cs : List Char) :
  text.push c ++ String.ofList cs = text ++ String.ofList (c :: cs)
  := by
  apply String.ext
  simp

/-! ### Scans of printed characters -/

/-- The characters start with a blank, or there are none. -/
def IsSeparated (cs : List Char) : Prop :=
  ∀ c ∈ cs.head?, c ∈ Lexeme.blanks

namespace Reading

variable {escape : Char} {cs rest : List Char}

/-- A scan that takes no blank is over where the characters are separated. -/
theorem run_of_isSeparated {σ : Type} {step : σ → Char → Verdict σ} {s : σ}
    (hstep : ∀ c ∈ Lexeme.blanks, step s c = .leave s) (h : IsSeparated cs) :
  Verdict.run step s cs = (s, cs)
  := by
  cases cs with
  | nil => rfl
  | cons c cs => rw [Verdict.run, hstep c (h c rfl)]

theorem run_number_append (s : Lexeme.Number) (hcs : ∀ c ∈ cs, c.isDigit) (rest : List Char) :
  Verdict.run Lexeme.number s (cs ++ rest)
    = Verdict.run Lexeme.number ⟨s.text ++ String.ofList cs, s.hasPoint⟩ rest
  := by
  induction cs generalizing s with
  | nil => simp
  | cons c cs ih =>
    rw [List.forall_mem_cons] at hcs
    rw [List.cons_append, Verdict.run, Lexeme.number, if_pos hcs.1]
    dsimp only
    rw [ih _ hcs.2, push_append_ofList]

theorem run_symbol_append (text : String) (hcs : ∀ c ∈ cs, c.isAlphanum ∨ c = '_')
    (rest : List Char) :
  Verdict.run Lexeme.symbol text (cs ++ rest)
    = Verdict.run Lexeme.symbol (text ++ String.ofList cs) rest
  := by
  induction cs generalizing text with
  | nil => simp
  | cons c cs ih =>
    rw [List.forall_mem_cons] at hcs
    rw [List.cons_append, Verdict.run, Lexeme.symbol, if_pos (by simpa using hcs.1)]
    dsimp only
    rw [ih _ hcs.2, push_append_ofList]

theorem run_quoted_start (escape quote : Char) (cs : List Char) :
  Verdict.run (Lexeme.quoted escape quote) .start (quote :: cs)
    = Verdict.run (Lexeme.quoted escape quote) ⟨"", .inside⟩ cs
  := rfl

/-- Between its quotes a string is read up to the closing quote. -/
theorem run_quoted_append {quote : Char} (hne : quote ≠ escape) (text : String)
    (cs rest : List Char) :
  Verdict.run (Lexeme.quoted escape quote) ⟨text, .inside⟩
      (Token.quotedText escape quote cs ++ quote :: rest)
    = (⟨text ++ String.ofList cs, .closed⟩, rest)
  := by
  induction cs generalizing text with
  | nil => simp [Token.quotedText, Verdict.run, Lexeme.quoted]
  | cons c cs ih =>
    rw [Token.quotedText, List.flatMap_cons, ← Token.quotedText, List.append_assoc,
      ← push_append_ofList, ← ih]
    split
    case isTrue hc => simp [Verdict.run, Lexeme.quoted, hne.symm]
    case isFalse hc =>
      rw [not_or] at hc
      simp [Verdict.run, Lexeme.quoted, hc.1, hc.2]

/-! ### Lexemes by their first character -/

section Dispatch

variable {c : Char}

theorem lexeme_of_isDigit (hc : c.isDigit) (cs : List Char) :
  lexeme escape (c :: cs) = number (c :: cs)
  := by
  have hstarts := Operator.startsWith_eq_false (Lexeme.isAlphanum_of_isDigit hc)
  rw [lexeme, hstarts, if_neg Bool.false_ne_true, if_pos hc]

theorem lexeme_of_startsSymbol (hc : c.isAlpha ∨ c = '_') (cs : List Char) :
  lexeme escape (c :: cs) = symbol (c :: cs)
  := by
  have hstarts := Operator.startsWith_eq_false (Lexeme.isAlphanum_of_isAlpha hc)
  have hsymbol : Lexeme.startsSymbol c := by simpa [Lexeme.startsSymbol] using hc
  rw [lexeme, hstarts, if_neg Bool.false_ne_true, Lexeme.isDigit_eq_false hc,
    if_neg Bool.false_ne_true, if_pos hsymbol]

theorem lexeme_of_mem_quotes (hc : c ∈ Lexeme.quotes) (cs : List Char) :
  lexeme escape (c :: cs) = quoted escape c (c :: cs)
  := by
  rw [Lexeme.quotes] at hc
  fin_cases hc <;> rfl

end Dispatch

/-! ### Reading what is printed -/

section Separated

variable (hrest : IsSeparated rest)
include hrest

theorem run_number_of_isSeparated (s : Lexeme.Number) :
  Verdict.run Lexeme.number s rest = (s, rest)
  := by
  apply run_of_isSeparated _ hrest
  intro c hc
  rw [Lexeme.blanks] at hc
  fin_cases hc <;> rfl

theorem run_symbol_of_isSeparated (text : String) :
  Verdict.run Lexeme.symbol text rest = (text, rest)
  := by
  apply run_of_isSeparated _ hrest
  intro c hc
  rw [Lexeme.blanks] at hc
  fin_cases hc <;> rfl

theorem run_operator_of_isSeparated (c : Char) :
  Verdict.run Lexeme.operator [c] rest = ([c], rest)
  := by
  apply run_of_isSeparated _ hrest
  intro d hd
  have hnone : Operator.ofChars? [c, d] = none := by
    rw [Option.eq_none_iff_forall_ne_some]
    intro o ho
    have hmem : d ∈ o.chars := by simp [Operator.ofChars?_eq_some_iff.mp ho]
    apply (Operator.of_mem_chars hmem).2 hd
  simp [Lexeme.operator, hnone]

theorem lexeme_operator_append (o : Operator) :
  lexeme escape (o.chars ++ rest) = ⟨some (.empty (.operator o)), rest⟩
  := by
  obtain ⟨c, cs, hchars⟩ := o.exists_chars_eq_cons
  have hrun : Verdict.run Lexeme.operator [] (c :: cs ++ rest) = (c :: cs, rest) := by
    rcases o.length_chars with hlength | hlength <;> rw [hchars] at hlength
    · obtain rfl : cs = [] := by simpa using hlength
      apply run_operator_of_isSeparated hrest
    · obtain ⟨d, rfl⟩ : ∃ d, cs = [d] := by simpa [List.length_eq_one_iff] using hlength
      have hsome : Operator.ofChars? [c, d] = some o := Operator.ofChars?_eq_some_iff.mpr hchars
      simp [Verdict.run, Lexeme.operator, hsome]
  rw [hchars, List.cons_append, lexeme, if_pos (Operator.startsWith_head hchars), operator,
    ← List.cons_append, hrun, ← hchars, Operator.ofChars?_chars]

theorem lexeme_whole_append (hne : cs ≠ []) (hcs : ∀ c ∈ cs, c.isDigit) :
  lexeme escape (cs ++ rest) = ⟨some ⟨.number, String.ofList cs⟩, rest⟩
  := by
  obtain ⟨c, ds, rfl⟩ := List.exists_cons_of_ne_nil hne
  rw [List.cons_append, lexeme_of_isDigit (hcs c List.mem_cons_self), ← List.cons_append, number,
    run_number_append _ hcs, run_number_of_isSeparated hrest]
  simp [Lexeme.Number.start]

theorem lexeme_decimal_append (hne : cs ≠ []) (hcs : ∀ c ∈ cs, c.isDigit) {ds : List Char}
    (hds : ∀ d ∈ ds, d.isDigit) :
  lexeme escape (cs ++ '.' :: ds ++ rest)
    = ⟨some ⟨.number, String.ofList (cs ++ '.' :: ds)⟩, rest⟩
  := by
  obtain ⟨c, cs, rfl⟩ := List.exists_cons_of_ne_nil hne
  have hpoint (text : String) : Verdict.run Lexeme.number ⟨text, false⟩ ('.' :: ds ++ rest)
      = Verdict.run Lexeme.number ⟨text.push '.', true⟩ (ds ++ rest) := rfl
  rw [List.append_assoc, List.cons_append, lexeme_of_isDigit (hcs c List.mem_cons_self),
    ← List.cons_append, number, run_number_append _ hcs, Lexeme.Number.start, hpoint,
    run_number_append _ hds, run_number_of_isSeparated hrest, push_append_ofList]
  simp [String.append_assoc]

theorem lexeme_symbol_append {c : Char} (hc : c.isAlpha ∨ c = '_')
    (hcs : ∀ d ∈ cs, d.isAlphanum ∨ d = '_') :
  lexeme escape (c :: cs ++ rest) = ⟨some ⟨.symbol, String.ofList (c :: cs)⟩, rest⟩
  := by
  have hword : ∀ d ∈ c :: cs, d.isAlphanum ∨ d = '_' := by
    rw [List.forall_mem_cons]
    exact ⟨Lexeme.isAlphanum_of_isAlpha hc, hcs⟩
  rw [List.cons_append, lexeme_of_startsSymbol hc, ← List.cons_append, symbol,
    run_symbol_append _ hword, run_symbol_of_isSeparated hrest]
  simp

omit hrest in
theorem lexeme_string_append {quote : Char} (hquote : quote ∈ Lexeme.quotes)
    (hne : quote ≠ escape) (text : String) (rest : List Char) :
  lexeme escape (quote :: Token.quotedText escape quote text.toList ++ [quote] ++ rest)
    = ⟨some ⟨.string, text⟩, rest⟩
  := by
  rw [List.cons_append, List.cons_append, lexeme_of_mem_quotes hquote, quoted, List.append_assoc,
    List.singleton_append, run_quoted_start, run_quoted_append hne]
  simp

/-- What a token is printed with is read as that token. -/
theorem lexeme_of_prints {t : Token} (h : t.Prints escape cs) :
  lexeme escape (cs ++ rest) = ⟨some t, rest⟩
  := by
  cases h with
  | operator o =>
    rw [Operator.spelling, String.toList_ofList]
    apply lexeme_operator_append hrest
  | symbol hc hcs => apply lexeme_symbol_append hrest hc hcs
  | whole hne hcs => apply lexeme_whole_append hrest hne hcs
  | decimal hne hcs hds => apply lexeme_decimal_append hrest hne hcs hds
  | string hquote hne text => apply lexeme_string_append hquote hne

end Separated

end Reading

/-! ### Tokens with blanks between them -/

namespace Token

variable {escape : Char} {t : Token} {ts : List Token} {cs : List Char}

/-- No token is printed with a blank in front. -/
theorem Prints.exists_cons (h : t.Prints escape cs) :
  ∃ c ds, cs = c :: ds ∧ c ∉ Lexeme.blanks
  := by
  cases h with
  | operator o =>
    rw [Operator.spelling, String.toList_ofList]
    obtain ⟨c, ds, hchars⟩ := o.exists_chars_eq_cons
    use c, ds, hchars
    apply (Operator.of_mem_chars (hchars ▸ List.mem_cons_self)).2
  | @symbol c cs hc hcs =>
    use c, cs, rfl
    apply Lexeme.notMem_blanks (Lexeme.isAlphanum_of_isAlpha hc)
  | whole hne hcs =>
    obtain ⟨c, ds, rfl⟩ := List.exists_cons_of_ne_nil hne
    use c, ds, rfl
    apply Lexeme.notMem_blanks (Lexeme.isAlphanum_of_isDigit (hcs c List.mem_cons_self))
  | @decimal _ fs hne hcs hds =>
    obtain ⟨c, ds, rfl⟩ := List.exists_cons_of_ne_nil hne
    use c, ds ++ '.' :: fs, rfl
    apply Lexeme.notMem_blanks (Lexeme.isAlphanum_of_isDigit (hcs c List.mem_cons_self))
  | @string quote hquote hne text =>
    use quote, quotedText escape quote text.toList ++ [quote], rfl
    rw [Lexeme.quotes] at hquote
    fin_cases hquote <;> decide

theorem PrintsAll.dropWhile_blanks (h : PrintsAll escape ts cs) :
  cs.dropWhile (· ∈ Lexeme.blanks) = cs
  := by
  cases h with
  | nil => rfl
  | cons h hblanks hne hts =>
    obtain ⟨c, ds, rfl, hc⟩ := h.exists_cons
    rw [List.cons_append, List.cons_append, List.dropWhile_cons_of_neg (by simpa using hc)]

theorem PrintsAll.isSeparated {blanks : List Char} (h : PrintsAll escape ts cs)
    (hblanks : ∀ c ∈ blanks, c ∈ Lexeme.blanks) (hne : ts ≠ [] → blanks ≠ []) :
  IsSeparated (blanks ++ cs)
  := by
  intro c hc
  cases blanks with
  | nil =>
    cases h with
    | nil => cases hc
    | cons => exact absurd rfl (hne (List.cons_ne_nil _ _))
  | cons b blanks =>
    obtain rfl : b = c := Option.some.inj hc
    apply hblanks b List.mem_cons_self

theorem PrintsAll.dropWhile_append {blanks : List Char} (h : PrintsAll escape ts cs)
    (hblanks : ∀ c ∈ blanks, c ∈ Lexeme.blanks) :
  (blanks ++ cs).dropWhile (· ∈ Lexeme.blanks) = cs
  := by
  rw [List.dropWhile_append_of_pos, h.dropWhile_blanks]
  intro c hc
  apply decide_eq_true (hblanks c hc)

end Token

namespace Lexer

variable {l : Lexer} {ts : List Token} {cs : List Char}

theorem next_block_of_lexeme (h : l.cursor.source.IsErrorFree)
    (hremaining : l.cursor.remaining.dropWhile (· ∈ Lexeme.blanks) = cs) {t : Token}
    {rest : List Char} (hlexeme : Reading.lexeme l.escape cs = ⟨some t, rest⟩) :
  (l.next .block).1 = .ok t ∧ (l.next .block).2.cursor.source.IsErrorFree
    ∧ (l.next .block).2.cursor.remaining = rest
  := by
  have hreads := reads_next_block h
  rw [Reading.next, hremaining, hlexeme] at hreads
  exact ⟨hreads.result_eq, hreads.isErrorFree, hreads.remaining_eq⟩

/-- Block mode reads back what remains, from the first character that is no blank. -/
theorem run_block_of_printsAll (hprints : Token.PrintsAll l.escape ts cs)
    (h : l.cursor.source.IsErrorFree)
    (hremaining : l.cursor.remaining.dropWhile (· ∈ Lexeme.blanks) = cs) :
  (l.run (List.replicate (ts.length + 1) .block)).map (·.1)
    = (ts ++ [Token.endOfInput]).map .ok
  := by
  induction ts generalizing l cs with
  | nil =>
    cases hprints
    obtain ⟨hresult, -⟩ := next_block_of_lexeme h hremaining rfl
    rw [List.length_nil, List.replicate_succ, run, List.map_cons, hresult]
    rfl
  | cons t ts ih =>
    cases hprints with
    | @cons _ _ cs blanks ds hprints hblanks hne hts =>
      rw [List.append_assoc] at hremaining
      obtain ⟨hresult, hfree, hrest⟩ := next_block_of_lexeme h hremaining
        (Reading.lexeme_of_prints (hts.isSeparated hblanks hne) hprints)
      have hescape := (sameSettings_next l .block).escape_eq
      rw [← hescape] at hts
      rw [List.length_cons, List.replicate_succ, run, List.map_cons, hresult,
        ih hts hfree (hrest ▸ hts.dropWhile_append hblanks)]
      rfl

/-- Tokens of block code that are printed with blanks between them are read back by block mode, one
after another, and then the input ends. -/
theorem run_of_printsAll (l : Lexer) (h : Token.PrintsAll l.escape ts cs) :
  ((l.reset (.ofChars cs)).2.run (List.replicate (ts.length + 1) .block)).map (·.1)
    = (ts ++ [Token.endOfInput]).map .ok
  := by
  obtain ⟨hfree, hremaining⟩ := remaining_reset l (Source.isErrorFree_ofChars cs)
  rw [Source.leading_ofChars] at hremaining
  have hescape := (sameSettings_reset l (.ofChars cs)).escape_eq
  apply run_block_of_printsAll (hescape.symm ▸ h) hfree
  rw [hremaining, h.dropWhile_blanks]

/-- Settings whose escape character is a letter. -/
def lettered : Config :=
  ⟨"\x7b", "|", "\x7d", 'a', 42000⟩

/-- The symbol `a1`, the operator `&&`, the number `12.` and the string `ba"` are printed as `a1`,
`&&`, `12.` and `"baaa""`, with a blank, a tab and a newline between them. -/
theorem run_of_printsAll_lettered :
  ∃ l, ofConfig lettered = .ok l ∧
    let ts : List Token :=
      [⟨.symbol, "a1"⟩, .empty (.operator .doubleAmpersand), ⟨.number, "12."⟩, ⟨.string, "ba\x22"⟩]
    let cs := ['a', '1'] ++ [' '] ++ (['&', '&'] ++ ['\t'] ++ (['1', '2', '.'] ++ ['\n']
      ++ (['\x22', 'b', 'a', 'a', 'a', '\x22', '\x22'] ++ [] ++ [])))
    Token.PrintsAll l.escape ts cs
      ∧ ((l.reset (.ofChars cs)).2.run (List.replicate (ts.length + 1) .block)).map (·.1)
        = (ts ++ [Token.endOfInput]).map .ok
  := by
  obtain ⟨l, hl⟩ : ∃ l, ofConfig lettered = .ok l := ⟨_, rfl⟩
  obtain ⟨m, -, rfl⟩ := Config.of_ofConfig_eq_ok hl
  use ofAutomaton (.built m) 'a' 42000, hl
  intro ts cs
  have hsymbol : Token.Prints 'a' ⟨.symbol, "a1"⟩ ['a', '1'] :=
    Token.Prints.symbol (.inl rfl) (by simp)
  have hnumber : Token.Prints 'a' ⟨.number, "12."⟩ ['1', '2', '.'] :=
    Token.Prints.decimal (List.cons_ne_nil '1' ['2']) (by simp) (by simp)
  have hquote : '\x22' ∈ Lexeme.quotes := by decide
  have hstring : Token.Prints 'a' ⟨.string, "ba\x22"⟩ _ :=
    Token.Prints.string hquote (by decide) "ba\x22"
  have hprints : Token.PrintsAll 'a' ts cs := by
    apply Token.PrintsAll.cons hsymbol (by simp [Lexeme.blanks]) (by simp)
    apply Token.PrintsAll.cons (.operator .doubleAmpersand) (by simp [Lexeme.blanks]) (by simp)
    apply Token.PrintsAll.cons hnumber (by simp [Lexeme.blanks]) (by simp)
    apply Token.PrintsAll.cons hstring (by simp) (by simp)
    apply Token.PrintsAll.nil
  use hprints
  apply run_of_printsAll _ hprints

end Lexer

end TemplateLexer
