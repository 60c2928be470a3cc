import TemplateLexer.Proofs.Block.Quoted

/-!
# The longest lexeme

Block mode reads as far as it can: a number, a symbol or an operator is the longest start of the
input that has the form of one, and exactly what comes after it remains (`ReadsLongest`).
A scan that only collects characters takes the longest start that its step takes
(`Verdict.Collects.exists_isLongest`), and what the steps of numbers and symbols take are numerals
and words.  So every request in block mode reads the longest lexeme
(`Lexer.readsLongest_next_block`).
-/

namespace TemplateLexer

/-- `p` is the longest start of `cs` with the property `P`. -/
structure IsLongest (P : List Char → Prop) (cs p : List Char) : Prop where
  isPrefix : p <+: cs
  holds : P p
  length_le : ∀ q, q <+: cs → P q → q.length ≤ p.length

/-! ### Scans that collect characters -/

namespace Verdict

variable {σ : Type} {step : σ → Char → Verdict σ} {text : σ → String}

/-- From the state `s` the step takes all the characters. -/
def TakesAll (step : σ → Char → Verdict σ) (s : σ) : List Char → Prop
  | [] => True
  | c :: cs => ∃ s', step s c = .take s' ∧ TakesAll step s' cs

/-- The step takes a character and appends it to the text, or leaves it. -/
structure Collects (step : σ → Char → Verdict σ) (text : σ → String) : Prop where
  leave : ∀ {s c s'}, step s c = .leave s' → text s' = text s
  take : ∀ {s c s'}, step s c = .take s' → text s' = (text s).push c
  not_finish : ∀ {s c s'}, step s c ≠ .finish s'

/-- Before a character that the step leaves nothing is taken. -/
theorem isLongest_nil_of_leave {s s' : σ} {c : Char} (hleave : step s c = .leave s')
    (cs : List Char) :
  IsLongest (TakesAll step s) (c :: cs) []
  := by
  refine ⟨List.nil_prefix, trivial, ?_⟩
  rintro (_ | ⟨d, q⟩) hq htakes
  · rfl
  · obtain ⟨rfl, -⟩ := List.cons_prefix_cons.mp hq
    obtain ⟨s'', htake, -⟩ := htakes
    cases hleave.symm.trans htake

/-- A character that the step takes comes before all that is taken after it. -/
theorem isLongest_cons_of_take {s s' : σ} {c : Char} {cs p : List Char}
    (htake : step s c = .take s') (h : IsLongest (TakesAll step s') cs p) :
  IsLongest (TakesAll step s) (c :: cs) (c :: p)
  := by
  refine ⟨List.cons_prefix_cons.mpr ⟨rfl, h.isPrefix⟩, ⟨s', htake, h.holds⟩, ?_⟩
  rintro (_ | ⟨d, q⟩) hq htakes
  · apply Nat.zero_le
  · obtain ⟨rfl, hq'⟩ := List.cons_prefix_cons.mp hq
    obtain ⟨s'', htake', htakes'⟩ := htakes
    cases htake.symm.trans htake'
    apply Nat.succ_le_succ (h.length_le q hq' htakes')

/-- What a scan collects is the longest start of the input that its step takes. -/
theorem Collects.exists_isLongest (h : Collects step text) (s : σ) (cs : List Char) :
  ∃ p, IsLongest (TakesAll step s) cs p ∧ p ++ (run step s cs).2 = cs
    ∧ text (run step s cs).1 = text s ++ String.ofList p
  := by
  fun_induction run step s cs with
  | case1 s =>
    refine ⟨[], ⟨List.prefix_rfl, trivial, ?_⟩, rfl, by simp⟩
    intro q hq _
    apply hq.length_le
  | case2 s c cs s' hleave =>
    exact ⟨[], isLongest_nil_of_leave hleave cs, rfl, by simp [h.leave hleave]⟩
  | case3 s c cs s' htake ih =>
    obtain ⟨p, hlongest, hrest, htext⟩ := ih
    refine ⟨c :: p, isLongest_cons_of_take htake hlongest, ?_, ?_⟩
    · rw [List.cons_append, hrest]
    · rw [htext, h.take htake, push_append_ofList]
  | case4 s c cs s' hfinish => exact absurd hfinish h.not_finish

end Verdict

/-! ### Words -/

namespace Lexeme

open Verdict

/-- The characters form a symbol, or are none. -/
def IsWord (cs : List Char) : Prop :=
  ∀ c ∈ cs, c.isAlphanum ∨ c = '_'

theorem collects_symbol :
  Collects symbol id
  := by
  constructor
  all_goals
    intro text c text' h
    revert h
    fun_cases symbol text c
    all_goals rintro ⟨⟩
    all_goals rfl

theorem takesAll_symbol_iff (text : String) (cs : List Char) :
  TakesAll symbol text cs ↔ IsWord cs
  := by
  induction cs generalizing text with
  | nil => simp [TakesAll, IsWord]
  | cons c cs ih =>
    rw [TakesAll, IsWord, List.forall_mem_cons]
    by_cases hc : c.isAlphanum ∨ c = '_'
    · simp [symbol, hc, ih, IsWord]
    · simp [symbol, hc]

/-! ### Numerals -/

/-- The characters form a number: digits, and a point with more digits or none after it. -/
inductive IsNumeral : List Char → Prop
  | whole {ds : List Char} (hne : ds ≠ []) (hds : ∀ d ∈ ds, d.isDigit) : IsNumeral ds
  | decimal {ds es : List Char} (hne : ds ≠ []) (hds : ∀ d ∈ ds, d.isDigit)
      (hes : ∀ e ∈ es, e.isDigit) : IsNumeral (ds ++ '.' :: es)

theorem collects_number :
  Collects number Number.text
  := by
  constructor
  all_goals
    intro s c s' h
    revert h
    fun_cases number s c
    all_goals rintro ⟨⟩
    all_goals rfl

/-- Digits are taken, and nothing but the text changes. -/
theorem takesAll_number_append (s : Number) {ds : List Char} (hds : ∀ d ∈ ds, d.isDigit)
    (cs : List Char) :
  TakesAll number s (ds ++ cs) ↔ TakesAll number ⟨s.text ++ String.ofList ds, s.hasPoint⟩ cs
  := by
  induction ds generalizing s with
  | nil => simp
  | cons d ds ih =>
    rw [List.forall_mem_cons] at hds
    rw [List.cons_append, TakesAll, number, if_pos hds.1]
    simp only [Verdict.take.injEq, exists_eq_left']
    rw [ih _ hds.2, push_append_ofList]

theorem takesAll_number_digits (s : Number) {ds : List Char} (hds : ∀ d ∈ ds, d.isDigit) :
  TakesAll number s ds
  := by
  rw [← List.append_nil ds, takesAll_number_append s hds]
  trivial

/-- After the point only digits are taken. -/
theorem isDigit_of_takesAll_number (text : String) {cs : List Char}
    (h : TakesAll number ⟨text, true⟩ cs) :
  ∀ c ∈ cs, c.isDigit
  := by
  induction cs generalizing text with
  | nil => simp
  | cons c cs ih =>
    rw [TakesAll] at h
    by_cases hc : c.isDigit
    · simp only [number, hc, if_true, Verdict.take.injEq, exists_eq_left'] at h
      exact List.forall_mem_cons.mpr ⟨hc, ih _ h⟩
    · simp [number, hc] at h

/-- A scan of a number takes all of a numeral. -/
theorem IsNumeral.takesAll {cs : List Char} (h : IsNumeral cs) :
  TakesAll number .start cs
  := by
  cases h with
  | whole hne hds => apply takesAll_number_digits _ hds
  | @decimal ds es hne hds hes =>
    rw [takesAll_number_append _ hds, TakesAll]
    refine ⟨⟨("" ++ String.ofList ds).push '.', true⟩, rfl, ?_⟩
    apply takesAll_number_digits _ hes

/-- From a digit on a scan of a number takes nothing but numerals. -/
theorem isNumeral_of_takesAll {c : Char} {cs : List Char} (hc : c.isDigit)
    (h : TakesAll number .start (c :: cs)) :
  IsNumeral (c :: cs)
  := by
  have hsplit := List.takeWhile_append_dropWhile (p := Char.isDigit) (l := c :: cs)
  have hds : ∀ d ∈ (c :: cs).takeWhile Char.isDigit, d.isDigit := fun d => List.mem_takeWhile_imp
  have hne : (c :: cs).takeWhile Char.isDigit ≠ [] := by simp [hc]
  rw [← hsplit, takesAll_number_append _ hds] at h
  rw [← hsplit]
  cases hrest : (c :: cs).dropWhile Char.isDigit with
  | nil =>
    rw [List.append_nil]
    apply IsNumeral.whole hne hds
  | cons d es =>
    have hd : d.isDigit = false := by
      have hhead := List.head_dropWhile_not Char.isDigit (l := c :: cs) (by simp [hrest])
      simpa [hrest] using hhead
    rw [hrest, TakesAll] at h
    by_cases hpoint : d = '.'
    · subst hpoint
      apply IsNumeral.decimal hne hds
      obtain ⟨s', hstep, htakes⟩ := h
      cases hstep
      apply isDigit_of_takesAll_number _ htakes
    · simp [number, hd, hpoint] at h

end Lexeme

/-! ### Readings -/

/-- The characters spell a kind of token. -/
def Kind.IsSpelling (cs : List Char) : Prop :=
  ∃ k : Kind, k.spelling? = some (String.ofList cs)

theorem Kind.isSpelling_iff {cs : List Char} :
  IsSpelling cs ↔ ∃ o : Operator, o.chars = cs
  := by
  constructor
  · rintro ⟨k, hk⟩
    cases k with
    | operator o => exact ⟨o, String.ofList_injective (Option.some_inj.mp hk)⟩
    | _ => cases hk
  · rintro ⟨o, rfl⟩
    exact ⟨.operator o, rfl⟩

theorem Operator.isLongest_chars {o : Operator} {cs : List Char} (ho : o.chars <+: cs)
    (hle : ∀ o' : Operator, o'.chars <+: cs → o'.chars.length ≤ o.chars.length) :
  IsLongest Kind.IsSpelling cs o.chars
  := by
  refine ⟨ho, Kind.isSpelling_iff.mpr ⟨o, rfl⟩, ?_⟩
  intro q hq hspelling
  obtain ⟨o', rfl⟩ := Kind.isSpelling_iff.mp hspelling
  apply hle o' hq

/-- Where the input starts with spellings, one of them is the longest. -/
theorem Operator.exists_isLongest {cs : List Char} (h : ∃ o : Operator, o.chars <+: cs) :
  ∃ o : Operator, IsLongest Kind.IsSpelling cs o.chars
  := by
  by_cases hlong : ∃ o : Operator, o.chars <+: cs ∧ o.chars.length = 2
  · obtain ⟨o, ho, hlength⟩ := hlong
    use o
    apply isLongest_chars ho
    intro o' _
    have := length_chars o'
    omega
  · obtain ⟨o, ho⟩ := h
    use o
    apply isLongest_chars ho
    intro o' ho'
    have hshort : o'.chars.length ≠ 2 := fun hlength => hlong ⟨o', ho', hlength⟩
    have := length_chars o'
    have := length_chars o
    omega

namespace Reading

open Lexeme

variable {escape : Char} {c : Char} {cs : List Char}

/-- Two characters are read where they spell an operator. -/
theorem operator_of_chars_eq_pair {o : Operator} {d : Char} (h : o.chars = [c, d])
    (rest : List Char) :
  operator c (d :: rest) = ⟨some (.empty (.operator o)), rest⟩
  := by
  have ho : Operator.ofChars? [c, d] = some o := Operator.ofChars?_eq_some_iff.mpr h
  simp [operator, Verdict.run, Lexeme.operator, ho]

/-- One character is read where it spells an operator and no two spell one. -/
theorem operator_of_chars_eq_singleton {o : Operator} (h : o.chars = [c]) {rest : List Char}
    (hrest : ∀ d ∈ rest.head?, Operator.ofChars? [c, d] = none) :
  operator c rest = ⟨some (.empty (.operator o)), rest⟩
  := by
  have ho : Operator.ofChars? [c] = some o := Operator.ofChars?_eq_some_iff.mpr h
  cases rest with
  | nil => simp [operator, Verdict.run, Lexeme.operator, ho]
  | cons d rest => simp [operator, Verdict.run, Lexeme.operator, ho, hrest d rfl]

/-- The longest spelling is read. -/
theorem lexeme_of_isLongest {o : Operator} (h : IsLongest Kind.IsSpelling cs o.chars) :
  ∃ rest, o.chars ++ rest = cs ∧ lexeme escape cs = ⟨some (.empty (.operator o)), rest⟩
  := by
  obtain ⟨rest, rfl⟩ := h.isPrefix
  use rest, rfl
  obtain ⟨c, cs, hchars⟩ := o.exists_chars_eq_cons
  have hlexeme : lexeme escape (o.chars ++ rest) = operator c (cs ++ rest) := by
    rw [hchars, List.cons_append, lexeme, if_pos (Operator.startsWith_head hchars)]
  have hlength := o.length_chars
  rw [hlexeme]
  rcases cs with _ | ⟨d, _ | ⟨d', cs⟩⟩
  · apply operator_of_chars_eq_singleton hchars
    intro d hd
    by_contra hsome
    obtain ⟨o', ho'⟩ := Option.ne_none_iff_exists'.mp hsome
    obtain ⟨ds, rfl⟩ := List.head?_eq_some_iff.mp hd
    have hchars' := Operator.ofChars?_eq_some_iff.mp ho'
    have hprefix : o'.chars <+: o.chars ++ d :: ds := by simp [hchars, hchars']
    have hle := h.length_le o'.chars hprefix (Kind.isSpelling_iff.mpr ⟨o', rfl⟩)
    simp [hchars, hchars'] at hle
  · apply operator_of_chars_eq_pair hchars
  · simp [hchars] at hlength

/-- From a digit on the longest numeral is read. -/
theorem exists_isLongest_number (hc : c.isDigit) :
  ∃ p rest, IsLongest IsNumeral (c :: cs) p ∧ p ++ rest = c :: cs
    ∧ lexeme escape (c :: cs) = ⟨some ⟨.number, String.ofList p⟩, rest⟩
  := by
  obtain ⟨p, hlongest, hrest, htext⟩ := collects_number.exists_isLongest .start (c :: cs)
  refine ⟨p, _, ⟨hlongest.isPrefix, ?_, ?_⟩, hrest, ?_⟩
  · have hle := hlongest.length_le [c] (by simp) (takesAll_number_digits _ (by simpa using hc))
    obtain ⟨q, hq⟩ := hlongest.isPrefix
    cases p with
    | nil => simp at hle
    | cons d p =>
      obtain ⟨rfl, -⟩ := List.cons_eq_cons.mp hq
      apply isNumeral_of_takesAll hc hlongest.holds
  · intro q hq hnumeral
    apply hlongest.length_le q hq hnumeral.takesAll
  · rw [lexeme_of_isDigit hc, number, htext]
    simp [Number.start]

/-- From a letter or an underscore on the longest word is read. -/
theorem exists_isLongest_symbol (hc : c.isAlpha ∨ c = '_') :
  ∃ p rest, IsLongest IsWord (c :: cs) p ∧ p ++ rest = c :: cs
    ∧ lexeme escape (c :: cs) = ⟨some ⟨.symbol, String.ofList p⟩, rest⟩
  := by
  obtain ⟨p, hlongest, hrest, htext⟩ := collects_symbol.exists_isLongest "" (c :: cs)
  refine ⟨p, _, ⟨hlongest.isPrefix, ?_, ?_⟩, hrest, ?_⟩
  · apply (takesAll_symbol_iff "" p).mp hlongest.holds
  · intro q hq hword
    apply hlongest.length_le q hq ((takesAll_symbol_iff "" q).mpr hword)
  · have htext' : (Verdict.run Lexeme.symbol "" (c :: cs)).1 = "" ++ String.ofList p := htext
    rw [lexeme_of_startsSymbol hc, symbol, htext']
    simp

/-- A character that starts nothing is unknown. -/
theorem token?_of_unknown (hdigit : ¬ c.isDigit) (hsymbol : ¬ (c.isAlpha ∨ c = '_'))
    (hspelling : ∀ q, q <+: c :: cs → ¬ Kind.IsSpelling q) (hquote : c ∉ quotes) :
  (lexeme escape (c :: cs)).token? = some ⟨.unknown, String.singleton c⟩
  := by
  have hstarts : ¬ startsSymbol c := by simpa [startsSymbol] using hsymbol
  rw [lexeme, if_neg hdigit, if_neg hstarts, if_neg (isQuote_iff_mem.not.mpr hquote)]
  split
  · rcases operator_cases c cs with ⟨o, rest, hrest, -⟩ | ⟨-, heq⟩
    · rw [← hrest] at hspelling
      exact absurd (Kind.isSpelling_iff.mpr ⟨o, rfl⟩) (hspelling o.chars (List.prefix_append _ _))
    · rw [heq]
  · rfl

theorem result_lexeme_eq_endOfInput_iff (p : Position) :
  (lexeme escape cs).result p = .ok .endOfInput ↔ cs = []
  := by
  constructor
  · intro h
    rw [result] at h
    cases htoken : (lexeme escape cs).token? with
    | none =>
      rw [htoken] at h
      cases h
    | some t =>
      rw [htoken] at h
      cases h
      apply eq_nil_of_lexeme_eq_endOfInput htoken
  · rintro rfl
    rfl

end Reading

/-! ### Requests -/

/-- The result is that of reading the characters `cs` as far as possible, and `rest` remains of
them. -/
structure ReadsLongest (escape : Char) (cs : List Char) (result : Except Error Token)
    (rest : List Char) : Prop where
  endOfInput_iff : result = .ok .endOfInput ↔ cs = []
  number : ∀ c ∈ cs.head?, c.isDigit → ∃ p, IsLongest Lexeme.IsNumeral cs p
    ∧ result = .ok ⟨.number, String.ofList p⟩ ∧ p ++ rest = cs
  symbol : ∀ c ∈ cs.head?, c.isAlpha ∨ c = '_' → ∃ p, IsLongest Lexeme.IsWord cs p
    ∧ result = .ok ⟨.symbol, String.ofList p⟩ ∧ p ++ rest = cs
  operator : (∃ p, p <+: cs ∧ Kind.IsSpelling p) → ∃ p k, IsLongest Kind.IsSpelling cs p
    ∧ k.spelling? = some (String.ofList p) ∧ result = .ok (.empty k) ∧ p ++ rest = cs
  /-- A string ends at the quote that closes it, and is an error without one. -/
  string : ∀ quote ds, quote ∈ Lexeme.quotes → cs = quote :: ds →
    (∀ text ds', Lexeme.Closes escape quote ds text ds' →
      result = .ok ⟨.string, String.ofList text⟩ ∧ rest = ds')
    ∧ ((∀ text ds', ¬ Lexeme.Closes escape quote ds text ds') →
      ∃ p, result = .error (.unterminatedString p))
  unknown : ∀ c ∈ cs.head?, ¬ c.isDigit → ¬ (c.isAlpha ∨ c = '_') →
    (∀ p, p <+: cs → ¬ Kind.IsSpelling p) → c ∉ Lexeme.quotes →
      result = .ok ⟨.unknown, String.singleton c⟩

/-- A lexeme is read as far as possible. -/
theorem readsLongest_result (escape : Char) (cs : List Char) (p : Position) :
  ReadsLongest escape cs ((Reading.lexeme escape cs).result p) (Reading.lexeme escape cs).rest
  := by
  constructor
  · apply Reading.result_lexeme_eq_endOfInput_iff
  · intro c hc hdigit
    obtain ⟨cs, rfl⟩ := List.head?_eq_some_iff.mp hc
    obtain ⟨q, rest, hlongest, hrest, hlexeme⟩ := Reading.exists_isLongest_number hdigit
    rw [hlexeme]
    exact ⟨q, hlongest, rfl, hrest⟩
  · intro c hc hstarts
    obtain ⟨cs, rfl⟩ := List.head?_eq_some_iff.mp hc
    obtain ⟨q, rest, hlongest, hrest, hlexeme⟩ := Reading.exists_isLongest_symbol hstarts
    rw [hlexeme]
    exact ⟨q, hlongest, rfl, hrest⟩
  · rintro ⟨q, hq, hspelling⟩
    obtain ⟨o, rfl⟩ := Kind.isSpelling_iff.mp hspelling
    obtain ⟨o', hlongest⟩ := Operator.exists_isLongest ⟨o, hq⟩
    obtain ⟨rest, hrest, hlexeme⟩ := Reading.lexeme_of_isLongest hlongest
    rw [hlexeme]
    exact ⟨o'.chars, .operator o', hlongest, rfl, rfl, hrest⟩
  · rintro quote ds hquote rfl
    constructor
    · intro text ds' hcloses
      rw [Reading.lexeme_of_closes hquote hcloses]
      exact ⟨rfl, rfl⟩
    · intro hnot
      rw [Reading.lexeme_of_not_closes hquote hnot]
      exact ⟨p, rfl⟩
  · intro c hc hdigit hsymbol hspelling hquote
    obtain ⟨cs, rfl⟩ := List.head?_eq_some_iff.mp hc
    rw [Reading.result, Reading.token?_of_unknown hdigit hsymbol hspelling hquote]

namespace Lexer

/-- Whatever was requested over an input that does not fail, block mode skips the blanks and reads
what follows as far as possible. -/
theorem readsLongest_next_block (l : Lexer) {source : Source} (h : source.IsErrorFree)
    (modes : List Mode) :
  let l' := (l.reset source).2.after modes
  ReadsLongest l.escape (l'.cursor.remaining.dropWhile (· ∈ Lexeme.blanks)) (l'.next .block).1
    (l'.next .block).2.cursor.remaining
  := by
  intro l'
  have hl' : l'.cursor.source.IsErrorFree :=
    (isFurther_after (remaining_reset l h).1 modes).isErrorFree
  have hescape : l'.escape = l.escape :=
    ((sameSettings_reset l source).trans (sameSettings_after _ modes)).escape_eq
  have hreads := reads_next_block hl'
  rw [hreads.result_eq, hreads.remaining_eq, hescape]
  apply readsLongest_result

/-- The number of ` 12.5.'a\'b'|"c` ends before the second point, the string after that point ends
before the `|`, and the `|` is unknown.  Once raw mode has taken it a string remains that is not
closed. -/
theorem readsLongest_next_block_mixed :
  ∃ l, ofConfig .default = .ok l ∧
    let l' := (l.reset (.ofChars [' ', '1', '2', '.', '5', '.', '\x27', 'a', '\\', '\x27', 'b',
      '\x27', '|', '\x22', 'c'])).2
    let number := l'.after []
    let string := l'.after [.block, .block]
    let unknown := l'.after [.block, .block, .block]
    let unclosed := l'.after [.block, .block, .block, .block, .raw]
    ((number.next .block).1 = .ok ⟨.number, "12.5"⟩
      ∧ (number.next .block).2.cursor.remaining
        = ['.', '\x27', 'a', '\\', '\x27', 'b', '\x27', '|', '\x22', 'c']
      ∧ ReadsLongest l.escape (number.cursor.remaining.dropWhile (· ∈ Lexeme.blanks))
        (number.next .block).1 (number.next .block).2.cursor.remaining)
    ∧ ((string.next .block).1 = .ok ⟨.string, "a\x27b"⟩
      ∧ (string.next .block).2.cursor.remaining = ['|', '\x22', 'c']
      ∧ ReadsLongest l.escape (string.cursor.remaining.dropWhile (· ∈ Lexeme.blanks))
        (string.next .block).1 (string.next .block).2.cursor.remaining)
    ∧ ((unknown.next .block).1 = .ok ⟨.unknown, "|"⟩
      ∧ ReadsLongest l.escape (unknown.cursor.remaining.dropWhile (· ∈ Lexeme.blanks))
        (unknown.next .block).1 (unknown.next .block).2.cursor.remaining)
    ∧ (∃ p, (unclosed.next .block).1 = .error (.unterminatedString p))
      ∧ ReadsLongest l.escape (unclosed.cursor.remaining.dropWhile (· ∈ Lexeme.blanks))
        (unclosed.next .block).1 (unclosed.next .block).2.cursor.remaining
  := by
  have hfree := Source.isErrorFree_ofChars [' ', '1', '2', '.', '5', '.', '\x27', 'a', '\\', '\x27',
    'b', '\x27', '|', '\x22', 'c']
  refine ⟨_, rfl, ?_⟩
  intro l'
  have hreads (modes : List Mode) :
      ReadsLongest _ ((l'.after modes).cursor.remaining.dropWhile (· ∈ Lexeme.blanks))
        ((l'.after modes).next .block).1 ((l'.after modes).next .block).2.cursor.remaining :=
    readsLongest_next_block _ hfree modes
  refine ⟨⟨by cbv, by cbv, hreads _⟩, ?_, ?_, ?_⟩
  · have hremaining : (l'.after [.block, .block]).cursor.remaining.dropWhile (· ∈ Lexeme.blanks)
        = '\x27' :: ['a', '\\', '\x27', 'b', '\x27', '|', '\x22', 'c'] := by cbv
    have hcloses : Lexeme.Closes '\\' '\x27'
        ['a', '\\', '\x27', 'b', '\x27', '|', '\x22', 'c'] ['a', '\x27', 'b'] ['|', '\x22', 'c'] := by
      apply Lexeme.Closes.plain (by decide) (by decide)
      apply Lexeme.Closes.escaped (by decide)
      apply Lexeme.Closes.plain (by decide) (by decide)
      apply Lexeme.Closes.quote
    obtain ⟨hresult, hrest⟩ := ((hreads _).string _ _ (by decide) hremaining).1 _ _ hcloses
    exact ⟨hresult, hrest, hreads _⟩
  · have hremaining : (l'.after [.block, .block, .block]).cursor.remaining.dropWhile
        (· ∈ Lexeme.blanks) = ['|', '\x22', 'c'] := by cbv
    have hspelling : ∀ p, p <+: ['|', '\x22', 'c'] → ¬ Kind.IsSpelling p := by
      intro p hp hspells
      obtain ⟨o, rfl⟩ := Kind.isSpelling_iff.mp hspells
      revert hp
      cases o <;> decide
    have hunknown := (hreads [.block, .block, .block]).unknown '|'
    rw [hremaining] at hunknown
    exact ⟨hunknown rfl (by decide) (by decide) hspelling (by decide), hreads _⟩
  · have hremaining : (l'.after [.block, .block, .block, .block, .raw]).cursor.remaining.dropWhile
        (· ∈ Lexeme.blanks) = '\x22' :: ['c'] := by cbv
    have hnot : ∀ text rest, ¬ Lexeme.Closes '\\' '\x22' ['c'] text rest :=
      Lexeme.not_closes_of_run (by decide)
    exact ⟨((hreads _).string _ _ (by decide) hremaining).2 hnot, hreads _⟩

end Lexer

end TemplateLexer
