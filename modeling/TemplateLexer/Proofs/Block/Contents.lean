import TemplateLexer.Proofs.Block.Reading
import TemplateLexer.Proofs.Config.Automaton
import TemplateLexer.Proofs.Cursor.Taken

/-!
# The contents of tokens

The content of a token is what it takes from the input: its text, or the characters that spell
its delimiter or operator, but nothing for an unknown character, which is left.  A request for
block code takes characters from its cursor, and what it returns has no others as its content
(`Cursor.exists_cuts_nextLexeme`), whatever its source delivers on the way.  A character that is
handed back is taken by no one, and an unknown one is returned again without the source being
asked (`Cursor.nextLexeme_of_unknown`).
-/

namespace TemplateLexer

/-- The characters that a token takes from the input. -/
def Token.content (config : Config) (t : Token) : List Char :=
  match t.kind with
  | .unknown => []
  | .delimiter d => config.spelling d
  | .operator o => o.chars
  | _ => t.text.toList

/-! ### Texts -/

namespace Lexeme

theorem keeps_number (s : Number) (c : Char) :
  (number s c).Keeps (fun s' cs => s'.text.toList.Sublist cs) s.text.toList c
  := by
  rw [number]
  split_ifs <;> simp [Verdict.Keeps]

theorem keeps_symbol (text : String) (c : Char) :
  (symbol text c).Keeps (fun text' cs => text'.toList.Sublist cs) text.toList c
  := by
  rw [symbol]
  split_ifs <;> simp [Verdict.Keeps]

/-- The quotes and the escape characters are taken, but not into the text. -/
theorem keeps_quoted (escape quote : Char) (s : Quoted) (c : Char) :
  (quoted escape quote s c).Keeps (fun s' cs => s'.text.toList.Sublist cs) s.text.toList c
  := by
  rw [quoted]
  cases s.place with
  | opening => simp [Verdict.Keeps]
  | inside =>
    dsimp only
    split_ifs <;> simp [Verdict.Keeps]
  | escaping => simp [Verdict.Keeps]
  | closed => simp [Verdict.Keeps]

end Lexeme

/-! ### Requests -/

namespace Cursor

/-- A request takes the characters `cs`; the token that it returns has no others as its content. -/
structure Cuts (config : Config) (cursor : Cursor) (step : Except Error Token × Cursor)
    (cs : List Char) : Prop where
  takes : cursor.Takes cs step.2
  content_sublist : ∀ t, step.1 = .ok t → (t.content config).Sublist cs

variable {config : Config} {cursor next : Cursor} {cs : List Char} {c : Char}
  {handedBack : Option Char}

theorem Takes.cuts_error (h : cursor.Takes cs next) (e : Error) :
  cursor.Cuts config (.error e, next) cs
  := by
  constructor
  · exact h
  · rintro _ ⟨⟩

theorem Takes.cuts_ok (h : cursor.Takes cs next) {t : Token}
    (ht : (t.content config).Sublist cs) :
  cursor.Cuts config (.ok t, next) cs
  := by
  constructor
  · exact h
  · rintro _ ⟨⟩
    exact ht

/-! ### Operators -/

/-- A character that is handed back is no longer taken, unless the input has ended after it. -/
theorem exists_takes_handBack (hlook : cursor.look = .on c handedBack)
    (hadvance : cursor.advance = (.ok (), next)) :
  ∃ cs, cursor.Takes cs (next.handBack c)
  := by
  have htakes := takes_of_advance_eq_ok hlook hadvance
  have hplain := isPlain_of_advance_eq hadvance
  rw [handBack]
  cases hnext : next.look with
  | ended => exact ⟨[c], htakes⟩
  | on d handedBack' =>
    obtain rfl := hplain d handedBack' hnext
    use []
    constructor
    · apply htakes.suffix
    · have hchars := htakes.chars_eq
      rw [hnext] at hchars
      exact hchars
    · apply htakes.position_eq

theorem scan_operator_of_on (hlook : cursor.look = .on c handedBack) :
  cursor.scan Lexeme.operator [] =
    match cursor.advance with
    | (.error e, next) => (.error e, next)
    | (.ok (), next) => next.scan Lexeme.operator [c]
  := scan_of_on Lexeme.operator [] hlook

/-- The first character of an operator is taken, and the second where the two spell one. -/
theorem scan_operator_cases (hlook : cursor.look = .on c handedBack) :
  (∃ e next cs, cursor.scan Lexeme.operator [] = (.error e, next) ∧ cursor.Takes cs next)
    ∨ (∃ o next, cursor.scan Lexeme.operator [] = (.ok (Operator.chars o), next)
      ∧ cursor.Takes o.chars next)
    ∨ ∃ next, cursor.scan Lexeme.operator [] = (.ok [c], next) ∧ cursor.advance = (.ok (), next)
  := by
  rw [scan_operator_of_on hlook]
  rcases hadvance : cursor.advance with ⟨e | _, next⟩
  · exact .inl ⟨e, next, [], rfl, (takes_of_advance_eq_error hadvance).1⟩
  · have htakes := takes_of_advance_eq_ok hlook hadvance
    dsimp only
    cases hnext : next.look with
    | ended => exact .inr (.inr ⟨next, scan_of_ended _ _ hnext, rfl⟩)
    | on d handedBack =>
      rw [scan_of_on _ _ hnext]
      cases ho : Operator.ofChars? [c, d] with
      | none =>
        have hsecond : Lexeme.operator [c] d = .leave [c] := by simp [Lexeme.operator, ho]
        rw [hsecond]
        exact .inr (.inr ⟨next, rfl, rfl⟩)
      | some o =>
        have hsecond : Lexeme.operator [c] d = .finish [c, d] := by simp [Lexeme.operator, ho]
        have hchars := Operator.ofChars?_eq_some_iff.mp ho
        rw [hsecond]
        rcases hadvance' : next.advance with ⟨e | _, last⟩
        · exact .inl ⟨e, last, _, rfl, htakes.trans (takes_of_advance_eq_error hadvance').1⟩
        · right
          left
          rw [← hchars]
          use o, last, rfl
          rw [hchars]
          apply htakes.trans (takes_of_advance_eq_ok hnext hadvance')

/-- An operator is read with its spelling, or its first character is unknown and handed back. -/
theorem operator_cases (hlook : cursor.look = .on c handedBack) :
  (∃ e next cs, cursor.operator c = (.error e, next) ∧ cursor.Takes cs next)
    ∨ (∃ o next, cursor.operator c = (.ok (.empty (.operator o)), next)
      ∧ cursor.Takes o.chars next)
    ∨ ∃ next, cursor.operator c = (.ok ⟨.unknown, String.singleton c⟩, next.handBack c)
      ∧ cursor.advance = (.ok (), next)
  := by
  rw [operator]
  rcases scan_operator_cases hlook with ⟨e, next, cs, hscan, htakes⟩ | ⟨o, next, hscan, htakes⟩ |
    ⟨next, hscan, hadvance⟩ <;> rw [hscan] <;> dsimp only
  · exact .inl ⟨_, next, cs, rfl, htakes⟩
  · rw [Operator.ofChars?_chars]
    exact .inr (.inl ⟨o, next, rfl, htakes⟩)
  · cases ho : Operator.ofChars? [c] with
    | some o =>
      have htakes := takes_of_advance_eq_ok hlook hadvance
      rw [← Operator.ofChars?_eq_some_iff.mp ho] at htakes
      exact .inr (.inl ⟨o, next, rfl, htakes⟩)
    | none => exact .inr (.inr ⟨next, rfl, hadvance⟩)

theorem exists_cuts_operator (config : Config) (hlook : cursor.look = .on c handedBack) :
  ∃ cs, cursor.Cuts config (cursor.operator c) cs
  := by
  rcases operator_cases hlook with ⟨e, next, cs, h, htakes⟩ | ⟨o, next, h, htakes⟩ |
    ⟨next, h, hadvance⟩ <;> rw [h]
  · exact ⟨cs, htakes.cuts_error e⟩
  · exact ⟨o.chars, htakes.cuts_ok (List.Sublist.refl _)⟩
  · obtain ⟨cs, htakes⟩ := exists_takes_handBack hlook hadvance
    exact ⟨cs, htakes.cuts_ok (List.nil_sublist _)⟩

/-! ### Numbers, symbols and strings -/

/-- A scan that puts no character into its text but those that it takes. -/
theorem exists_takes_scan_text {σ : Type} {step : σ → Char → Verdict σ} (text : σ → String)
    (hstep : ∀ s c, (step s c).Keeps (fun s' cs => (text s').toList.Sublist cs) (text s).toList c)
    {s : σ} (hs : text s = "") (cursor : Cursor) :
  ∃ result next cs, cursor.scan step s = (result, next) ∧ cursor.Takes cs next
    ∧ ∀ s', result = .ok s' → (text s').toList.Sublist cs
  := by
  apply exists_takes_scan_of_keeps _ (by rw [hs]; apply List.nil_sublist)
  intro s cs hcs c
  have hkeeps := hstep s c
  cases hverdict : step s c with rw [hverdict] at hkeeps
  | leave s' => apply List.Sublist.trans hkeeps hcs
  | take s' => apply List.Sublist.trans hkeeps (hcs.append (List.Sublist.refl [c]))
  | finish s' => apply List.Sublist.trans hkeeps (hcs.append (List.Sublist.refl [c]))

theorem exists_cuts_number (config : Config) (cursor : Cursor) :
  ∃ cs, cursor.Cuts config cursor.number cs
  := by
  obtain ⟨e | s, next, cs, hscan, htakes, hresult⟩ :=
    exists_takes_scan_text Lexeme.Number.text Lexeme.keeps_number (s := .start) rfl cursor
  · rw [number, hscan]
    exact ⟨cs, htakes.cuts_error _⟩
  · rw [number, hscan]
    exact ⟨cs, htakes.cuts_ok (hresult s rfl)⟩

theorem exists_cuts_symbol (config : Config) (cursor : Cursor) :
  ∃ cs, cursor.Cuts config cursor.symbol cs
  := by
  obtain ⟨e | text, next, cs, hscan, htakes, hresult⟩ :=
    exists_takes_scan_text id Lexeme.keeps_symbol rfl cursor
  · rw [symbol, hscan]
    exact ⟨cs, htakes.cuts_error _⟩
  · rw [symbol, hscan]
    exact ⟨cs, htakes.cuts_ok (hresult text rfl)⟩

theorem exists_cuts_quoted (config : Config) (cursor : Cursor) (escape quote : Char) :
  ∃ cs, cursor.Cuts config (cursor.quoted escape quote) cs
  := by
  obtain ⟨e | s, next, cs, hscan, htakes, hresult⟩ :=
    exists_takes_scan_text Lexeme.Quoted.text (Lexeme.keeps_quoted escape quote) (s := .start) rfl
      cursor
  · rw [quoted, hscan]
    exact ⟨cs, htakes.cuts_error _⟩
  · rw [quoted, hscan]
    dsimp only
    split_ifs
    · exact ⟨cs, htakes.cuts_ok (hresult s rfl)⟩
    · exact ⟨cs, htakes.cuts_error _⟩

/-! ### The next lexeme -/

theorem exists_cuts_lexeme (config : Config) (cursor : Cursor) (escape : Char) :
  ∃ cs, cursor.Cuts config (cursor.lexeme escape) cs
  := by
  have hrefl := Takes.refl cursor
  rw [lexeme]
  cases hlook : cursor.look with
  | ended => exact ⟨[], hrefl.cuts_ok (List.nil_sublist _)⟩
  | on c handedBack =>
    dsimp only
    split
    · apply exists_cuts_operator config hlook
    split
    · apply exists_cuts_number
    split
    · apply exists_cuts_symbol
    split
    · apply exists_cuts_quoted
    · exact ⟨[], hrefl.cuts_ok (List.nil_sublist _)⟩

/-- The next token of block code has no other characters as its content than those taken. -/
theorem exists_cuts_nextLexeme (config : Config) (cursor : Cursor) (escape : Char) :
  ∃ cs, cursor.Cuts config (cursor.nextLexeme escape) cs
  := by
  obtain ⟨e | _, next, cs, hscan, htakes⟩ := exists_takes_scan Lexeme.blank () cursor
  · rw [nextLexeme, hscan]
    exact ⟨cs, htakes.cuts_error _⟩
  · obtain ⟨ds, hcuts⟩ := exists_cuts_lexeme config next escape
    rw [nextLexeme, hscan]
    use cs ++ ds
    constructor
    · apply htakes.trans hcuts.takes
    · intro t ht
      apply (hcuts.content_sublist t ht).trans
      apply List.sublist_append_right

/-! ### Unknown characters -/

theorem advance_handBack (hplain : cursor.IsPlain) (hlook : cursor.look ≠ .ended) (c : Char) :
  (cursor.handBack c).advance = (.ok (), cursor)
  := by
  obtain ⟨look, source, position⟩ := cursor
  cases look with
  | ended => contradiction
  | on d handedBack =>
    obtain rfl := hplain d handedBack rfl
    rfl

/-- From a character handed back the same is read again. -/
theorem operator_of_unknown (hlook : cursor.look = .on c handedBack) {text : String}
    (h : cursor.operator c = (.ok ⟨.unknown, text⟩, next)) :
  next.look = .ended
    ∨ (∃ handedBack, next.look = .on c handedBack)
      ∧ next.operator c = (.ok ⟨.unknown, text⟩, next)
  := by
  rcases operator_cases hlook with ⟨e, _, _, heq, -⟩ | ⟨o, _, heq, -⟩ | ⟨mid, heq, hadvance⟩
  · cases heq.symm.trans h
  · cases heq.symm.trans h
  · cases heq.symm.trans h
    cases hmid : mid.look with
    | ended =>
      left
      rw [handBack, hmid]
      exact hmid
    | on d handedBack' =>
      right
      have hback : (mid.handBack c).look = .on c (some d) := by rw [handBack, hmid]
      have hagain : (mid.handBack c).advance = cursor.advance := by
        rw [hadvance, advance_handBack (isPlain_of_advance_eq hadvance) (by simp [hmid])]
      use ⟨some d, hback⟩
      rw [← h, operator, operator, scan_operator_of_on hback, scan_operator_of_on hlook, hagain]

theorem lexeme_of_unknown (hlook : cursor.look = .on c handedBack) {escape : Char} {text : String}
    (h : cursor.lexeme escape = (.ok ⟨.unknown, text⟩, next)) :
  next.look = .ended
    ∨ (∃ handedBack, next.look = .on c handedBack)
      ∧ next.lexeme escape = (.ok ⟨.unknown, text⟩, next)
  := by
  have hunknown := h
  rw [lexeme, hlook] at h
  dsimp only at h
  split_ifs at h with hoperator
  · rcases operator_of_unknown hlook h with hend | ⟨⟨handedBack', hback⟩, hagain⟩
    · exact .inl hend
    · right
      use ⟨handedBack', hback⟩
      rw [lexeme, hback]
      dsimp only
      rw [if_pos hoperator, hagain]
  · rw [number] at h
    split at h <;> cases h
  · rw [symbol] at h
    split at h <;> cases h
  · rw [quoted] at h
    split at h
    · cases h
    · split at h <;> cases h
  · cases h
    right
    exact ⟨⟨handedBack, hlook⟩, hunknown⟩

/-- After blanks the cursor stands on no blank. -/
theorem isBlank_of_scan_blank (h : cursor.scan Lexeme.blank () = (.ok (), next))
    (hlook : next.look = .on c handedBack) :
  Lexeme.isBlank c = false
  := by
  fun_induction scan Lexeme.blank () cursor with
  | case1 s cursor hended =>
    cases h
    rw [hended] at hlook
    cases hlook
  | case2 s cursor d _ hd s' hleave =>
    cases h
    rw [hd] at hlook
    cases hlook
    cases hblank : Lexeme.isBlank c with
    | false => rfl
    | true =>
      rw [Lexeme.blank, if_pos hblank] at hleave
      cases hleave
  | case3 s cursor d _ hd s' htake e last hadvance => cases h
  | case4 s cursor d _ hd s' htake last hadvance ih => apply ih h
  | case5 s cursor d _ hd s' hfinish e last hadvance => cases h
  | case6 s cursor d _ hd s' hfinish last hadvance =>
    rw [Lexeme.blank] at hfinish
    split at hfinish <;> cases hfinish

/-- After an unknown character the cursor is at the end, or it is returned again and again, and the
source is not asked for it. -/
theorem nextLexeme_of_unknown {escape : Char} {text : String}
    (h : cursor.nextLexeme escape = (.ok ⟨.unknown, text⟩, next)) :
  next.look = .ended ∨ next.nextLexeme escape = (.ok ⟨.unknown, text⟩, next)
  := by
  rw [nextLexeme] at h
  rcases hscan : cursor.scan Lexeme.blank () with ⟨e | _, mid⟩
  · rw [hscan] at h
    cases h
  · rw [hscan] at h
    dsimp only at h
    cases hmid : mid.look with
    | ended =>
      rw [lexeme, hmid] at h
      cases h
    | on c handedBack =>
      have hblank := isBlank_of_scan_blank hscan hmid
      rcases lexeme_of_unknown hmid h with hend | ⟨⟨_, hnext⟩, hagain⟩
      · exact .inl hend
      · right
        have hleave : Lexeme.blank () c = .leave () := by rw [Lexeme.blank, hblank]; rfl
        rw [nextLexeme, scan_of_on _ _ hnext, hleave]
        exact hagain

end Cursor

end TemplateLexer
