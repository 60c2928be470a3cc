import Mathlib
import TemplateLexer.Proofs.Raw.Leftmost

/-!
# Writing raw text

Tokens of raw text are written down with the escape character before every character of a text,
and delimiters as they are spelled (`Token.write`).  Where no delimiter is part of another, a raw
scan reads the tokens back, with one exception: an escape character in a delimiter takes the
character after it, and then the delimiter is not found (`Config.search_letters_iff`).
-/

namespace TemplateLexer

/-! ### Words before other characters -/

/-- Each escape character of the word `p` stands at its end, with no character of `cs` after it. -/
def TakesNothing (escape : Char) (p cs : List Char) : Prop :=
  ∀ x y, p = x ++ escape :: y → y = [] ∧ cs = []

section Words

variable {escape : Char} {p cs : List Char}

theorem takesNothing_nil :
  TakesNothing escape [] cs
  := by
  intro x y h
  simp at h

theorem takesNothing_cons_iff (c : Char) :
  TakesNothing escape (c :: p) cs ↔ (c = escape → p = [] ∧ cs = []) ∧ TakesNothing escape p cs
  := by
  constructor
  · intro h
    constructor
    · rintro rfl
      apply h [] p rfl
    · rintro x y rfl
      apply h (c :: x) y rfl
  · rintro ⟨hfirst, hrest⟩ x y hp
    cases x with
    | nil =>
      cases hp
      apply hfirst rfl
    | cons d x =>
      cases hp
      apply hrest x y rfl

instance decidableTakesNothing : (p cs : List Char) → Decidable (TakesNothing escape p cs)
  | [], _ => .isTrue takesNothing_nil
  | c :: p, cs =>
    have := decidableTakesNothing p cs
    decidable_of_iff _ (takesNothing_cons_iff c).symm

/-- A word whose escape characters take nothing is read as it stands. -/
theorem TakesNothing.letters_append (h : TakesNothing escape p cs) :
  letters escape (p ++ cs) = p.map .plain ++ letters escape cs
  := by
  induction p with
  | nil => rfl
  | cons c p ih =>
    obtain ⟨hfirst, hrest⟩ := (takesNothing_cons_iff c).mp h
    by_cases hc : c = escape
    · obtain ⟨rfl, rfl⟩ := hfirst hc
      rfl
    · rw [List.cons_append, letters_cons_of_ne hc, ih hrest, List.map_cons, List.cons_append]

/-- No other word is read as it stands. -/
theorem takesNothing_of_prefix (h : p.map .plain <+: letters escape (p ++ cs)) :
  TakesNothing escape p cs
  := by
  induction p with
  | nil => apply takesNothing_nil
  | cons c p ih =>
    rw [takesNothing_cons_iff]
    rw [List.map_cons, List.cons_append] at h
    by_cases hc : c = escape
    · subst hc
      cases hrest : p ++ cs with
      | nil =>
        obtain ⟨rfl, rfl⟩ := List.append_eq_nil_iff.mp hrest
        exact ⟨fun _ => ⟨rfl, rfl⟩, ih List.nil_prefix⟩
      | cons d ds =>
        rw [hrest, letters_escape_cons, List.cons_prefix_cons] at h
        cases h.1
    · rw [letters_cons_of_ne hc, List.cons_prefix_cons] at h
      exact ⟨fun h => absurd h hc, ih h.2⟩

end Words

/-- Characters that are all escaped are read as such. -/
theorem letters_escaped_append (escape : Char) (cs ds : List Char) :
  letters escape (cs.flatMap (fun c => [escape, c]) ++ ds)
    = cs.map .escaped ++ letters escape ds
  := by
  induction cs with
  | nil => rfl
  | cons c cs ih =>
    rw [List.map_cons, List.cons_append, ← ih]
    apply letters_escape_cons

/-! ### Writing -/

namespace Token

variable {config : Config}

/-- The characters that a token of raw text is written with. -/
def write (config : Config) (t : Token) : List Char :=
  t.text.toList.flatMap (fun c => [config.escape, c]) ++ config.kindSpelling t.kind

/-- The text in which tokens are written one after another. -/
def writeAll (config : Config) (ts : List Token) : String :=
  String.ofList (ts.flatMap (write config))

theorem write_ofText (cs : List Char) :
  (ofText cs).write config = cs.flatMap fun c => [config.escape, c]
  := by
  rw [write, ofText, String.toList_ofList]
  apply List.append_nil

theorem write_delimiter (d : Delimiter) :
  (empty (.delimiter d)).write config = config.spelling d
  := rfl

/-- No escape character of a delimiter takes a character of what is written. -/
def IsReadable (config : Config) (ts : List Token) : Prop :=
  ∀ before d after, ts = before ++ .empty (.delimiter d) :: after →
    TakesNothing config.escape (config.spelling d) (after.flatMap (write config))

theorem isReadable_nil :
  IsReadable config []
  := by
  intro before d after h
  simp at h

theorem isReadable_cons_iff (t : Token) (ts : List Token) :
  IsReadable config (t :: ts)
    ↔ (∀ d, t = .empty (.delimiter d) →
        TakesNothing config.escape (config.spelling d) (ts.flatMap (write config)))
      ∧ IsReadable config ts
  := by
  constructor
  · intro h
    constructor
    · rintro d rfl
      apply h [] d ts rfl
    · rintro before d after rfl
      apply h (t :: before) d after rfl
  · rintro ⟨hfirst, hrest⟩ before d after hts
    cases before with
    | nil =>
      cases hts
      apply hfirst d rfl
    | cons t' before =>
      cases hts
      apply hrest before d after rfl

theorem isReadable_ofText_cons_iff (cs : List Char) (ts : List Token) :
  IsReadable config (ofText cs :: ts) ↔ IsReadable config ts
  := by
  rw [isReadable_cons_iff, and_iff_right]
  intro d h
  cases congrArg Token.kind h

theorem isReadable_delimiter_cons_iff (d : Delimiter) (ts : List Token) :
  IsReadable config (empty (.delimiter d) :: ts)
    ↔ TakesNothing config.escape (config.spelling d) (ts.flatMap (write config))
      ∧ IsReadable config ts
  := by
  rw [isReadable_cons_iff]
  apply and_congr_left'
  constructor
  · intro h
    apply h d rfl
  · intro h d' hd'
    cases hd'
    apply h

end Token

/-! ### Reading what is written -/

namespace Config

variable {config : Config}

theorem search_map_escaped_append (hne : ∀ d, config.spelling d ≠ []) (cs : List Char)
    (ls : List Letter) :
  config.search (cs.map .escaped ++ ls) = cs.map .char ++ config.search ls
  := by
  induction cs with
  | nil => rfl
  | cons c cs ih =>
    rw [List.map_cons, List.cons_append, search_escaped hne, ih]
    rfl

/-- A delimiter that the search finds first is what the letters start with. -/
theorem prefix_of_search_eq_cons {ls : List Letter} {d : Delimiter} {ps : List (Piece Kind)}
    (h : config.search ls = .tag (.delimiter d) :: ps) :
  (config.spelling d).map .plain <+: ls
  := by
  revert h
  fun_cases config.search ls with
  | case1 =>
    intro h
    cases h
  | case2 l ls d' hd =>
    intro h
    cases h
    apply prefix_of_delimiterAt?_eq_some hd
  | case3 l ls hd =>
    intro h
    cases h

/-- The search finds in what is written the pieces of the tokens exactly when they are readable. -/
theorem IsInfixFree.search_letters_iff (hfree : config.IsInfixFree)
    (hne : ∀ d, config.spelling d ≠ []) {ts : List Token} (hraw : ∀ t ∈ ts, t.IsRaw) :
  config.search (letters config.escape (ts.flatMap (Token.write config)))
      = ts.flatMap Token.pieces
    ↔ Token.IsReadable config ts
  := by
  induction ts with
  | nil => exact iff_of_true search_nil Token.isReadable_nil
  | cons t ts ih =>
    rw [List.forall_mem_cons] at hraw
    rw [List.flatMap_cons, List.flatMap_cons]
    rcases hraw.1 with ⟨cs, -, rfl⟩ | ⟨d, rfl⟩
    · rw [Token.write_ofText, letters_escaped_append, search_map_escaped_append hne,
        Token.pieces_ofText, List.append_cancel_left_eq, ih hraw.2,
        Token.isReadable_ofText_cons_iff]
    · rw [Token.write_delimiter, Token.isReadable_delimiter_cons_iff,
        Token.pieces_empty_delimiter, List.singleton_append, ← ih hraw.2]
      constructor
      · intro hsearch
        have htakes := takesNothing_of_prefix (prefix_of_search_eq_cons hsearch)
        rw [htakes.letters_append, hfree.search_spelling (hne d)] at hsearch
        exact ⟨htakes, (List.cons.inj hsearch).2⟩
      · rintro ⟨htakes, hrest⟩
        rw [htakes.letters_append, hfree.search_spelling (hne d), hrest]

end Config

namespace Lexer

variable {config : Config} {l : Lexer}

/-- Where no delimiter is part of another, a raw scan reads back what tokens are written with, up
to where texts are split, exactly when no escape character of a delimiter takes a character. -/
theorem Reachable.merge_scan_writeAll_iff (h : Reachable config l) (hfree : config.IsInfixFree)
    {ts : List Token} (hts : Token.IsMerged ts) :
  ∃ tokens : List Token,
    l.scan (Token.writeAll config ts) = (tokens ++ [Token.endOfInput]).map .ok
      ∧ (Token.merge tokens = ts ↔ Token.IsReadable config ts)
  := by
  obtain ⟨m, hm⟩ := h.exists_isConfigured
  obtain ⟨tokens, hscan, hraw, hpieces⟩ := hm.scan (Token.writeAll config ts)
  use tokens, hscan
  rw [hts.merge_eq_iff hraw, hpieces, Token.writeAll, String.toList_ofList,
    hfree.pieces_root_eq_search hm.isMatcher,
    hfree.search_letters_iff hm.isMatcher.spelling_ne_nil hts.isRaw]

/-- Settings in which a delimiter ends with the escape character. -/
def trailing : Config :=
  ⟨"\x7b", "|", "\x7d\\", '\\', 0⟩

theorem isInfixFree_trailing :
  trailing.IsInfixFree
  := by
  intro d d' h
  revert h
  cases d <;> cases d' <;> decide

/-- The last character of `\a\{}\` takes nothing and completes the delimiter. -/
theorem merge_scan_writeAll_trailing :
  ∃ l, ofConfig trailing = .ok l ∧ trailing.IsInfixFree ∧
    let ts := [.ofText ['a', '\x7b'], .empty (.delimiter .closing)]
    Token.IsMerged ts ∧ ∃ tokens : List Token,
      l.scan (Token.writeAll trailing ts) = (tokens ++ [Token.endOfInput]).map .ok
        ∧ Token.merge tokens = ts
  := by
  obtain ⟨l, hl⟩ : ∃ l, ofConfig trailing = .ok l := ⟨_, rfl⟩
  use l, hl, isInfixFree_trailing
  intro ts
  have hmerged : Token.IsMerged ts := by
    constructor
    · rw [List.forall_mem_cons, List.forall_mem_singleton]
      exact ⟨.inl ⟨_, List.cons_ne_nil _ _, rfl⟩, .inr ⟨_, rfl⟩⟩
    · rw [List.isChain_pair]
      decide
  have hreadable : Token.IsReadable trailing ts := by
    rw [Token.isReadable_ofText_cons_iff, Token.isReadable_delimiter_cons_iff]
    exact ⟨by decide, Token.isReadable_nil⟩
  obtain ⟨tokens, hscan, hmerge⟩ :=
    Reachable.merge_scan_writeAll_iff (.new hl) isInfixFree_trailing hmerged
  exact ⟨hmerged, tokens, hscan, hmerge.mpr hreadable⟩

/-- In `}\\a` the escape character of the delimiter takes the one before the `a`. -/
theorem not_merge_scan_writeAll_trailing :
  ∃ l, ofConfig trailing = .ok l ∧ trailing.IsInfixFree ∧
    let ts := [.empty (.delimiter .closing), .ofText ['a']]
    Token.IsMerged ts ∧ ∃ tokens : List Token,
      l.scan (Token.writeAll trailing ts) = (tokens ++ [Token.endOfInput]).map .ok
        ∧ Token.merge tokens ≠ ts
  := by
  refine ⟨_, rfl, isInfixFree_trailing, ?_, [.ofText ['\x7d', '\\', 'a']], by cbv, by decide⟩
  constructor
  · rw [List.forall_mem_cons, List.forall_mem_singleton]
    exact ⟨.inr ⟨_, rfl⟩, .inl ⟨_, List.cons_ne_nil _ _, rfl⟩⟩
  · rw [List.isChain_pair]
    decide

end Lexer

end TemplateLexer
