import TemplateLexer.Proofs.Raw.Leftmost

/-!
# Hidden delimiters

A partial match that is not a delimiter may still end with one: with the delimiters `abcd` and
`bc`, the text `abce` is given up as a whole, and `bc` is not found in it.  `Config.IsHiddenIn`
says which delimiters are hidden in this way.  Raw scans of texts without escapes find all
delimiters exactly for those settings in which none is hidden.
-/

namespace TemplateLexer

open Trie

/-- The partial match `q` ends with the delimiter `d`: it is the start of a delimiter, none is
found on the way to it, and no character of it escapes another. -/
structure Config.IsHiddenIn (config : Config) (d : Delimiter) (q : List Char) : Prop where
  suffix : config.spelling d <:+ q
  start : ∃ d', q <+: config.spelling d'
  not_start : ∀ d', ¬ config.spelling d' <+: q
  escape_notMem : config.escape ∉ q

/-- A delimiter that is part of no other is not hidden. -/
theorem Config.IsInfixFree.not_isHiddenIn {config : Config} (h : config.IsInfixFree)
    (d : Delimiter) (q : List Char) :
  ¬ config.IsHiddenIn d q
  := by
  intro hhidden
  obtain ⟨d', hd'⟩ := hhidden.start
  obtain rfl := h d d' (hhidden.suffix.isInfix.trans hd'.isInfix)
  apply hhidden.not_start d
  exact hhidden.suffix.eq_of_length_le hd'.length_le ▸ List.prefix_rfl

/-! ### Pieces without delimiters -/

theorem Piece.char_injective {κ : Type} :
  Function.Injective (Piece.char (κ := κ))
  := by
  intro c d h
  cases h
  rfl

theorem Piece.map_char_infix_map_char {κ : Type} {p q : List Char} :
  p.map (Piece.char (κ := κ)) <:+: q.map .char ↔ p <:+: q
  := by
  constructor
  · intro h
    obtain ⟨r, hr, heq⟩ := List.infix_map_iff.mp h
    rwa [(List.map_inj_right char_injective).mp heq]
  · intro h
    apply h.map

/-- A run of characters lies on one side of a delimiter. -/
theorem Piece.infix_or_infix_of_append {κ : Type} {p : List Char} {k : κ} {as bs : List (Piece κ)}
    (h : p.map .char <:+: as ++ .tag k :: bs) :
  p.map .char <:+: as ∨ p.map .char <:+: bs
  := by
  have hstart {q : List Char} (hq : q.map .char <+: Piece.tag k :: bs) : q = [] := by
    cases q with
    | nil => rfl
    | cons c q =>
      rw [List.map_cons, List.cons_prefix_cons] at hq
      cases hq.1
  rcases List.infix_append_iff.mp h with h | h | ⟨as', bs', heq, has, hbs⟩
  · exact .inl h
  · rcases List.infix_cons_iff.mp h with h | h
    · obtain rfl := hstart h
      left
      apply List.nil_infix
    · exact .inr h
  · obtain ⟨p, q, rfl, rfl, rfl⟩ := List.map_eq_append_iff.mp heq
    obtain rfl := hstart hbs
    left
    simpa using has.isInfix

namespace Matcher

variable {config : Config} {m : Matcher Kind} (hm : config.IsMatcher m)
include hm

/-- Where no delimiter is hidden, a word that is read up to a partial match and contained no
delimiter before its last character contains none after it. -/
theorem not_infix_concat (hhidden : ∀ d q, ¬ config.IsHiddenIn d q) {w : List Char} {n : Nat}
    {c : Char} (hn : m.trie.IsLongestSuffix (w ++ [c]) n) (htag : m.trie.tag? n = none)
    (hescape : config.escape ∉ w ++ [c]) (hw : ∀ d, ¬ config.spelling d <:+: w) (d : Delimiter) :
  ¬ config.spelling d <:+: w ++ [c]
  := by
  intro hpart
  have hsuffix : config.spelling d <:+ w ++ [c] := by
    rcases List.infix_concat_iff.mp hpart with h | h
    · exact h
    · exact absurd h (hw d)
  apply hhidden d (m.trie.path n)
  constructor
  · apply hn.suffix_path _ ((hm.isPath_iff _).mpr ⟨d, List.prefix_rfl⟩) hsuffix
  · apply (hm.isPath_iff _).mp (isPath_path hn.lt_size)
  · -- a delimiter on the way to `n` would be part of `w`
    rintro d' ⟨r, hr⟩
    obtain ⟨u, hu⟩ := hn.path_suffix
    rw [← hr, ← List.append_assoc] at hu
    rcases eq_nil_or_infix_of_append hu with rfl | h
    · rw [List.append_nil] at hr
      apply (hm.tag?_eq_none_iff hn.lt_size).mp htag d' hr
    · apply hw d' h
  · intro hmem
    apply hescape
    apply hn.path_suffix.subset hmem

/-- Where no delimiter is hidden, the characters among the pieces of a text contain none: `u`
is what was released since the last delimiter. -/
theorem not_infix_pieces (hhidden : ∀ d q, ¬ config.IsHiddenIn d q) (cs : List Char)
    {u : List Char} {n : Nat} (hn : m.trie.IsLongestSuffix (u ++ m.trie.path n) n)
    (htag : m.trie.tag? n = none) (hescape : config.escape ∉ u ++ m.trie.path n ++ cs)
    (hu : ∀ d, ¬ config.spelling d <:+: u ++ m.trie.path n) (d : Delimiter) :
  ¬ (config.spelling d).map .char <:+: u.map .char ++ m.pieces n (cs.map .plain)
  := by
  have hwf := hm.wellFormed
  induction cs generalizing u n with
  | nil =>
    rw [List.map_nil, pieces, held_eq_path hwf hn.lt_size, ← List.map_append,
      Piece.map_char_infix_map_char]
    apply hu
  | cons c cs ih =>
    have hspelled : u ++ (m.move n c).2 ++ m.trie.path (m.move n c).1
        = u ++ m.trie.path n ++ [c] := by
      rw [List.append_assoc, move_snd_append hwf hn.lt_size, ← List.append_assoc]
    have hnext := isLongestSuffix_move hwf hn c
    rw [List.append_cons, ← hspelled] at hescape
    rw [List.map_cons, pieces, ← List.append_assoc, ← List.map_append]
    cases htag' : m.trie.tag? (m.move n c).1 with
    | none =>
      rw [← hspelled] at hnext
      apply ih hnext htag' hescape
      intro d'
      rw [hspelled] at hnext hescape ⊢
      rw [List.mem_append, not_or] at hescape
      apply not_infix_concat hm hhidden hnext htag' hescape.1 hu
    | some k =>
      obtain ⟨d', rfl, hd'⟩ := (hm.tag?_eq_some_iff hnext.lt_size k).mp htag'
      intro hpart
      rcases Piece.infix_or_infix_of_append hpart with h | h
      · rw [Piece.map_char_infix_map_char] at h
        rcases eq_nil_or_infix_of_append (x := []) hspelled with hnil | hreleased
        · rw [← hd'] at hnil
          apply hm.spelling_ne_nil d' hnil
        · apply hu d (h.trans hreleased)
      · rw [List.mem_append, not_or] at hescape
        apply ih (u := []) _ hm.tag?_root _ _ h
        · apply IsLongestSuffix.path hwf.root_lt_size
        · rw [hwf.path_root]
          apply hescape.2
        · apply hm.not_infix_path_root

theorem not_infix_pieces_root (hhidden : ∀ d q, ¬ config.IsHiddenIn d q) {cs : List Char}
    (hescape : config.escape ∉ cs) (d : Delimiter) :
  ¬ (config.spelling d).map .char <:+: m.pieces root (cs.map .plain)
  := by
  have hwf := hm.wellFormed
  apply not_infix_pieces hm hhidden cs (u := []) _ hm.tag?_root _ _ d
  · apply IsLongestSuffix.path hwf.root_lt_size
  · rw [hwf.path_root]
    apply hescape
  · apply hm.not_infix_path_root

/-- A text that starts a delimiter and on whose way none is found is not given up before its
end. -/
theorem pieces_of_isPath (cs : List Char) {n : Nat} (hn : n < m.trie.size)
    (hpath : m.trie.IsPath (m.trie.path n ++ cs))
    (hstart : ∀ d, ¬ config.spelling d <+: m.trie.path n ++ cs) :
  m.pieces n (cs.map .plain) = (m.trie.path n ++ cs).map .char
  := by
  have hwf := hm.wellFormed
  induction cs generalizing n with
  | nil => rw [List.map_nil, pieces, held_eq_path hwf hn, List.append_nil]
  | cons c cs ih =>
    rw [List.append_cons] at hpath hstart ⊢
    obtain ⟨n', hn', hpath'⟩ := hwf.isPath_of_prefix hpath (List.prefix_append _ cs)
    have hmove : m.move n c = (n', []) := by
      rw [move, (hwf.child?_eq_some_iff hn).mpr ⟨hn', hpath'⟩]
    have htag : m.trie.tag? n' = none := by
      rw [hm.tag?_eq_none_iff hn']
      intro d hd
      apply hstart d
      rw [hd, hpath']
      apply List.prefix_append
    rw [← hpath'] at hpath hstart ⊢
    rw [List.map_cons, pieces, hmove, htag]
    apply ih hn' hpath hstart

end Matcher

/-! ### Runs of texts -/

namespace Token

/-- The characters of the texts, one after another. -/
def texts (ts : List Token) : List Char :=
  ts.flatMap (·.text.toList)

theorem flatMap_pieces_of_text {ts : List Token} (h : ∀ t ∈ ts, t.kind = .text) :
  ts.flatMap pieces = (texts ts).map .char
  := by
  rw [texts, List.map_flatMap]
  apply List.flatMap_congr
  intro t ht
  apply if_pos (h t ht)

theorem kind_eq_text_of_pieces {ts : List Token} (hraw : ∀ t ∈ ts, t.IsRaw) {cs : List Char}
    (hpieces : ts.flatMap pieces = cs.map .char) :
  ∀ t ∈ ts, t.kind = .text
  := by
  intro t ht
  rcases hraw t ht with ⟨cs', -, rfl⟩ | ⟨d, rfl⟩
  · rfl
  · have hmem : Piece.tag (.delimiter d) ∈ ts.flatMap pieces :=
      List.mem_flatMap.mpr ⟨_, ht, List.mem_singleton_self _⟩
    rw [hpieces, List.mem_map] at hmem
    obtain ⟨c, -, hc⟩ := hmem
    cases hc

theorem spell_of_text (config : Config) {ts : List Token} (h : ∀ t ∈ ts, t.kind = .text) :
  ts.flatMap (spell config) = texts ts
  := by
  apply List.flatMap_congr
  intro t ht
  rw [spell, h t ht]
  apply List.append_nil

end Token

/-- The tokens find all delimiters of the text `s`: no delimiter is part of adjacent texts, and
there are only texts exactly when no delimiter is part of `s`. -/
structure Token.FindDelimiters (config : Config) (s : String) (tokens : List Token) : Prop where
  not_part : ∀ run, run <:+: tokens → (∀ t ∈ run, t.kind = .text) →
    ∀ d, ¬ config.spelling d <:+: Token.texts run
  all_text_iff : (∀ t ∈ tokens, t.kind = .text) ↔ ∀ d, ¬ config.spelling d <:+: s.toList

namespace Lexer

variable {config : Config} {m : Matcher Kind} {l : Lexer}

theorem IsConfigured.findDelimiters (h : l.IsConfigured config m)
    (hhidden : ∀ d q, ¬ config.IsHiddenIn d q) {s : String} (hescape : config.escape ∉ s.toList)
    {tokens : List Token} (hraw : ∀ t ∈ tokens, t.IsRaw)
    (hpieces : tokens.flatMap Token.pieces = m.pieces root (letters config.escape s.toList)) :
  Token.FindDelimiters config s tokens
  := by
  have hm := h.isMatcher
  have hwf := hm.wellFormed
  have hspell := h.flatMap_spell hraw hpieces
  rw [unescape_of_notMem hescape] at hspell
  have hpart : ∀ run, run <:+: tokens → (∀ t ∈ run, t.kind = .text) →
      ∀ d, ¬ config.spelling d <:+: Token.texts run := by
    intro run hrun htext d hd
    have hruns : run.flatMap Token.pieces <:+: tokens.flatMap Token.pieces := by
      obtain ⟨before, after, rfl⟩ := hrun
      simp only [List.flatMap_append]
      apply List.infix_append
    rw [Token.flatMap_pieces_of_text htext, hpieces, letters_eq_map_plain hescape] at hruns
    apply Matcher.not_infix_pieces_root hm hhidden hescape d
    apply (Piece.map_char_infix_map_char.mpr hd).trans hruns
  constructor
  · exact hpart
  · constructor
    · intro htext d
      rw [← hspell, Token.spell_of_text config htext]
      apply hpart tokens List.infix_rfl htext
    · intro hnone t ht
      rcases hraw t ht with ⟨cs, -, rfl⟩ | ⟨d, rfl⟩
      · rfl
      · exfalso
        apply hnone d
        obtain ⟨before, after, rfl⟩ := List.append_of_mem ht
        rw [← hspell, List.flatMap_append, List.flatMap_cons, ← List.append_assoc]
        apply List.infix_append

/-- A partial match that hides a delimiter is read as nothing but texts. -/
theorem IsConfigured.not_findDelimiters (h : l.IsConfigured config m) {d : Delimiter}
    {q : List Char} (hhidden : config.IsHiddenIn d q) {tokens : List Token}
    (hraw : ∀ t ∈ tokens, t.IsRaw)
    (hpieces : tokens.flatMap Token.pieces = m.pieces root (letters config.escape q)) :
  (∀ t ∈ tokens, t.kind = .text) ∧ ¬ Token.FindDelimiters config (String.ofList q) tokens
  := by
  have hm := h.isMatcher
  have hwf := hm.wellFormed
  have hchars := Matcher.pieces_of_isPath hm q hwf.root_lt_size
  rw [hwf.path_root, List.nil_append] at hchars
  rw [letters_eq_map_plain hhidden.escape_notMem,
    hchars ((hm.isPath_iff q).mpr hhidden.start) hhidden.not_start] at hpieces
  have htext := Token.kind_eq_text_of_pieces hraw hpieces
  use htext
  intro hfind
  apply hfind.all_text_iff.mp htext d
  rw [String.toList_ofList]
  apply hhidden.suffix.isInfix

/-- Raw scans of texts without the escape character find all delimiters exactly for the
settings in which no delimiter is hidden. -/
theorem Reachable.findDelimiters_iff (h : Reachable config l) :
  (∀ s : String, config.escape ∉ s.toList → ∃ tokens : List Token,
      l.scan s = (tokens ++ [Token.endOfInput]).map .ok ∧ Token.FindDelimiters config s tokens)
    ↔ ∀ d q, ¬ config.IsHiddenIn d q
  := by
  obtain ⟨m, hm⟩ := h.exists_isConfigured
  constructor
  · intro hfind d q hhidden
    obtain ⟨tokens, hscan, hraw, hpieces⟩ := hm.scan (String.ofList q)
    rw [String.toList_ofList] at hpieces
    obtain ⟨tokens', hscan', htokens'⟩ := hfind (String.ofList q)
      (by rw [String.toList_ofList]; apply hhidden.escape_notMem)
    have heq : tokens' = tokens := by
      rw [hscan] at hscan'
      have := (List.map_inj_right fun _ _ => Except.ok.inj).mp hscan'
      exact (List.append_cancel_right this).symm
    subst heq
    exact (hm.not_findDelimiters hhidden hraw hpieces).2 htokens'
  · intro hhidden s hescape
    obtain ⟨tokens, hscan, hraw, hpieces⟩ := hm.scan s
    use tokens, hscan
    apply hm.findDelimiters hhidden hescape hraw hpieces

/-- Delimiters that only overlap are always found. -/
theorem findDelimiters_chained :
  ∃ l, ofConfig chained = .ok l ∧ ∀ s : String, chained.escape ∉ s.toList →
    ∃ tokens : List Token, l.scan s = (tokens ++ [Token.endOfInput]).map .ok
      ∧ Token.FindDelimiters chained s tokens
  := by
  obtain ⟨l, hl⟩ : ∃ l, ofConfig chained = .ok l := ⟨_, rfl⟩
  use l, hl
  apply (Reachable.findDelimiters_iff (.new hl)).mpr
  apply isInfixFree_chained.not_isHiddenIn

/-- Settings in which one delimiter is hidden in another. -/
def swallowing : Config :=
  ⟨"abcd", "bc", "x", '\\', 0⟩

theorem isHiddenIn_swallowing :
  swallowing.IsHiddenIn .continuation "abc".toList
  := by
  refine ⟨by decide, ⟨.opening, by decide⟩, ?_, by decide⟩
  intro d'
  cases d' <;> decide

/-- The text `abc` is returned as it is, although it ends with the delimiter `bc`. -/
theorem not_findDelimiters_swallowing :
  ∃ l, ofConfig swallowing = .ok l ∧ swallowing.escape ∉ "abc".toList ∧ ∃ tokens : List Token,
    l.scan "abc" = (tokens ++ [Token.endOfInput]).map .ok
      ∧ (∀ t ∈ tokens, t.kind = .text) ∧ ¬ Token.FindDelimiters swallowing "abc" tokens
  := by
  obtain ⟨l, hl⟩ : ∃ l, ofConfig swallowing = .ok l := ⟨_, rfl⟩
  obtain ⟨m, hm⟩ := Reachable.exists_isConfigured (.new hl)
  obtain ⟨tokens, hscan, hraw, hpieces⟩ := hm.scan "abc"
  use l, hl, isHiddenIn_swallowing.escape_notMem, tokens, hscan
  apply hm.not_findDelimiters isHiddenIn_swallowing hraw hpieces

end Lexer

end TemplateLexer
