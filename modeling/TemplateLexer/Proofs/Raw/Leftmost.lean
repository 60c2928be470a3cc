import TemplateLexer.Proofs.Raw.Scan

/-!
# Leftmost search

`Config.leftmostTokens` reads raw text in the plain way: look for the delimiter that starts
leftmost, return the text before it and the delimiter, and go on after it.  Where no delimiter
is part of another, a raw scan returns the same tokens, up to where texts are split.  Between
the two stands `Config.search`, which finds the pieces one after another
(`Config.ofPieces_search`, `Config.IsInfixFree.pieces_eq_search`).
-/

namespace TemplateLexer

open Trie

namespace Config

/-! ### The reference -/

/-- The delimiter that the first of the letters spell. -/
def delimiterAt? (config : Config) (ls : List Letter) : Option Delimiter :=
  Delimiter.all.find? fun d => ((config.spelling d).map Letter.plain).isPrefixOf ls

/-- The delimiter that starts leftmost, with the letters before and after it.  The first letter
of a delimiter is the one at which it is found. -/
def leftmost? (config : Config) : List Letter → Option (List Letter × Delimiter × List Letter)
  | [] => none
  | l :: ls =>
    match config.delimiterAt? (l :: ls) with
    | some d => some ([], d, ls.drop ((config.spelling d).length - 1))
    | none => (config.leftmost? ls).map fun (before, d, after) => (l :: before, d, after)

variable {config : Config}

theorem length_lt_of_leftmost? {ls before after : List Letter} {d : Delimiter}
    (h : config.leftmost? ls = some (before, d, after)) :
  after.length < ls.length
  := by
  fun_induction leftmost? config ls generalizing before with
  | case1 => cases h
  | case2 l ls d' hd =>
    cases h
    rw [List.length_drop, List.length_cons]
    omega
  | case3 l ls hd ih =>
    obtain ⟨⟨before', d', after'⟩, hls, heq⟩ := Option.map_eq_some_iff.mp h
    cases heq
    apply Nat.lt_succ_of_lt (ih hls)

/-- The tokens of the letters: the text before the leftmost delimiter, that delimiter, and the
tokens of the letters after it. -/
def leftmostTokens (config : Config) (ls : List Letter) : List Token :=
  match _h : config.leftmost? ls with
  | none => Token.ofText? (ls.map Letter.char)
  | some (before, d, after) =>
    Token.ofText? (before.map Letter.char) ++ .empty (.delimiter d) :: config.leftmostTokens after
termination_by ls.length
decreasing_by exact length_lt_of_leftmost? _h

theorem leftmostTokens_of_eq_none {ls : List Letter} (h : config.leftmost? ls = none) :
  config.leftmostTokens ls = Token.ofText? (ls.map Letter.char)
  := by
  fun_cases config.leftmostTokens ls with
  | case1 h' => rfl
  | case2 before d after h' =>
    rw [h] at h'
    cases h'

theorem leftmostTokens_of_eq_some {ls before after : List Letter} {d : Delimiter}
    (h : config.leftmost? ls = some (before, d, after)) :
  config.leftmostTokens ls
    = Token.ofText? (before.map Letter.char)
      ++ .empty (.delimiter d) :: config.leftmostTokens after
  := by
  fun_cases config.leftmostTokens ls with
  | case1 h' =>
    rw [h] at h'
    cases h'
  | case2 before' d' after' h' =>
    rw [h] at h'
    cases h'
    rfl

/-! ### Occurrences -/

theorem delimiterAt?_eq_none_iff (ls : List Letter) :
  config.delimiterAt? ls = none ↔ ∀ d, ¬ (config.spelling d).map .plain <+: ls
  := by
  simp [delimiterAt?, mem_all]

theorem prefix_of_delimiterAt?_eq_some {ls : List Letter} {d : Delimiter}
    (h : config.delimiterAt? ls = some d) :
  (config.spelling d).map .plain <+: ls
  := by
  have := List.find?_some h
  rwa [List.isPrefixOf_iff_prefix] at this

/-- The letters hold the delimiter `d` between `before` and `after`. -/
def Occurs (config : Config) (ls before : List Letter) (d : Delimiter) (after : List Letter) :
    Prop :=
  ls = before ++ ((config.spelling d).map .plain ++ after)

theorem Occurs.exists_cons_of_delimiterAt?_eq_none {ls before after : List Letter} {d : Delimiter}
    (h : config.Occurs ls before d after) (hnone : config.delimiterAt? ls = none) :
  ∃ l before', before = l :: before'
  := by
  apply List.exists_cons_of_ne_nil
  rintro rfl
  apply (delimiterAt?_eq_none_iff ls).mp hnone d
  rw [h]
  apply List.prefix_append

/-- The delimiter found stands where it was found, and none starts before it. -/
theorem of_leftmost?_eq_some (hne : ∀ d, config.spelling d ≠ []) {ls before after : List Letter}
    {d : Delimiter} (h : config.leftmost? ls = some (before, d, after)) :
  config.Occurs ls before d after
    ∧ ∀ before' d' after', config.Occurs ls before' d' after' → before.length ≤ before'.length
  := by
  fun_induction leftmost? config ls generalizing before with
  | case1 => cases h
  | case2 l ls d' hd =>
    cases h
    obtain ⟨rest, hrest⟩ := prefix_of_delimiterAt?_eq_some hd
    obtain ⟨c, cs, hcs⟩ := List.exists_cons_of_ne_nil (hne d)
    rw [hcs] at hrest ⊢
    cases hrest
    constructor
    · rw [Occurs, hcs]
      simp
    · intro before' d' after' _
      apply Nat.zero_le
  | case3 l ls hd ih =>
    obtain ⟨⟨before', d', after'⟩, hls, heq⟩ := Option.map_eq_some_iff.mp h
    cases heq
    obtain ⟨hoccurs, hleast⟩ := ih hls
    constructor
    · rw [Occurs, hoccurs]
      rfl
    · intro before₁ d₁ after₁ h₁
      obtain ⟨l₁, before₁, rfl⟩ := h₁.exists_cons_of_delimiterAt?_eq_none hd
      cases h₁
      apply Nat.succ_le_succ (hleast before₁ d₁ after₁ rfl)

/-- Where no delimiter is found, there is none. -/
theorem not_occurs_of_leftmost?_eq_none {ls : List Letter} (h : config.leftmost? ls = none)
    (before : List Letter) (d : Delimiter) (after : List Letter) (hne : config.spelling d ≠ []) :
  ¬ config.Occurs ls before d after
  := by
  intro hoccurs
  fun_induction leftmost? config ls generalizing before with
  | case1 => simp [Occurs, hne] at hoccurs
  | case2 l ls d' hd => cases h
  | case3 l ls hd ih =>
    obtain ⟨l', before, rfl⟩ := hoccurs.exists_cons_of_delimiterAt?_eq_none hd
    cases hoccurs
    apply ih (Option.map_eq_none_iff.mp h) before rfl

/-! ### The search, piece by piece -/

/-- The pieces of the letters: a delimiter wherever one starts that does not overlap the one
before it, and otherwise the character of a letter. -/
def search (config : Config) : List Letter → List (Piece Kind)
  | [] => []
  | l :: ls =>
    match config.delimiterAt? (l :: ls) with
    | some d => .tag (.delimiter d) :: config.search (ls.drop ((config.spelling d).length - 1))
    | none => .char l.char :: config.search ls
termination_by ls => ls.length
decreasing_by
  · rw [List.length_drop, List.length_cons]
    omega
  · apply Nat.lt_succ_self

theorem search_nil :
  config.search [] = []
  := by
  rw [search]

theorem search_of_leftmost?_eq_none {ls : List Letter} (h : config.leftmost? ls = none) :
  config.search ls = (ls.map Letter.char).map .char
  := by
  fun_induction leftmost? config ls with
  | case1 => apply search_nil
  | case2 l ls d hd => cases h
  | case3 l ls hd ih =>
    rw [search, hd, List.map_cons, List.map_cons, ih (Option.map_eq_none_iff.mp h)]

theorem search_of_leftmost?_eq_some {ls before after : List Letter} {d : Delimiter}
    (h : config.leftmost? ls = some (before, d, after)) :
  config.search ls
    = (before.map Letter.char).map .char ++ .tag (.delimiter d) :: config.search after
  := by
  fun_induction leftmost? config ls generalizing before with
  | case1 => cases h
  | case2 l ls d' hd =>
    cases h
    rw [search, hd]
    rfl
  | case3 l ls hd ih =>
    obtain ⟨⟨before', d', after'⟩, hls, heq⟩ := Option.map_eq_some_iff.mp h
    cases heq
    rw [search, hd, ih hls]
    rfl

/-- The search finds the pieces of the tokens. -/
theorem ofPieces_search (ls : List Letter) :
  Token.ofPieces (config.search ls) = config.leftmostTokens ls
  := by
  fun_induction config.leftmostTokens ls with
  | case1 ls h => rw [search_of_leftmost?_eq_none h, Token.ofPieces_map_char]
  | case2 ls before d after h ih =>
    rw [search_of_leftmost?_eq_some h, Token.ofPieces_map_char_append, ih]

/-- No delimiter starts among characters where none of them starts one. -/
theorem search_append {cs : List Char} {ls : List Letter}
    (h : ∀ x y, cs = x ++ y → y ≠ [] →
      ∀ d, ¬ (config.spelling d).map .plain <+: y.map Letter.plain ++ ls) :
  config.search (cs.map .plain ++ ls) = cs.map .char ++ config.search ls
  := by
  induction cs with
  | nil => rfl
  | cons c cs ih =>
    have hnone := (delimiterAt?_eq_none_iff _).mpr (h [] (c :: cs) rfl (List.cons_ne_nil _ _))
    rw [List.map_cons, List.cons_append] at hnone
    rw [List.map_cons, List.cons_append, search, hnone, ih]
    · rfl
    · intro x y hcs
      apply h (c :: x) y
      rw [hcs, List.cons_append]

/-! ### Delimiters that are not part of each other -/

/-- No delimiter is part of another one. -/
def IsInfixFree (config : Config) : Prop :=
  ∀ d d', config.spelling d <:+: config.spelling d' → d = d'

namespace IsInfixFree

variable (hfree : config.IsInfixFree)
include hfree

theorem delimiterAt?_spelling (d : Delimiter) (ls : List Letter) :
  config.delimiterAt? ((config.spelling d).map .plain ++ ls) = some d
  := by
  cases hd : config.delimiterAt? ((config.spelling d).map .plain ++ ls) with
  | none => exact absurd (List.prefix_append _ _) ((delimiterAt?_eq_none_iff _).mp hd d)
  | some d' =>
    rcases prefix_comparable (prefix_of_delimiterAt?_eq_some hd) with h | h
    · rw [hfree d' d h.isInfix]
    · rw [hfree d d' h.isInfix]

/-- Where a delimiter starts, the search finds it. -/
theorem search_spelling {d : Delimiter} (hne : config.spelling d ≠ []) (ls : List Letter) :
  config.search ((config.spelling d).map .plain ++ ls)
    = .tag (.delimiter d) :: config.search ls
  := by
  have hd := hfree.delimiterAt?_spelling d ls
  obtain ⟨c, cs, hcs⟩ := List.exists_cons_of_ne_nil hne
  rw [hcs, List.map_cons, List.cons_append] at hd ⊢
  rw [search, hd]
  dsimp only
  rw [hcs, List.length_cons, Nat.add_sub_cancel, List.drop_left' (List.length_map _)]

variable {m : Matcher Kind} (hm : config.IsMatcher m) {n : Nat} (hn : n < m.trie.size)
  (htag : m.trie.tag? n = none)
include hm hn htag

/-- A partial match that is no delimiter does not contain one either. -/
theorem not_infix_path (d : Delimiter) :
  ¬ config.spelling d <:+: m.trie.path n
  := by
  intro hpart
  obtain ⟨d', hpath⟩ := (hm.isPath_iff _).mp (isPath_path hn)
  obtain rfl := hfree d d' (hpart.trans hpath.isInfix)
  apply (hm.tag?_eq_none_iff hn).mp htag d
  symm
  apply hpath.eq_of_length_le hpart.length_le

/-- Where a delimiter cannot go on, a partial match becomes text. -/
theorem search_path {ls : List Letter}
    (hls : ∀ {p q : List Char}, p.map Letter.plain <+: q.map .plain ++ ls → p <+: q) :
  config.search ((m.trie.path n).map .plain ++ ls)
    = (m.trie.path n).map .char ++ config.search ls
  := by
  apply search_append
  intro x y hxy _ d hd
  apply hfree.not_infix_path hm hn htag d
  rw [hxy]
  apply (hls hd).isInfix.trans (List.suffix_append x y).isInfix

/-- The characters released by a step are text: no delimiter starts among them. -/
theorem search_move (c : Char) (ls : List Letter) :
  config.search ((m.trie.path n).map .plain ++ .plain c :: ls)
    = (m.move n c).2.map .char
      ++ config.search ((m.trie.path (m.move n c).1).map .plain ++ ls)
  := by
  have hwf := hm.wellFormed
  have hspelled := Matcher.move_snd_append hwf hn c
  have hlongest := Matcher.isLongestSuffix_move hwf (.path hn) c
  have hletters : (m.trie.path n).map Letter.plain ++ .plain c :: ls
      = (m.move n c).2.map .plain ++ ((m.trie.path (m.move n c).1).map .plain ++ ls) := by
    rw [← List.append_assoc, ← List.map_append, hspelled]
    simp
  rw [hletters]
  apply search_append
  intro x y hxy hy d hd
  rw [hxy, List.append_assoc] at hspelled
  rw [← List.append_assoc, ← List.map_append] at hd
  -- a longer match than the one that was kept does not start at `y`
  have hkept : ¬ y ++ m.trie.path (m.move n c).1 <+: config.spelling d := by
    intro hstart
    have hsuffix := hlongest.suffix_path _ ((hm.isPath_iff _).mpr ⟨d, hstart⟩) ⟨x, hspelled⟩
    have hlength := hsuffix.length_le
    rw [List.length_append] at hlength
    apply hy
    rw [← List.length_eq_zero_iff]
    omega
  rcases prefix_comparable hd with ⟨z, hz⟩ | hstart
  · rw [← hz, ← List.append_assoc] at hspelled
    rcases eq_nil_or_infix_of_append hspelled with rfl | hpart
    · rw [List.append_nil] at hz
      apply hkept
      exact hz ▸ List.prefix_rfl
    · -- the delimiter ends before `c`
      apply hfree.not_infix_path hm hn htag d hpart
  · exact hkept hstart

end IsInfixFree

/-! ### The matcher -/

theorem search_escaped (hne : ∀ d, config.spelling d ≠ []) (c : Char) (ls : List Letter) :
  config.search (.escaped c :: ls) = .char c :: config.search ls
  := by
  have hnone : config.delimiterAt? (.escaped c :: ls) = none := by
    rw [delimiterAt?_eq_none_iff]
    intro d hd
    apply hne d
    rw [← List.prefix_nil]
    exact prefix_of_escaped (q := []) hd
  rw [search, hnone]
  rfl

/-- Matching in one pass finds what the search finds: the partial match at `n` is searched
again together with the letters after it. -/
theorem IsInfixFree.pieces_eq_search (hfree : config.IsInfixFree) {m : Matcher Kind}
    (hm : config.IsMatcher m) {n : Nat} (hn : n < m.trie.size) (htag : m.trie.tag? n = none)
    (ls : List Letter) :
  m.pieces n ls = config.search ((m.trie.path n).map .plain ++ ls)
  := by
  have hwf := hm.wellFormed
  induction ls generalizing n with
  | nil =>
    rw [Matcher.pieces, Matcher.held_eq_path hwf hn, hfree.search_path hm hn htag prefix_of_nil,
      search_nil, List.append_nil]
  | cons l ls ih =>
    have hroot := ih hwf.root_lt_size hm.tag?_root
    rw [hwf.path_root, List.map_nil, List.nil_append] at hroot
    cases l with
    | escaped c =>
      rw [Matcher.pieces, Matcher.held_eq_path hwf hn, hroot,
        hfree.search_path hm hn htag prefix_of_escaped,
        search_escaped hm.spelling_ne_nil]
    | plain c =>
      have hlt := Matcher.move_fst_lt_size hwf hn c
      rw [Matcher.pieces, hfree.search_move hm hn htag]
      cases hnext : m.trie.tag? (m.move n c).1 with
      | none => rw [ih hlt hnext]
      | some k =>
        obtain ⟨d, rfl, hd⟩ := (hm.tag?_eq_some_iff hlt k).mp hnext
        rw [hroot, ← hd, hfree.search_spelling (hm.spelling_ne_nil d)]

theorem IsInfixFree.pieces_root_eq_search (hfree : config.IsInfixFree) {m : Matcher Kind}
    (hm : config.IsMatcher m) (ls : List Letter) :
  m.pieces root ls = config.search ls
  := by
  rw [hfree.pieces_eq_search hm hm.wellFormed.root_lt_size hm.tag?_root, hm.wellFormed.path_root]
  rfl

end Config

namespace Lexer

/-- Where no delimiter is part of another, a raw scan returns what the search for the leftmost
delimiter returns, up to where texts are split. -/
theorem Reachable.merge_scan {config : Config} {l : Lexer} (h : Reachable config l)
    (hfree : config.IsInfixFree) (s : String) :
  ∃ tokens : List Token, l.scan s = tokens.map .ok
    ∧ Token.merge tokens = config.leftmostTokens (letters config.escape s.toList) ++ [.endOfInput]
  := by
  obtain ⟨m, hm⟩ := h.exists_isConfigured
  obtain ⟨tokens, hscan, hraw, hpieces⟩ := hm.scan s
  use tokens ++ [.endOfInput], hscan
  have hwf := hm.isMatcher.wellFormed
  have hsearch := hfree.pieces_eq_search hm.isMatcher hwf.root_lt_size hm.isMatcher.tag?_root
    (letters config.escape s.toList)
  rw [hwf.path_root, List.map_nil, List.nil_append] at hsearch
  rw [Token.merge_append_endOfInput, Token.merge_eq_ofPieces hraw, hpieces, hsearch,
    Config.ofPieces_search]

/-- Settings in which one delimiter ends as the next one starts. -/
def chained : Config :=
  ⟨"abc", "bcd", "da", '\\', 0⟩

theorem isInfixFree_chained :
  chained.IsInfixFree
  := by
  intro d d' h
  revert h
  cases d <;> cases d' <;> decide

/-- In `abbcda` the start of `abc` is given up for `bcd`, and the start of `da` comes too
late. -/
theorem merge_scan_chained :
  ∃ l, ofConfig chained = .ok l ∧ chained.IsInfixFree ∧ ∃ tokens : List Token,
    l.scan "abbcda" = tokens.map .ok
      ∧ Token.merge tokens
        = [.ofText ['a', 'b'], .empty (.delimiter .continuation), .ofText ['a'], .endOfInput]
  := by
  obtain ⟨l, hl⟩ : ∃ l, ofConfig chained = .ok l := ⟨_, rfl⟩
  have hfirst : chained.leftmost? (letters chained.escape "abbcda".toList)
    = some ([.plain 'a', .plain 'b'], .continuation, [.plain 'a']) := by decide
  have hrest : chained.leftmost? [.plain 'a'] = none := by decide
  have hscan := Reachable.merge_scan (.new hl) isInfixFree_chained "abbcda"
  rw [Config.leftmostTokens_of_eq_some hfirst, Config.leftmostTokens_of_eq_none hrest] at hscan
  exact ⟨l, hl, isInfixFree_chained, hscan⟩

end Lexer

end TemplateLexer
