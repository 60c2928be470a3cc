import Mathlib.Order.Minimal
import TemplateLexer.Proofs.Config.Validation
import TemplateLexer.Proofs.Lexer.Remaining

/-!
# Delimiters that start alike

A delimiter is returned as soon as it is complete, without regard to whether a longer one goes on
from there: of the delimiters that the remaining input starts with, a request in raw mode returns
the shortest (`Lexer.next_raw_of_isShortestStart`).  So the delimiters that raw scans return are
the longest that start where they start exactly for those settings in which no delimiter starts
another one (`Lexer.Reachable.matchLongest_iff`).
-/

namespace TemplateLexer

variable {κ : Type}

open Trie

/-- The characters start with the pattern `p`, and with no shorter pattern. -/
structure IsShortestStart (patterns : List (String × κ)) (cs : List Char) (p : String × κ) :
    Prop where
  mem : p ∈ patterns
  start : p.1.toList <+: cs
  length_le : ∀ p' ∈ patterns, p'.1.toList <+: cs → p.1.toList.length ≤ p'.1.toList.length

/-- Of the patterns that characters start with one is the shortest. -/
theorem exists_isShortestStart {patterns : List (String × κ)} {cs : List Char} {p : String × κ}
    (hp : p ∈ patterns) (hstart : p.1.toList <+: cs) :
  ∃ p, IsShortestStart patterns cs p
  := by
  obtain ⟨p', ⟨hp', hstart'⟩, hleast⟩ :=
    exists_minimalFor_of_wellFoundedLT (fun p : String × κ => p ∈ patterns ∧ p.1.toList <+: cs)
      (fun p => p.1.toList.length) ⟨p, hp, hstart⟩
  use p', hp', hstart'
  intro q hq hqstart
  rcases Nat.le_total p'.1.toList.length q.1.toList.length with hle | hle
  · exact hle
  · apply hleast ⟨hq, hqstart⟩ hle

theorem IsShortestStart.eq_of_prefix {patterns : List (String × κ)} {cs : List Char}
    {p : String × κ} (hp : IsShortestStart patterns cs p) {q : String × κ} (hq : q ∈ patterns)
    (hstart : q.1.toList <+: p.1.toList) :
  q.1.toList = p.1.toList
  := by
  apply hstart.eq_of_length_le
  apply hp.length_le q hq (hstart.trans hp.start)

/-! ### Reading a pattern -/

/-- A chunk that has reached the start of a pattern, and no shorter one, reads the rest of it and
is over. -/
theorem Chunk.run_pattern {patterns : List (String × κ)} {m : Matcher κ}
    (hholds : m.trie.Holds patterns) {p : String × κ} (hp : p ∈ patterns)
    (hshort : ∀ p' ∈ patterns, p'.1.toList <+: p.1.toList → p'.1.toList = p.1.toList)
    (escape : Char) (maxSize : Nat) (text : String) {cs : List Char} (hne : cs ≠ [])
    (hescape : escape ∉ cs) (rest : List Char) {n : Nat} (hn : n < m.trie.size)
    (hpath : m.trie.path n ++ cs = p.1.toList) :
  ∃ n', Verdict.run (Chunk.step m escape maxSize) ⟨text, n, false, none⟩ (cs ++ rest)
    = (⟨text, n', false, some p.2⟩, rest)
  := by
  have hwf := hholds.wellFormed
  induction cs generalizing n with
  | nil => contradiction
  | cons c cs ih =>
    rw [List.mem_cons, not_or] at hescape
    rw [List.append_cons] at hpath
    obtain ⟨n', hn', hpath'⟩ : m.trie.IsPath (m.trie.path n ++ [c]) := by
      rw [hholds.isPath_iff]
      right
      use p, hp
      rw [← hpath]
      apply List.prefix_append
    have hmove : m.move n c = (n', []) := by
      rw [Matcher.move, (hwf.child?_eq_some_iff hn).mpr ⟨hn', hpath'⟩]
    have hplain : (Chunk.mk text n false none).plain m c = ⟨text, n', false, m.trie.tag? n'⟩ := by
      simp [Chunk.plain, hmove]
    rw [← hpath'] at hpath
    rw [List.cons_append, Verdict.run, Chunk.step, if_neg Bool.false_ne_true,
      if_neg (Ne.symm hescape.1), hplain]
    cases cs with
    | nil =>
      rw [List.append_nil] at hpath
      have htag : m.trie.tag? n' = some p.2 := by
        rw [hholds.tag?_eq_some_iff n' hn', hpath, String.ofList_toList]
        exact hp
      use n'
      rw [htag]
      rfl
    | cons d ds =>
      have htag : m.trie.tag? n' = none := by
        rw [Option.eq_none_iff_forall_ne_some]
        intro k hk
        have hmem := (hholds.tag?_eq_some_iff n' hn' k).mp hk
        have hstart := hshort _ hmem
        rw [String.toList_ofList, ← hpath] at hstart
        simpa using hstart (List.prefix_append _ _)
      have hroot : n' ≠ root := by
        rintro rfl
        simp [hwf.path_root] at hpath'
      obtain ⟨n'', hrun⟩ := ih (List.cons_ne_nil d ds) hescape.2 hn' hpath
      use n''
      rw [htag, ← hrun]
      simp [Chunk.isFull, hroot]

namespace Lexer

variable {config : Config} {l : Lexer} {m : Matcher Kind}

/-- Of the patterns that the remaining input starts with a request in raw mode returns the
shortest, and takes its characters. -/
theorem next_raw_of_isShortestStart {patterns : List (String × Kind)}
    (hholds : m.trie.Holds patterns) (hfree : l.cursor.source.IsErrorFree)
    (hm : l.automaton = .built m) (hpending : l.pending = none) {p : String × Kind}
    (hp : IsShortestStart patterns l.cursor.remaining p) (hne : p.1 ≠ "")
    (hescape : l.escape ∉ p.1.toList) :
  (l.next .raw).1 = .ok (.empty p.2) ∧ (l.next .raw).2.pending = none
    ∧ p.1.toList ++ (l.next .raw).2.cursor.remaining = l.cursor.remaining
  := by
  have hwf := hholds.wellFormed
  have hpath : m.trie.path root ++ p.1.toList = p.1.toList := by
    rw [hwf.path_root, List.nil_append]
  obtain ⟨rest, hrest⟩ := hp.start
  obtain ⟨n, hrun⟩ := Chunk.run_pattern hholds hp.mem (fun q hq => hp.eq_of_prefix hq) l.escape
    l.maxTextChunk "" (by simpa using hne) hescape rest hwf.root_lt_size hpath
  obtain ⟨hresult, hpend, -, hremaining⟩ := next_raw_of_isErrorFree hfree hm hpending
  rw [← hrest] at hresult hpend hremaining ⊢
  rw [Chunk.start, hrun] at hresult hpend hremaining
  exact ⟨hresult, hpend, congrArg _ hremaining⟩

end Lexer

/-! ### The longest delimiter -/

/-- Each delimiter among the tokens of the text `s` stands in `s` after what the tokens before it
spell, and no longer delimiter starts there. -/
def Token.MatchLongest (config : Config) (s : String) (tokens : List Token) : Prop :=
  ∀ before d after, tokens = before ++ .empty (.delimiter d) :: after →
    let rest := s.toList.drop (before.flatMap (spell config)).length
    config.spelling d <+: rest
      ∧ ∀ d', config.spelling d' <+: rest → (config.spelling d').length ≤ (config.spelling d).length

/-- No delimiter starts another one that is free of the escape character. -/
def Config.IsPrefixFree (config : Config) : Prop :=
  ∀ d d', config.spelling d <+: config.spelling d' → config.escape ∉ config.spelling d' → d = d'

/-- Where no delimiter starts another, none can be longer than the one that is found. -/
theorem Config.IsPrefixFree.matchLongest {config : Config} (h : config.IsPrefixFree) {s : String}
    (hescape : config.escape ∉ s.toList) {tokens : List Token}
    (hspell : tokens.flatMap (Token.spell config) = s.toList) :
  Token.MatchLongest config s tokens
  := by
  intro before d after htokens rest
  have hstart : config.spelling d <+: rest := by
    rw [htokens, List.flatMap_append, List.flatMap_cons] at hspell
    change config.spelling d <+: s.toList.drop _
    rw [← hspell, List.drop_left]
    apply List.prefix_append
  use hstart
  intro d' hd'
  by_contra hlt
  rw [Nat.not_le] at hlt
  obtain rfl : d = d' := by
    apply h d d' (List.prefix_of_prefix_length_le hstart hd' hlt.le)
    intro hmem
    apply hescape
    apply List.mem_of_mem_drop (hd'.subset hmem)
  exact lt_irrefl _ hlt

namespace Lexer

variable {config : Config} {l : Lexer} {m : Matcher Kind}

theorem head?_runToEnd (l : Lexer) (mode : Mode) (limit : Nat) :
  ((l.runToEnd mode (limit + 1)).map (·.1)).head? = some (l.next mode).1
  := by
  rw [runToEnd]
  rcases l.next mode with ⟨_ | _, l'⟩ <;> rfl

/-- A scan of a delimiter returns the shortest delimiter that it starts with first. -/
theorem IsConfigured.exists_scan_eq_cons (h : l.IsConfigured config m) {d' : Delimiter}
    (hescape : config.escape ∉ config.spelling d') {tokens : List Token}
    (hscan : l.scan (config.delimiter d') = (tokens ++ [Token.endOfInput]).map .ok) :
  ∃ d after, tokens = .empty (.delimiter d) :: after
    ∧ IsShortestStart config.patterns (config.spelling d') (config.pattern d)
  := by
  have hmem : config.pattern d' ∈ config.patterns :=
    (Config.mem_patterns_iff _ _).mpr ⟨d', rfl, rfl⟩
  have hstart : (config.pattern d').1.toList <+: config.spelling d' := List.prefix_rfl
  obtain ⟨⟨s, k⟩, hp⟩ := exists_isShortestStart hmem hstart
  obtain ⟨d, rfl, rfl⟩ := (Config.mem_patterns_iff s k).mp hp.mem
  have hreset := (h.reset (config.delimiter d')).1
  have hfirst : IsShortestStart config.patterns
      (l.reset (.ofString (config.delimiter d'))).2.cursor.remaining (config.pattern d) := by
    rw [(remaining_reset l (Source.isErrorFree_ofString _)).2, Source.leading_ofString]
    exact hp
  have hne : config.delimiter d ≠ "" := by
    simpa [Config.spelling] using h.isMatcher.spelling_ne_nil d
  have hescape' : (l.reset (.ofString (config.delimiter d'))).2.escape ∉ config.spelling d := by
    rw [hreset.isConfigured.escape_eq]
    intro hmem
    apply hescape (hp.start.subset hmem)
  obtain ⟨hnext, -⟩ := next_raw_of_isShortestStart h.isMatcher.holds hreset.isErrorFree
    hreset.isConfigured.automaton_eq (pending_reset _ _) hfirst hne hescape'
  have hhead := head?_runToEnd (l.reset (.ofString (config.delimiter d'))).2 .raw
    (config.delimiter d').length
  rw [← Lexer.scan, hscan, hnext] at hhead
  cases tokens with
  | nil => cases hhead
  | cons t tokens =>
    cases hhead
    exact ⟨d, tokens, rfl, hp⟩

/-- Raw scans of texts without the escape character return the longest delimiter that starts
where one is found exactly for the settings in which no delimiter starts another one. -/
theorem Reachable.matchLongest_iff (h : Reachable config l) :
  (∀ s : String, config.escape ∉ s.toList → ∃ tokens : List Token,
      l.scan s = (tokens ++ [Token.endOfInput]).map .ok ∧ Token.MatchLongest config s tokens)
    ↔ config.IsPrefixFree
  := by
  obtain ⟨m, hm⟩ := h.exists_isConfigured
  constructor
  · intro hlongest d d' hstart hescape
    obtain ⟨tokens, hscan, hmatch⟩ := hlongest (config.delimiter d') hescape
    obtain ⟨d₁, after, rfl, hp⟩ := hm.exists_scan_eq_cons hescape hscan
    -- the delimiter `d'` itself starts at the first token, which is no longer than `d`
    obtain ⟨-, hle⟩ := hmatch [] d₁ after rfl
    apply hm.isMatcher.spelling_injective
    apply hstart.eq_of_length_le
    have hd' : (config.spelling d').length ≤ (config.spelling d₁).length := hle d' List.prefix_rfl
    apply hd'.trans
    apply hp.length_le (config.pattern d) _ hstart
    apply (Config.mem_patterns_iff _ _).mpr ⟨d, rfl, rfl⟩
  · intro hfree s hescape
    obtain ⟨tokens, hscan, hraw, hpieces⟩ := hm.scan s
    use tokens, hscan
    apply hfree.matchLongest hescape
    rw [hm.flatMap_spell hraw hpieces, unescape_of_notMem hescape]

/-- Settings in which a delimiter goes on from another one, but only with the escape character. -/
def resumed : Config :=
  ⟨"ab", "ab\\", "b", '\\', 0⟩

/-- The longer delimiter never starts in a text without the escape character. -/
theorem matchLongest_resumed :
  ∃ l, ofConfig resumed = .ok l ∧ resumed.IsPrefixFree ∧
    ∀ s : String, resumed.escape ∉ s.toList → ∃ tokens : List Token,
      l.scan s = (tokens ++ [Token.endOfInput]).map .ok ∧ Token.MatchLongest resumed s tokens
  := by
  have hfree : resumed.IsPrefixFree := by
    intro d d'
    cases d <;> cases d' <;> decide
  obtain ⟨l, hl⟩ : ∃ l, ofConfig resumed = .ok l := ⟨_, rfl⟩
  exact ⟨l, hl, hfree, (Reachable.matchLongest_iff (.new hl)).mpr hfree⟩

/-- A doubled brace is returned as two delimiters, although it is one itself. -/
theorem not_matchLongest_prefixed :
  ∃ l, ofConfig prefixed = .ok l ∧ prefixed.escape ∉ "\x7b\x7b".toList ∧ ∃ tokens : List Token,
    l.scan "\x7b\x7b" = (tokens ++ [Token.endOfInput]).map .ok
      ∧ tokens = [.empty (.delimiter .opening), .empty (.delimiter .opening)]
      ∧ ¬ Token.MatchLongest prefixed "\x7b\x7b" tokens
  := by
  refine ⟨_, rfl, by decide, _, by cbv, rfl, ?_⟩
  intro hmatch
  have := (hmatch [] .opening _ rfl).2 .continuation (by decide)
  revert this
  decide

end Lexer

end TemplateLexer
