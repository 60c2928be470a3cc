import TemplateLexer.Proofs.Lexer.Reachable
import TemplateLexer.Proofs.Raw.Recognition

/-!
# Raw scans

A raw scan of a text resets a lexer to the text and asks for raw tokens until the input ends.
Each request takes the first pieces of what is still to be returned (`Lexer.IsScanning.next`),
and so a scan ends and returns all of them (`Lexer.IsConfigured.scan`).  They spell the text
with its escapes resolved (`Lexer.IsConfigured.flatMap_spell`).
-/

namespace TemplateLexer

open Trie

/-! ### Chunks as tokens -/

namespace Chunk

variable {m : Matcher Kind} {chunk : Chunk Kind}

theorem IsDone.complete_eq (h : chunk.IsDone m) (ls : List Letter) :
  chunk.complete m ls
    = chunk.text.toList.map .char ++ chunk.found.toList.map .tag ++ m.pieces root ls
  := by
  rw [complete]
  cases hfound : chunk.found with
  | none => simp [h.node_eq hfound]
  | some k => simp

variable {config : Config} (hm : config.IsMatcher m)
include hm

/-- What a chunk has found is a delimiter, which is not empty. -/
theorem IsDone.of_found_eq_some (h : chunk.IsDone m) {k : Kind} (hfound : chunk.found = some k) :
  (∃ d, k = .delimiter d) ∧ 0 < (m.trie.path chunk.node).length
  := by
  have htag := h.tag?_eq k hfound
  obtain ⟨d, rfl, hd⟩ := (hm.tag?_eq_some_iff h.node_lt_size k).mp htag
  rw [← hd]
  exact ⟨⟨d, rfl⟩, List.length_pos_of_ne_nil (hm.spelling_ne_nil d)⟩

/-- Without a character the token is the end of the input. -/
theorem IsDone.token_of_size_eq_zero (h : chunk.IsDone m) (hsize : chunk.size m = 0) :
  chunk.token = .endOfInput ∧ chunk.pending = none
  := by
  rw [size, h.escaping_eq] at hsize
  have htext : chunk.text.isEmpty := by
    rw [String.isEmpty_iff, ← String.length_eq_zero_iff]
    omega
  rw [token, pending, if_pos htext, if_pos htext]
  cases hfound : chunk.found with
  | none => exact ⟨rfl, rfl⟩
  | some k =>
    obtain ⟨-, hpos⟩ := h.of_found_eq_some hm hfound
    omega

/-- The token of a chunk and the delimiter pending after it have the pieces of the chunk, and
are not more than its characters. -/
theorem IsDone.token_of_size_pos (h : chunk.IsDone m) (hsize : 0 < chunk.size m) :
  chunk.token.IsRaw
    ∧ chunk.token.pieces ++ chunk.pending.toList.map .tag
      = chunk.text.toList.map .char ++ chunk.found.toList.map .tag
    ∧ (∀ k, chunk.pending = some k → ∃ d, k = .delimiter d)
    ∧ chunk.pending.toList.length < chunk.size m
  := by
  rw [token, pending]
  by_cases htext : chunk.text.isEmpty
  · rw [if_pos htext, if_pos htext]
    rw [String.isEmpty_iff] at htext
    cases hfound : chunk.found with
    | none =>
      -- a chunk that is done without a delimiter stands at the root
      rw [size, htext, h.node_eq hfound, h.escaping_eq, hm.wellFormed.path_root] at hsize
      contradiction
    | some k =>
      obtain ⟨⟨d, rfl⟩, -⟩ := h.of_found_eq_some hm hfound
      rw [htext]
      exact ⟨.inr ⟨d, rfl⟩, rfl, by simp, hsize⟩
  · rw [if_neg htext, if_neg htext]
    rw [String.isEmpty_iff] at htext
    have hne : chunk.text.toList ≠ [] := by simpa using htext
    have hlength : 0 < chunk.text.length := List.length_pos_of_ne_nil hne
    have htoken : (⟨.text, chunk.text⟩ : Token) = .ofText chunk.text.toList := by
      rw [Token.ofText, String.ofList_toList]
    rw [htoken, Token.pieces_ofText]
    refine ⟨.inl ⟨_, hne, rfl⟩, rfl, fun k hk => (h.of_found_eq_some hm hk).1, ?_⟩
    rw [size]
    cases hfound : chunk.found with
    | none => simpa using Nat.add_pos_left (Nat.add_pos_left hlength _) _
    | some k =>
      obtain ⟨-, hpos⟩ := h.of_found_eq_some hm hfound
      rw [Option.toList_some, List.length_singleton]
      omega

end Chunk

/-- A chunk over an input that does not fail is the chunk of the remaining characters. -/
theorem Cursor.nextChunk_of_isErrorFree {κ : Type} {cursor : Cursor}
    (h : cursor.source.IsErrorFree) (m : Matcher κ) (escape : Char) (maxSize : Nat) :
  let r := Verdict.run (Chunk.step m escape maxSize) .start cursor.remaining
  (cursor.nextChunk m escape maxSize).1 = .ok (r.1.close m escape)
    ∧ (cursor.nextChunk m escape maxSize).2.source.IsErrorFree
    ∧ (cursor.nextChunk m escape maxSize).2.remaining = r.2
  := by
  obtain ⟨hresult, hfree, hremaining⟩ :=
    scan_of_isErrorFree (Chunk.step m escape maxSize) .start h
  rw [nextChunk]
  generalize cursor.scan (Chunk.step m escape maxSize) .start = scan at *
  obtain ⟨result, next⟩ := scan
  dsimp only at hresult hfree hremaining
  rw [hresult]
  exact ⟨rfl, hfree, hremaining⟩

/-! ### Spelling -/

/-- The characters of a delimiter, by its kind. -/
def Config.kindSpelling (config : Config) : Kind → List Char
  | .delimiter d => config.spelling d
  | _ => []

/-- The characters that a token of raw text stands for: its text, or those of the delimiter. -/
def Token.spell (config : Config) (t : Token) : List Char :=
  t.text.toList ++ config.kindSpelling t.kind

theorem Token.IsRaw.spell_eq {t : Token} (h : t.IsRaw) (config : Config) :
  t.spell config = t.pieces.flatMap (Piece.spell config.kindSpelling)
  := by
  rcases h with ⟨cs, -, rfl⟩ | ⟨d, rfl⟩
  · rw [pieces_ofText, Piece.flatMap_spell_char]
    simp [spell, ofText, Config.kindSpelling]
  · simp [spell, empty, pieces, Piece.spell]

theorem Config.IsMatcher.kindSpelling_eq {config : Config} {m : Matcher Kind}
    (h : config.IsMatcher m) :
  ∀ n < m.trie.size, ∀ k, m.trie.tag? n = some k → config.kindSpelling k = m.trie.path n
  := by
  intro n hn k hk
  obtain ⟨d, rfl, hd⟩ := (h.tag?_eq_some_iff hn k).mp hk
  apply hd

/-! ### Requests -/

namespace Lexer

variable {config : Config} {m : Matcher Kind} {l : Lexer}

/-- The lexer has the settings and reads an input that does not fail, and what is pending is a
delimiter. -/
structure IsScanning (config : Config) (m : Matcher Kind) (l : Lexer) : Prop where
  isConfigured : l.IsConfigured config m
  isErrorFree : l.cursor.source.IsErrorFree
  pending_eq : ∀ k, l.pending = some k → ∃ d, k = .delimiter d

/-- The pieces that are still to be returned. -/
def upcoming (m : Matcher Kind) (l : Lexer) : List (Piece Kind) :=
  l.pending.toList.map .tag ++ m.pieces root (letters l.escape l.cursor.remaining)

/-- The number of characters still to be read, and of delimiters still to be returned. -/
def extent (l : Lexer) : Nat :=
  l.pending.toList.length + l.cursor.remaining.length

theorem next_raw_of_pending {k : Kind} (hpending : l.pending = some k) :
  l.next .raw = (.ok (.empty k), { l with pending := none, current := .empty k })
  := by
  rw [next, produce, nextRaw, hpending]

theorem next_raw_of_chunk (hpending : l.pending = none) (hautomaton : l.automaton = .built m)
    {chunk : Chunk Kind} {cursor : Cursor}
    (hchunk : l.cursor.nextChunk m l.escape l.maxTextChunk = (.ok chunk, cursor)) :
  l.next .raw
    = (.ok chunk.token, { l with cursor, pending := chunk.pending, current := chunk.token })
  := by
  have hmatcher : l.automaton.matcher? = some m := by rw [hautomaton]; rfl
  rw [next, produce, nextRaw, hpending, hmatcher]
  dsimp only
  rw [hchunk]

theorem next_raw_of_eq_error (hpending : l.pending = none) (hautomaton : l.automaton = .built m)
    {e : IoError} {cursor : Cursor}
    (hchunk : l.cursor.nextChunk m l.escape l.maxTextChunk = (.error e, cursor)) :
  l.next .raw = (.error (.io e), { l with cursor })
  := by
  have hmatcher : l.automaton.matcher? = some m := by rw [hautomaton]; rfl
  rw [next, produce, nextRaw, hpending, hmatcher]
  dsimp only
  rw [hchunk]

/-- The token of a raw request, and what it leaves to be returned: the first of the upcoming
pieces, or the end of the input when there are none. -/
structure Returns (config : Config) (m : Matcher Kind) (l : Lexer) (token : Token) (l' : Lexer) :
    Prop where
  isScanning : l'.IsScanning config m
  outcome : token = .endOfInput ∧ l.upcoming m = [] ∧ l'.extent = 0
    ∨ token.IsRaw ∧ l.upcoming m = token.pieces ++ l'.upcoming m ∧ l'.extent < l.extent

theorem IsScanning.returns_of_pending (h : l.IsScanning config m) {k : Kind}
    (hpending : l.pending = some k) :
  Returns config m l (.empty k) { l with pending := none, current := .empty k }
  := by
  obtain ⟨d, rfl⟩ := h.pending_eq k hpending
  constructor
  · constructor
    · apply h.isConfigured.of_sameSettings
      exact ⟨rfl, rfl, rfl⟩
    · apply h.isErrorFree
    · simp
  · right
    rw [upcoming, upcoming, extent, extent, hpending]
    exact ⟨.inr ⟨d, rfl⟩, rfl, by simp⟩

theorem IsScanning.returns_of_chunk (h : l.IsScanning config m) (hpending : l.pending = none)
    {chunk : Chunk Kind} {cursor : Cursor} (hfree : cursor.source.IsErrorFree)
    (hdone : chunk.IsDone m)
    (hcomplete : chunk.complete m (letters l.escape cursor.remaining)
      = m.pieces root (letters l.escape l.cursor.remaining))
    (hsize : chunk.size m + cursor.remaining.length ≤ l.cursor.remaining.length)
    (hpos : l.cursor.remaining ≠ [] → 0 < chunk.size m) :
  Returns config m l chunk.token
    { l with cursor, pending := chunk.pending, current := chunk.token }
  := by
  have hm := h.isConfigured.isMatcher
  have hsettings : IsConfigured config m
      { l with cursor, pending := chunk.pending, current := chunk.token } := by
    apply h.isConfigured.of_sameSettings
    exact ⟨rfl, rfl, rfl⟩
  rcases Nat.eq_zero_or_pos (chunk.size m) with hzero | hpos'
  · -- the request finds no character and nothing pending
    obtain ⟨htoken, hnone⟩ := hdone.token_of_size_eq_zero hm hzero
    have hnil : l.cursor.remaining = [] := by
      by_contra hne
      have := hpos hne
      omega
    constructor
    · exact ⟨hsettings, hfree, by simp [hnone]⟩
    · left
      rw [hnil, List.length_nil, hzero, Nat.zero_add, Nat.le_zero] at hsize
      rw [upcoming, extent, hpending, hnil, letters_nil, Matcher.pieces_root_nil hm.wellFormed]
      simp [htoken, hnone, hsize]
  · obtain ⟨hraw, hpieces, hdelimiter, hlength⟩ := hdone.token_of_size_pos hm hpos'
    rw [hdone.complete_eq, ← hpieces] at hcomplete
    constructor
    · exact ⟨hsettings, hfree, hdelimiter⟩
    · right
      rw [upcoming, upcoming, extent, extent, hpending, ← List.append_assoc, hcomplete]
      refine ⟨hraw, rfl, ?_⟩
      dsimp only [Option.toList_none, List.length_nil]
      omega

/-- Every raw request succeeds and returns what comes next. -/
theorem IsScanning.next (h : l.IsScanning config m) :
  ∃ token, (l.next .raw).1 = .ok token ∧ Returns config m l token (l.next .raw).2
  := by
  cases hpending : l.pending with
  | some k =>
    rw [next_raw_of_pending hpending]
    exact ⟨_, rfl, h.returns_of_pending hpending⟩
  | none =>
    obtain ⟨hresult, hfree, hremaining⟩ :=
      Cursor.nextChunk_of_isErrorFree h.isErrorFree m l.escape l.maxTextChunk
    obtain ⟨hdone, hcomplete, hsize, hpos⟩ :=
      Chunk.complete_close_run h.isConfigured.isMatcher.wellFormed l.maxTextChunk l.escape
        l.cursor.remaining
    rw [← hremaining] at hcomplete hsize
    rw [next_raw_of_chunk hpending h.isConfigured.automaton_eq (Prod.ext hresult rfl)]
    exact ⟨_, rfl, h.returns_of_chunk hpending hfree hdone hcomplete hsize hpos⟩

/-! ### Scans -/

/-- The results of a raw request after another on the text `s`, until the input ends or one
fails. -/
def scan (l : Lexer) (s : String) : List (Except Error Token) :=
  ((l.reset (.ofString s)).2.runToEnd .raw (s.length + 1)).map (·.1)

/-- Raw requests return all that is upcoming and then the end of the input. -/
theorem IsScanning.runToEnd (h : l.IsScanning config m) {limit : Nat} (hlimit : l.extent < limit) :
  ∃ tokens : List Token, (l.runToEnd .raw limit).map (·.1) = (tokens ++ [Token.endOfInput]).map .ok
    ∧ (∀ t ∈ tokens, t.IsRaw) ∧ tokens.flatMap Token.pieces = l.upcoming m
  := by
  induction limit generalizing l with
  | zero => cases hlimit
  | succ limit ih =>
    obtain ⟨token, htoken, hnext⟩ := h.next
    have hstep : l.next .raw = (.ok token, (l.next .raw).2) := Prod.ext htoken rfl
    rw [Lexer.runToEnd, hstep]
    rcases hnext.outcome with ⟨rfl, hnil, -⟩ | ⟨hraw, hupcoming, hlt⟩
    · use []
      simp [hnil, Token.isEndOfInput, Token.endOfInput, Token.empty]
    · obtain ⟨tokens, hrun, hraws, hpieces⟩ := ih hnext.isScanning (by omega)
      use token :: tokens
      have hend : token.isEndOfInput = false := by
        rcases hraw with ⟨cs, -, rfl⟩ | ⟨d, rfl⟩ <;> rfl
      rw [List.flatMap_cons, hpieces, hupcoming]
      simpa [hend, hrun, hraw] using hraws

theorem cursor_reset (l : Lexer) (source : Source) :
  (l.reset source).2.cursor = (Cursor.before source).advance.2
  := by
  rw [reset]
  rcases (Cursor.before source).advance with ⟨_ | _, cursor⟩ <;> rfl

@[simp]
theorem pending_reset (l : Lexer) (source : Source) :
  (l.reset source).2.pending = none
  := by
  rw [reset]
  rcases (Cursor.before source).advance with ⟨_ | _, cursor⟩ <;> rfl

/-- To a lexer that is reset to an input that does not fail the whole input remains. -/
theorem remaining_reset (l : Lexer) {source : Source} (h : source.IsErrorFree) :
  (l.reset source).2.cursor.source.IsErrorFree
    ∧ (l.reset source).2.cursor.remaining = source.leading
  := by
  have hbefore : (Cursor.before source).source.IsErrorFree := h
  rw [cursor_reset]
  apply (Cursor.advance_of_isErrorFree hbefore).2

theorem IsConfigured.isScanning_reset (h : l.IsConfigured config m) {source : Source}
    (hsource : source.IsErrorFree) :
  (l.reset source).2.IsScanning config m
  := by
  constructor
  · apply h.of_sameSettings (sameSettings_reset l source)
  · apply (remaining_reset l hsource).1
  · simp

/-- A lexer that is reset to a text reads that text, whatever it has read before. -/
theorem IsConfigured.reset (h : l.IsConfigured config m) (s : String) :
  (l.reset (.ofString s)).2.IsScanning config m
    ∧ (l.reset (.ofString s)).2.upcoming m = m.pieces root (letters config.escape s.toList)
    ∧ (l.reset (.ofString s)).2.extent = s.length
  := by
  have hsettings := h.of_sameSettings (sameSettings_reset l (.ofString s))
  obtain ⟨-, hremaining⟩ := remaining_reset l (Source.isErrorFree_ofString s)
  rw [Source.leading_ofString] at hremaining
  constructor
  · apply h.isScanning_reset (Source.isErrorFree_ofString s)
  · rw [upcoming, extent, pending_reset, hremaining, hsettings.escape_eq]
    exact ⟨rfl, Nat.zero_add _⟩

/-- A raw scan of a text ends and returns the pieces of its letters. -/
theorem IsConfigured.scan (h : l.IsConfigured config m) (s : String) :
  ∃ tokens : List Token, l.scan s = (tokens ++ [Token.endOfInput]).map .ok
    ∧ (∀ t ∈ tokens, t.IsRaw)
    ∧ tokens.flatMap Token.pieces = m.pieces root (letters config.escape s.toList)
  := by
  obtain ⟨hscanning, hupcoming, hextent⟩ := h.reset s
  rw [← hupcoming]
  apply hscanning.runToEnd
  omega

/-! ### The text of the tokens -/

/-- Tokens with the pieces of a text spell the characters that its letters stand for. -/
theorem IsConfigured.flatMap_spell (h : l.IsConfigured config m) {tokens : List Token}
    (hraw : ∀ t ∈ tokens, t.IsRaw) {cs : List Char}
    (hpieces : tokens.flatMap Token.pieces = m.pieces root (letters config.escape cs)) :
  tokens.flatMap (Token.spell config) = unescape config.escape cs
  := by
  have hwf := h.isMatcher.wellFormed
  have hspell : ∀ t ∈ tokens, t.spell config = t.pieces.flatMap (Piece.spell config.kindSpelling) :=
    fun t ht => (hraw t ht).spell_eq config
  rw [List.flatMap_congr hspell, ← List.flatMap_assoc, hpieces,
    Matcher.flatMap_spell_pieces hwf h.isMatcher.kindSpelling_eq hwf.root_lt_size, hwf.path_root]
  rfl

/-- What a raw scan returns spells the text with its escapes resolved: nothing is lost, invented
or moved.  The scan ends, and its texts are not empty. -/
theorem Reachable.spell_scan (h : Reachable config l) (s : String) :
  ∃ tokens : List Token, l.scan s = (tokens ++ [Token.endOfInput]).map .ok
    ∧ (∀ t ∈ tokens, t.IsRaw)
    ∧ tokens.flatMap (Token.spell config) = unescape config.escape s.toList
  := by
  obtain ⟨m, hm⟩ := h.exists_isConfigured
  obtain ⟨tokens, hscan, hraw, hpieces⟩ := hm.scan s
  use tokens, hscan, hraw
  apply hm.flatMap_spell hraw hpieces

/-- Settings in which a delimiter is part of another and one holds the escape character. -/
def nested : Config :=
  ⟨"ab", "b", "c\\", '\\', 0⟩

/-- In `xab\bc\` the escaped `b` is text, and so is the escape character at the end. -/
theorem spell_scan_nested :
  ∃ l, ofConfig nested = .ok l ∧ ∃ tokens : List Token,
    l.scan "xab\\bc\\" = (tokens ++ [Token.endOfInput]).map .ok
      ∧ (∀ t ∈ tokens, t.IsRaw)
      ∧ tokens.flatMap (Token.spell nested) = "xabbc\\".toList
  := by
  obtain ⟨l, hl⟩ : ∃ l, ofConfig nested = .ok l := ⟨_, rfl⟩
  use l, hl
  apply Reachable.spell_scan (.new hl) "xab\\bc\\"

end Lexer

end TemplateLexer
