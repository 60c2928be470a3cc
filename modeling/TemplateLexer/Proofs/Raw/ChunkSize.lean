import TemplateLexer.Proofs.Lexer.EndOfInput
import TemplateLexer.Proofs.Raw.Shortest

/-!
# The size of chunks

The size above which raw text is split has no influence on what is recognised, since no
delimiter is in progress where a text is split.  A text that is followed by another one has more
bytes than that size (`Lexer.IsScanning.isSplitAbove`), so that texts are split nowhere else.
-/

namespace TemplateLexer

/-! ### Chunks that leave characters -/

namespace Chunk

variable {κ : Type} {m : Matcher κ} {escape : Char} {maxSize : Nat} {chunk chunk' : Chunk κ}

theorem step_ne_leave (c : Char) :
  chunk.step m escape maxSize c ≠ .leave chunk'
  := by
  fun_cases step m escape maxSize chunk c <;> simp

/-- A chunk stops at a delimiter or where it is full. -/
theorem of_step_eq_finish {c : Char} (h : chunk.step m escape maxSize c = .finish chunk') :
  chunk'.escaping = false ∧ (chunk'.found = none → chunk'.isFull maxSize)
  := by
  revert h
  fun_cases step m escape maxSize chunk c with
  | case1 => simp
  | case2 => simp
  | case3 hescaping hc next hfull =>
    intro h
    rw [← Verdict.finish.inj h]
    constructor
    · rfl
    · intro hfound
      simpa [hfound] using hfull
  | case4 => simp

/-- A scan that leaves characters has stopped at a delimiter or where the chunk is full. -/
theorem of_run_snd_ne_nil (chunk : Chunk κ) {cs : List Char}
    (h : (Verdict.run (step m escape maxSize) chunk cs).2 ≠ []) :
  let r := Verdict.run (step m escape maxSize) chunk cs
  r.1.escaping = false ∧ (r.1.found = none → r.1.isFull maxSize)
  := by
  revert h
  fun_induction Verdict.run (step m escape maxSize) chunk cs with
  | case1 chunk => exact fun h => absurd rfl h
  | case2 chunk c cs chunk' hstep => exact absurd hstep (step_ne_leave c)
  | case3 chunk c cs chunk' hstep ih => exact ih
  | case4 chunk c cs chunk' hstep => exact fun _ => of_step_eq_finish hstep

theorem close_of_escaping_eq_false (hescaping : chunk.escaping = false) :
  chunk.close m escape = chunk.flush m
  := by
  rw [close_eq_flush, hescaping, if_neg Bool.false_ne_true]

/-- Closing a chunk that is full changes nothing. -/
theorem close_of_isFull (hwf : m.trie.WellFormed) (hescaping : chunk.escaping = false)
    (hfound : chunk.found = none) (hfull : chunk.isFull maxSize) :
  chunk.close m escape = chunk
  := by
  have hroot : chunk.node = Trie.root := by
    rw [isFull, Bool.and_eq_true] at hfull
    simpa using hfull.2
  rw [close_of_escaping_eq_false hescaping,
    flush_of_found_eq_none hwf (hroot ▸ hwf.root_lt_size) hfound, hroot, hwf.path_root,
    String.ofList_nil, String.append_empty, ← hroot]

theorem found_flush :
  (chunk.flush m).found = chunk.found
  := by
  rw [flush]
  split <;> rfl

/-- A chunk that leaves characters and has found no delimiter is larger than allowed. -/
theorem lt_utf8ByteSize_close_run (hwf : m.trie.WellFormed) (chunk : Chunk κ) {cs : List Char}
    (hrest : (Verdict.run (step m escape maxSize) chunk cs).2 ≠ []) :
  let closed := (Verdict.run (step m escape maxSize) chunk cs).1.close m escape
  closed.found = none → maxSize < closed.text.utf8ByteSize
  := by
  obtain ⟨hescaping, hfull⟩ := of_run_snd_ne_nil chunk hrest
  intro closed hfound
  rw [show closed = _ from close_of_escaping_eq_false hescaping, found_flush] at hfound
  have hisFull := hfull hfound
  have hclosed : closed = _ := close_of_isFull hwf hescaping hfound hisFull
  rw [isFull, Bool.and_eq_true, decide_eq_true_iff] at hisFull
  rw [hclosed]
  apply hisFull.1

section Token

variable {m : Matcher Kind} {chunk : Chunk Kind} {config : Config} (hm : config.IsMatcher m)
include hm

/-- Only a chunk with a text is returned as a text, and a delimiter found after it is pending. -/
theorem IsDone.of_token_kind_eq_text (h : chunk.IsDone m) (htext : chunk.token.kind = .text) :
  chunk.token.text = chunk.text ∧ chunk.pending = chunk.found
  := by
  rw [token, pending] at *
  by_cases hempty : chunk.text.isEmpty
  · rw [if_pos hempty] at htext
    cases hfound : chunk.found with
    | none =>
      rw [hfound] at htext
      cases htext
    | some k =>
      obtain ⟨⟨d, rfl⟩, -⟩ := h.of_found_eq_some hm hfound
      rw [hfound] at htext
      cases htext
  · rw [if_neg hempty, if_neg hempty]
    exact ⟨rfl, rfl⟩

end Token

end Chunk

/-- Where a text follows another one, the first has more than `size` bytes. -/
def Token.IsSplitAbove (size : Nat) (ts : List Token) : Prop :=
  ts.IsChain fun t t' => t.kind = .text → t'.kind = .text → size < t.text.utf8ByteSize

namespace Lexer

variable {config : Config} {l : Lexer} {m : Matcher Kind}

/-! ### Texts that follow each other -/

/-- What is pending is returned by the next raw request, and is no text. -/
theorem IsScanning.pending_eq_none (h : l.IsScanning config m) {t : Token}
    (ht : (l.next .raw).1 = .ok t) (htext : t.kind = .text) :
  l.pending = none
  := by
  rw [Option.eq_none_iff_forall_ne_some]
  intro k hk
  obtain ⟨d, rfl⟩ := h.pending_eq k hk
  rw [next_raw_of_pending hk] at ht
  cases ht
  cases htext

/-- A text is returned only where a character remains. -/
theorem IsScanning.remaining_ne_nil (h : l.IsScanning config m) {t : Token}
    (ht : (l.next .raw).1 = .ok t) (htext : t.kind = .text) :
  l.cursor.remaining ≠ []
  := by
  intro hnil
  have hnext := (h.next_of_remaining_eq_nil hnil .raw).1
  rw [h.pending_eq_none ht htext, ht] at hnext
  cases hnext
  cases htext

/-- A text that is followed by another one has more bytes than the size of chunks. -/
theorem IsScanning.lt_utf8ByteSize (h : l.IsScanning config m) {t t' : Token}
    (ht : (l.next .raw).1 = .ok t) (htext : t.kind = .text)
    (ht' : ((l.next .raw).2.next .raw).1 = .ok t') (htext' : t'.kind = .text) :
  config.maxTextChunk < t.text.utf8ByteSize
  := by
  have hm := h.isConfigured.isMatcher
  have hnext := h.isScanning_next .raw
  have hnone := hnext.pending_eq_none ht' htext'
  have hrest := hnext.remaining_ne_nil ht' htext'
  obtain ⟨hresult, hpending, -, hremaining⟩ := next_raw_of_isErrorFree h.isErrorFree
    h.isConfigured.automaton_eq (h.pending_eq_none ht htext)
  have hdone := (Chunk.complete_close_run hm.wellFormed l.maxTextChunk l.escape
    l.cursor.remaining).1
  rw [hremaining] at hrest
  rw [ht] at hresult
  cases hresult
  obtain ⟨htoken, hfound⟩ := hdone.of_token_kind_eq_text hm htext
  rw [← hpending, hnone] at hfound
  rw [htoken, ← h.isConfigured.maxTextChunk_eq]
  apply Chunk.lt_utf8ByteSize_close_run hm.wellFormed _ hrest hfound.symm

/-- Raw requests return texts one after another only where the first is larger than allowed. -/
theorem IsScanning.isSplitAbove (h : l.IsScanning config m) {limit : Nat} {tokens : List Token}
    (hrun : (l.runToEnd .raw limit).map (·.1) = tokens.map .ok) :
  Token.IsSplitAbove config.maxTextChunk tokens
  := by
  induction limit generalizing l tokens with
  | zero =>
    obtain rfl := List.map_eq_nil_iff.mp hrun.symm
    apply List.isChain_nil
  | succ limit ih =>
    obtain ⟨token, htoken, hreturns⟩ := h.next
    have hstep : l.next .raw = (.ok token, (l.next .raw).2) := Prod.ext htoken rfl
    rw [Lexer.runToEnd, hstep, List.map_cons] at hrun
    obtain ⟨t, ts, rfl, ht, hts⟩ := List.map_eq_cons_iff.mp hrun.symm
    cases ht
    by_cases hend : token.isEndOfInput
    · rw [if_pos hend] at hts
      obtain rfl := List.map_eq_nil_iff.mp hts
      apply List.isChain_singleton
    · rw [if_neg hend] at hts
      rw [Token.IsSplitAbove, List.isChain_cons]
      constructor
      · intro t' ht' htext htext'
        apply h.lt_utf8ByteSize htoken htext _ htext'
        cases limit with
        | zero =>
          obtain rfl := List.map_eq_nil_iff.mp hts
          cases ht'
        | succ limit =>
          have hhead := head?_runToEnd (l.next .raw).2 .raw limit
          rw [← hts, List.head?_map, Option.mem_def.mp ht', Option.map_some] at hhead
          apply (Option.some.inj hhead).symm
      · apply ih hreturns.isScanning hts.symm

/-- Two lexers whose settings differ in the size of chunks only return the same for every text, up
to where texts are split; and each of them splits no text that is not larger than its size. -/
theorem Reachable.merge_scan_eq {size size' : Nat} {l l' : Lexer}
    (h : Reachable { config with maxTextChunk := size } l)
    (h' : Reachable { config with maxTextChunk := size' } l') (s : String) :
  ∃ tokens tokens' : List Token, l.scan s = (tokens ++ [Token.endOfInput]).map .ok
    ∧ l'.scan s = (tokens' ++ [Token.endOfInput]).map .ok
    ∧ Token.merge tokens = Token.merge tokens'
    ∧ Token.IsSplitAbove size tokens ∧ Token.IsSplitAbove size' tokens'
  := by
  obtain ⟨m, hm⟩ := h.exists_isConfigured
  obtain ⟨m', hm'⟩ := h'.exists_isConfigured
  have hautomaton : Except.ok l.automaton = Except.ok l'.automaton :=
    h.automaton_eq_ok.symm.trans h'.automaton_eq_ok
  rw [hm.automaton_eq, hm'.automaton_eq] at hautomaton
  cases hautomaton
  obtain ⟨tokens, hscan, hraw, hpieces⟩ := hm.scan s
  obtain ⟨tokens', hscan', hraw', hpieces'⟩ := hm'.scan s
  use tokens, tokens', hscan, hscan'
  have hsplit := (hm.reset s).1.isSplitAbove hscan
  have hsplit' := (hm'.reset s).1.isSplitAbove hscan'
  refine ⟨?_, hsplit.left_of_append, hsplit'.left_of_append⟩
  rw [Token.merge_eq_ofPieces hraw, Token.merge_eq_ofPieces hraw', hpieces, hpieces']

/-- The text `xéa` is returned in one piece or in two. -/
theorem merge_scan_eq_nested :
  ∃ l l', ofConfig nested = .ok l ∧ ofConfig { nested with maxTextChunk := 2 } = .ok l' ∧
    ∃ tokens tokens' : List Token, l.scan "xéa" = (tokens ++ [Token.endOfInput]).map .ok
      ∧ l'.scan "xéa" = (tokens' ++ [Token.endOfInput]).map .ok
      ∧ Token.merge tokens = Token.merge tokens'
      ∧ Token.IsSplitAbove 0 tokens ∧ Token.IsSplitAbove 2 tokens'
  := by
  obtain ⟨l, hl⟩ : ∃ l, ofConfig nested = .ok l := ⟨_, rfl⟩
  obtain ⟨l', hl'⟩ : ∃ l', ofConfig { nested with maxTextChunk := 2 } = .ok l' := ⟨_, rfl⟩
  use l, l', hl, hl'
  exact @Reachable.merge_scan_eq nested 0 2 l l' (.new hl) (.new hl') "xéa"

end Lexer

end TemplateLexer
