import TemplateLexer.Proofs.Raw.ChunkSize

/-!
# Where texts are split

A request in raw mode reads letters one after another (`Chunk.readAll`).  A letter that stands as it
is ends the text where no delimiter is in progress and the text is larger than allowed, so that
before the last letter this is never so after such a letter (`Chunk.exists_hasRead`).  A letter that
was escaped does not end the text, however large it is.
-/

namespace TemplateLexer

open Trie

namespace Chunk

variable {κ : Type} {m : Matcher κ} {escape : Char} {maxSize : Nat}

/-! ### Reading letters -/

/-- The chunk with a letter read. -/
def read (m : Matcher κ) (chunk : Chunk κ) : Letter → Chunk κ
  | .plain c => chunk.plain m c
  | .escaped c => chunk.literal m c

/-- The chunk with the letters read, one after another. -/
def readAll (m : Matcher κ) (chunk : Chunk κ) (ls : List Letter) : Chunk κ :=
  ls.foldl (read m) chunk

/-- Of the letters that are read, one that stands as it is and is not the last leaves a delimiter in
progress or a text of at most `maxSize` bytes. -/
def IsSplit (m : Matcher κ) (maxSize : Nat) (chunk : Chunk κ) (ls : List Letter) : Prop :=
  ∀ before c after, ls = before ++ .plain c :: after → after ≠ [] →
    (chunk.readAll m (before ++ [.plain c])).node = root →
    (chunk.readAll m (before ++ [.plain c])).text.utf8ByteSize ≤ maxSize

theorem isSplit_nil (chunk : Chunk κ) :
  IsSplit m maxSize chunk []
  := by
  intro before c after h
  simp at h

theorem isSplit_singleton (chunk : Chunk κ) (l : Letter) :
  IsSplit m maxSize chunk [l]
  := by
  intro before c after h hafter
  rw [List.singleton_eq_append_iff] at h
  rcases h with ⟨-, h⟩ | ⟨-, h⟩
  · exact absurd (List.cons_eq_cons.mp h).2 hafter
  · cases h

/-- A letter that was escaped may leave any text. -/
theorem IsSplit.escaped_cons {chunk : Chunk κ} {ls : List Letter} {c : Char}
    (h : IsSplit m maxSize (chunk.literal m c) ls) :
  IsSplit m maxSize chunk (.escaped c :: ls)
  := by
  rintro (_ | ⟨l, before⟩) d after heq hafter
  · cases heq
  · obtain ⟨rfl, hls⟩ := List.cons_eq_cons.mp heq
    apply h before d after hls hafter

/-- A letter that stands as it is leaves a text that is not full, where others are read after it. -/
theorem IsSplit.plain_cons {chunk : Chunk κ} {ls : List Letter} {c : Char}
    (h : IsSplit m maxSize (chunk.plain m c) ls)
    (hnot : (chunk.plain m c).isFull maxSize = false) :
  IsSplit m maxSize chunk (.plain c :: ls)
  := by
  rintro (_ | ⟨l, before⟩) d after heq hafter hroot
  · cases heq
    rw [isFull, Bool.and_eq_false_iff, decide_eq_false_iff_not, decide_eq_false_iff_not] at hnot
    apply Nat.le_of_not_lt (hnot.resolve_right (not_not_intro hroot))
  · obtain ⟨rfl, hls⟩ := List.cons_eq_cons.mp heq
    apply h before d after hls hafter hroot

/-! ### Scanning -/

theorem run_escape_cons {chunk : Chunk κ} (hescaping : chunk.escaping = false) (c : Char)
    (cs : List Char) :
  Verdict.run (step m escape maxSize) chunk (escape :: c :: cs)
    = Verdict.run (step m escape maxSize) (chunk.literal m c) cs
  := by
  simp [Verdict.run, step, hescaping, literal]

/-- A character that stands as it is is the last one where the chunk is over, and otherwise the scan
goes on. -/
theorem run_cons_of_ne {chunk : Chunk κ} (hescaping : chunk.escaping = false) {c : Char}
    (hc : c ≠ escape) (cs : List Char) :
  Verdict.run (step m escape maxSize) chunk (c :: cs) = (chunk.plain m c, cs)
    ∨ (chunk.plain m c).isFull maxSize = false
      ∧ Verdict.run (step m escape maxSize) chunk (c :: cs)
        = Verdict.run (step m escape maxSize) (chunk.plain m c) cs
  := by
  rw [Verdict.run, step, hescaping, if_neg Bool.false_ne_true, if_neg hc]
  by_cases hover : (chunk.plain m c).found.isSome || (chunk.plain m c).isFull maxSize
  · left
    simp [hover]
  · right
    rw [Bool.or_eq_true, not_or] at hover
    simp [hover]

/-- The letters that a scan has read: those of the characters that it takes, closed at the end, and
after none of them that stands as it is it should have been over. -/
structure HasRead (m : Matcher κ) (escape : Char) (maxSize : Nat) (chunk : Chunk κ)
    (cs : List Char) (r : Chunk κ × List Char) (taken : List Char) : Prop where
  taken_append : taken ++ r.2 = cs
  close_eq : r.1.close m escape = (chunk.readAll m (letters escape taken)).flush m
  isSplit : IsSplit m maxSize chunk (letters escape taken)

/-- A scan reads the letters of the characters that it takes, and goes on as long as the text is not
full after a letter that stands as it is. -/
theorem exists_hasRead {chunk : Chunk κ} (hescaping : chunk.escaping = false) (cs : List Char) :
  ∃ taken, HasRead m escape maxSize chunk cs (Verdict.run (step m escape maxSize) chunk cs) taken
  := by
  fun_induction letters escape cs generalizing chunk with
  | case1 => exact ⟨[], rfl, close_of_escaping_eq_false hescaping, isSplit_nil chunk⟩
  | case2 c =>
    use [c]
    by_cases hc : c = escape
    · subst hc
      -- with nothing to take, the escape character is read as it stands when the chunk is closed
      have hrun : Verdict.run (step m c maxSize) chunk [c]
          = ({ chunk with escaping := true }, []) := by
        simp [Verdict.run, step, hescaping]
      rw [hrun]
      exact ⟨rfl, rfl, isSplit_singleton chunk _⟩
    · rcases run_cons_of_ne hescaping hc [] with hrun | ⟨-, hrun⟩ <;> rw [hrun] <;>
        exact ⟨rfl, rfl, isSplit_singleton chunk _⟩
  | case3 c cs ih =>
    obtain ⟨taken, hread⟩ := @ih (chunk.literal m c) rfl
    use escape :: c :: taken
    rw [run_escape_cons hescaping]
    constructor
    · rw [List.cons_append, List.cons_append, hread.taken_append]
    · rw [letters_escape_cons]
      apply hread.close_eq
    · rw [letters_escape_cons]
      apply hread.isSplit.escaped_cons
  | case4 c d cs hc ih =>
    rcases run_cons_of_ne hescaping hc (d :: cs) with hrun | ⟨hnot, hrun⟩ <;> rw [hrun]
    · use [c]
      exact ⟨rfl, rfl, isSplit_singleton chunk _⟩
    · obtain ⟨taken, hread⟩ := @ih (chunk.plain m c) rfl
      use c :: taken
      constructor
      · rw [List.cons_append, hread.taken_append]
      · rw [letters_cons_of_ne hc]
        apply hread.close_eq
      · rw [letters_cons_of_ne hc]
        apply hread.isSplit.plain_cons hnot

end Chunk

/-! ### Requests -/

namespace Lexer

variable {config : Config} {m : Matcher Kind} {l : Lexer}

/-- A text that raw mode returns is that of the letters that it takes, and it is split where it can
be, but for escaped letters. -/
theorem IsScanning.exists_hasRead (h : l.IsScanning config m) {text : String}
    (ht : (l.next .raw).1 = .ok ⟨.text, text⟩) :
  ∃ taken, taken ++ (l.next .raw).2.cursor.remaining = l.cursor.remaining
    ∧ text = ((Chunk.start.readAll m (letters config.escape taken)).flush m).text
    ∧ Chunk.IsSplit m config.maxTextChunk .start (letters config.escape taken)
  := by
  have hm := h.isConfigured.isMatcher
  obtain ⟨hresult, -, -, hremaining⟩ := next_raw_of_isErrorFree h.isErrorFree
    h.isConfigured.automaton_eq (h.pending_eq_none ht rfl)
  obtain ⟨taken, hread⟩ :=
    @Chunk.exists_hasRead Kind m l.escape l.maxTextChunk .start rfl l.cursor.remaining
  rw [← h.isConfigured.escape_eq, ← h.isConfigured.maxTextChunk_eq]
  refine ⟨taken, ?_, ?_, hread.isSplit⟩
  · rw [hremaining]
    apply hread.taken_append
  · have hdone := (Chunk.complete_close_run hm.wellFormed l.maxTextChunk l.escape
      l.cursor.remaining).1
    rw [ht] at hresult
    have htoken := Except.ok.inj hresult
    have htext := (hdone.of_token_kind_eq_text hm (by rw [← htoken])).1
    rw [← hread.close_eq, ← htext, ← htoken]

/-- Whatever was requested over an input that does not fail: a text that raw mode returns is that of
the letters that it takes, and before the last of these there is none that stands as it is after
which a text larger than allowed could have been returned. -/
theorem Reachable.exists_isSplit_next_raw (h : Reachable config l) {source : Source}
    (hsource : source.IsErrorFree) (modes : List Mode) {text : String}
    (ht : (((l.reset source).2.after modes).next .raw).1 = .ok ⟨.text, text⟩) :
  let l' := (l.reset source).2.after modes
  ∃ m taken, l.automaton = .built m
    ∧ taken ++ (l'.next .raw).2.cursor.remaining = l'.cursor.remaining
    ∧ text = ((Chunk.start.readAll m (letters config.escape taken)).flush m).text
    ∧ Chunk.IsSplit m config.maxTextChunk .start (letters config.escape taken)
  := by
  intro l'
  obtain ⟨m, hm⟩ := h.exists_isConfigured
  have hscanning : l'.IsScanning config m := (hm.isScanning_reset hsource).isScanning_after modes
  obtain ⟨taken, htaken, htext, hsplit⟩ := hscanning.exists_hasRead ht
  exact ⟨m, taken, hm.automaton_eq, htaken, htext, hsplit⟩

/-- Settings whose texts are split as soon as they are larger than two bytes. -/
def capped : Config :=
  { braces with maxTextChunk := 2 }

/-- The text of `ab{}cd` is split after the `c`: after `a` and `b` it is not larger than allowed,
and when it is larger after the second brace, that brace is in progress. -/
theorem exists_isSplit_next_raw_capped :
  ∃ l, ofConfig capped = .ok l ∧
    let l' := (l.reset (.ofChars ['a', 'b', '\x7b', '\x7d', 'c', 'd'])).2.after []
    (l'.next .raw).1 = .ok ⟨.text, "ab\x7b\x7dc"⟩ ∧ ∃ m taken, l.automaton = .built m
      ∧ taken ++ (l'.next .raw).2.cursor.remaining = l'.cursor.remaining
      ∧ "ab\x7b\x7dc" = ((Chunk.start.readAll m (letters capped.escape taken)).flush m).text
      ∧ Chunk.IsSplit m capped.maxTextChunk .start (letters capped.escape taken)
      ∧ letters capped.escape taken = ['a', 'b', '\x7b', '\x7d', 'c'].map .plain
      ∧ (Chunk.start.readAll m (['a', 'b'].map .plain)).node = root
      ∧ let full := Chunk.start.readAll m (['a', 'b', '\x7b', '\x7d'].map .plain)
        full.text = "ab\x7b" ∧ m.trie.path full.node = ['\x7d']
  := by
  refine ⟨_, rfl, ?_⟩
  intro l'
  have ht : (l'.next .raw).1 = .ok ⟨.text, "ab\x7b\x7dc"⟩ := by cbv
  have hremaining : (l'.next .raw).2.cursor.remaining = ['d'] := by cbv
  obtain ⟨m, taken, hm, htaken, htext, hsplit⟩ :=
    Reachable.exists_isSplit_next_raw (.new (show ofConfig capped = .ok _ from rfl))
      (Source.isErrorFree_ofChars ['a', 'b', '\x7b', '\x7d', 'c', 'd']) [] ht
  have happend : taken ++ ['d'] = ['a', 'b', '\x7b', '\x7d', 'c'] ++ ['d'] := by
    rw [hremaining] at htaken
    rw [htaken]
    cbv
  obtain rfl := List.append_cancel_right happend
  refine ⟨ht, m, _, hm, htaken, htext, hsplit, by decide, ?_⟩
  cases hm
  exact ⟨by cbv, by cbv, by cbv⟩

/-- Settings whose texts are split as soon as they can be. -/
def splitting : Config :=
  { Config.default with maxTextChunk := 0 }

/-- The two letters of the text `\a\b` are returned in one token, although after the first one no
delimiter is in progress and the text is larger than allowed. -/
theorem not_isSplit_next_raw_escaped :
  ∃ l m, ofConfig splitting = .ok l ∧ l.automaton = .built m
    ∧ letters splitting.escape "\\a\\b".toList = [.escaped 'a', .escaped 'b']
    ∧ ((l.reset (.ofString "\\a\\b")).2.next .raw).1 = .ok ⟨.text, "ab"⟩
    ∧ (Chunk.start.readAll m [.escaped 'a']).node = root
    ∧ splitting.maxTextChunk < (Chunk.start.readAll m [.escaped 'a']).text.utf8ByteSize
  := by
  refine ⟨_, _, rfl, rfl, by decide, by cbv, rfl, ?_⟩
  cbv

end Lexer

end TemplateLexer
