import TemplateLexer.Proofs.Block.Contents
import TemplateLexer.Proofs.Raw.Scan

/-!
# The contents of chunks

The text of a chunk of raw text and the delimiter found after it have no other characters than
those that the scan of the chunk took (`Cursor.exists_takes_nextChunk`), whatever its source
delivers on the way.  Every step of the scan keeps this, with the delimiter in progress counted as
read (`Chunk.IsReadFrom.keeps_step`).
-/

namespace TemplateLexer

open Trie

namespace Chunk

variable {config : Config} {m : Matcher Kind} {escape : Char} {chunk : Chunk Kind}
  {cs : List Char} {c : Char}

/-- The chunk is read from the characters `cs`: its text, what it holds back and an escape
character that has taken none yet are among them. -/
structure IsReadFrom (m : Matcher Kind) (escape : Char) (chunk : Chunk Kind) (cs : List Char) :
    Prop where
  node_lt_size : chunk.node < m.trie.size
  tag?_eq : ∀ k, chunk.found = some k → m.trie.tag? chunk.node = some k
  sublist : (chunk.text.toList ++ m.trie.path chunk.node ++ chunk.unread escape).Sublist cs

section WellFormed

variable (hwf : m.trie.WellFormed)
include hwf

theorem isReadFrom_start :
  (start : Chunk Kind).IsReadFrom m escape []
  := by
  refine ⟨hwf.root_lt_size, ?_, ?_⟩
  · rintro _ ⟨⟩
  · simp [start, unread, hwf.path_root]

/-- A character read as it stands is released or held back. -/
theorem toList_plain_append (hnode : chunk.node < m.trie.size) (c : Char) :
  (chunk.plain m c).text.toList ++ m.trie.path (chunk.plain m c).node
    = chunk.text.toList ++ m.trie.path chunk.node ++ [c]
  := by
  rw [plain, String.toList_append, String.toList_ofList, List.append_assoc,
    Matcher.move_snd_append hwf hnode, List.append_assoc]

theorem isReadFrom_plain (hnode : chunk.node < m.trie.size)
    (h : (chunk.text.toList ++ m.trie.path chunk.node ++ [c]).Sublist cs) :
  (chunk.plain m c).IsReadFrom m escape cs
  := by
  constructor
  · apply Matcher.move_fst_lt_size hwf hnode
  · exact fun k hk => hk
  · rw [toList_plain_append hwf hnode, unread_of_eq_false rfl, List.append_nil]
    apply h

theorem isReadFrom_literal (hnode : chunk.node < m.trie.size)
    (h : (chunk.text.toList ++ m.trie.path chunk.node).Sublist cs) :
  (chunk.literal m c).IsReadFrom m escape (cs ++ [c])
  := by
  constructor
  · apply hwf.root_lt_size
  · rintro _ ⟨⟩
  · rw [unread_of_eq_false rfl, literal, Matcher.held_eq_path hwf hnode, hwf.path_root]
    simpa using h.append (List.Sublist.refl [c])

omit hwf in
theorem IsReadFrom.text_sublist (h : chunk.IsReadFrom m escape cs) :
  (chunk.text.toList ++ m.trie.path chunk.node).Sublist cs
  := (List.sublist_append_left _ _).trans h.sublist

theorem IsReadFrom.keeps_step (h : chunk.IsReadFrom m escape cs) (maxSize : Nat) (c : Char) :
  (chunk.step m escape maxSize c).Keeps (IsReadFrom m escape) cs c
  := by
  have hread : (chunk.text.toList ++ m.trie.path chunk.node ++ [c]).Sublist (cs ++ [c]) :=
    h.text_sublist.append (List.Sublist.refl [c])
  rw [step]
  dsimp only
  split_ifs with hescaping hc
  · apply isReadFrom_literal hwf h.node_lt_size h.text_sublist
  · constructor
    · apply h.node_lt_size
    · apply h.tag?_eq
    · rw [unread_of_eq_true rfl, ← hc]
      exact hread
  · apply isReadFrom_plain hwf h.node_lt_size hread
  · apply isReadFrom_plain hwf h.node_lt_size hread

end WellFormed

/-! ### The end of a chunk -/

/-- The token of a chunk and the one pending after it have the characters of its text and its
delimiter. -/
theorem content_token (config : Config) (chunk : Chunk Kind) :
  (chunk.token :: chunk.pending.toList.map .empty).flatMap (Token.content config)
    = chunk.text.toList ++ (chunk.found.toList.map .empty).flatMap (Token.content config)
  := by
  rw [token, pending]
  by_cases htext : chunk.text.isEmpty
  · rw [if_pos htext, if_pos htext, String.isEmpty_iff.mp htext]
    cases chunk.found with
    | none => rfl
    | some k => simp
  · rw [if_neg htext, if_neg htext]
    rfl

variable (hm : config.IsMatcher m)
include hm

/-- What a chunk has found has the characters of its path. -/
theorem IsReadFrom.content_found (h : chunk.IsReadFrom m escape cs) {k : Kind}
    (hfound : chunk.found = some k) :
  (Token.empty k).content config = m.trie.path chunk.node
  := by
  obtain ⟨d, rfl, hd⟩ := (hm.tag?_eq_some_iff h.node_lt_size k).mp (h.tag?_eq k hfound)
  apply hd

theorem IsReadFrom.flush_sublist (h : chunk.IsReadFrom m escape cs) :
  ((chunk.flush m).text.toList
    ++ ((chunk.flush m).found.toList.map .empty).flatMap (Token.content config)).Sublist cs
  := by
  cases hfound : chunk.found with
  | some k =>
    rw [flush_of_found_eq_some hfound, hfound, Option.toList_some, List.map_singleton,
      List.flatMap_singleton, h.content_found hm hfound]
    apply h.text_sublist
  | none =>
    rw [flush_of_found_eq_none hm.wellFormed h.node_lt_size hfound]
    simpa [hfound] using h.text_sublist

/-- The tokens of a chunk have no other characters than those that it is read from. -/
theorem IsReadFrom.close_sublist (h : chunk.IsReadFrom m escape cs) :
  (((chunk.close m escape).token :: (chunk.close m escape).pending.toList.map .empty).flatMap
    (Token.content config)).Sublist cs
  := by
  rw [content_token, close_eq_flush]
  split_ifs with hescaping
  · have hread := h.sublist
    rw [unread_of_eq_true hescaping] at hread
    have hplain : (chunk.plain m escape).IsReadFrom m escape cs :=
      isReadFrom_plain hm.wellFormed h.node_lt_size hread
    apply hplain.flush_sublist hm
  · apply h.flush_sublist hm

end Chunk

/-! ### The next chunk -/

/-- What a raw request finds has no other characters than those that it takes. -/
theorem Cursor.exists_takes_nextChunk {config : Config} {m : Matcher Kind}
    (hm : config.IsMatcher m) (cursor : Cursor) (escape : Char) (maxSize : Nat) :
  ∃ result next cs, cursor.nextChunk m escape maxSize = (result, next) ∧ cursor.Takes cs next
    ∧ ∀ chunk, result = .ok chunk →
      ((chunk.token :: chunk.pending.toList.map .empty).flatMap (Token.content config)).Sublist cs
  := by
  have hstart : (Chunk.start : Chunk Kind).IsReadFrom m escape [] :=
    Chunk.isReadFrom_start hm.wellFormed
  obtain ⟨e | chunk, next, cs, hscan, htakes, hresult⟩ :=
    exists_takes_scan_of_keeps (fun _ _ h => h.keeps_step hm.wellFormed maxSize) hstart cursor
  · rw [nextChunk, hscan]
    refine ⟨_, next, cs, rfl, htakes, ?_⟩
    rintro _ ⟨⟩
  · rw [nextChunk, hscan]
    refine ⟨_, next, cs, rfl, htakes, ?_⟩
    rintro _ ⟨⟩
    apply (hresult chunk rfl).close_sublist hm

end TemplateLexer
