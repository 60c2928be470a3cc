import TemplateLexer.Chunk
import TemplateLexer.Proofs.Matcher.Reading
import TemplateLexer.Proofs.Raw.Letter
import TemplateLexer.Proofs.Raw.Piece

/-!
# Recognition

`Matcher.pieces m n ls` says what a matcher makes of the letters `ls` when it has reached the
node `n`, without regard to where chunks end.  The pieces spell the letters
(`Matcher.flatMap_spell_pieces`).  A chunk gives the first of them and leaves the input from
which the others come (`Chunk.complete_close_run`), so that neither the size of a chunk nor the
place where it ends has an influence on what is recognised.
-/

namespace TemplateLexer

variable {κ : Type}

open Trie

/-! ### The pieces of letters -/

/-- The pieces of the letters after the path of `n`: a letter that was escaped breaks a match
off, and after a delimiter matching begins anew. -/
def Matcher.pieces (m : Matcher κ) (n : Nat) : List Letter → List (Piece κ)
  | [] => (m.held n).map .char
  | .escaped c :: ls => (m.held n).map .char ++ .char c :: m.pieces root ls
  | .plain c :: ls =>
    (m.move n c).2.map .char ++
      match m.trie.tag? (m.move n c).1 with
      | some k => .tag k :: m.pieces root ls
      | none => m.pieces (m.move n c).1 ls

/-- The characters of a piece, when `spelling` gives those of the delimiters. -/
def Piece.spell (spelling : κ → List Char) : Piece κ → List Char
  | char c => [c]
  | tag k => spelling k

@[simp]
theorem Piece.flatMap_spell_char (spelling : κ → List Char) (cs : List Char) :
  (cs.map Piece.char).flatMap (Piece.spell spelling) = cs
  := by
  simp [List.flatMap_map, Piece.spell]

namespace Matcher

variable {m : Matcher κ} (h : m.trie.WellFormed)
include h

theorem held_root :
  m.held root = []
  := by
  rw [held_eq_path h h.root_lt_size, h.path_root]

theorem pieces_root_nil :
  m.pieces root [] = []
  := by
  rw [pieces, held_root h, List.map_nil]

/-- The pieces spell the path and the letters. -/
theorem flatMap_spell_pieces {spelling : κ → List Char}
    (hspelling : ∀ n < m.trie.size, ∀ k, m.trie.tag? n = some k → spelling k = m.trie.path n)
    {n : Nat} (hn : n < m.trie.size) (ls : List Letter) :
  (m.pieces n ls).flatMap (Piece.spell spelling) = m.trie.path n ++ ls.map Letter.char
  := by
  induction ls generalizing n with
  | nil => rw [pieces, held_eq_path h hn, Piece.flatMap_spell_char, List.map_nil, List.append_nil]
  | cons l ls ih =>
    have hroot := ih h.root_lt_size
    rw [h.path_root, List.nil_append] at hroot
    cases l with
    | escaped c =>
      rw [pieces, held_eq_path h hn, List.flatMap_append, Piece.flatMap_spell_char,
        List.flatMap_cons, hroot]
      rfl
    | plain c =>
      have hlt := move_fst_lt_size h hn c
      have hmove := congrArg (· ++ ls.map Letter.char) (move_snd_append h hn c)
      rw [pieces, List.flatMap_append, Piece.flatMap_spell_char]
      cases htag : m.trie.tag? (m.move n c).1 with
      | none => simpa [ih hlt, Letter.char] using hmove
      | some k => simpa [hroot, Piece.spell, hspelling _ hlt k htag, Letter.char] using hmove

end Matcher

/-! ### The pieces of a chunk -/

namespace Chunk

variable {m : Matcher κ} {escape : Char} {maxSize : Nat} {chunk chunk' : Chunk κ}

/-- The pieces of a chunk and of the letters `ls` after it. -/
def complete (m : Matcher κ) (chunk : Chunk κ) (ls : List Letter) : List (Piece κ) :=
  chunk.text.toList.map .char ++
    match chunk.found with
    | some k => .tag k :: m.pieces root ls
    | none => m.pieces chunk.node ls

/-- The escape character that has not taken its character yet. -/
def unread (escape : Char) (chunk : Chunk κ) : List Char :=
  if chunk.escaping then [escape] else []

/-- The number of characters that stand for what the chunk has read. -/
def size (m : Matcher κ) (chunk : Chunk κ) : Nat :=
  chunk.text.length + (m.trie.path chunk.node).length + if chunk.escaping then 1 else 0

/-- The scan of the chunk goes on. -/
structure IsOpen (m : Matcher κ) (chunk : Chunk κ) : Prop where
  node_lt_size : chunk.node < m.trie.size
  found_eq : chunk.found = none

/-- The scan of the chunk is over, at a delimiter or where none is in progress. -/
structure IsDone (m : Matcher κ) (chunk : Chunk κ) : Prop where
  node_lt_size : chunk.node < m.trie.size
  escaping_eq : chunk.escaping = false
  tag?_eq : ∀ k, chunk.found = some k → m.trie.tag? chunk.node = some k
  node_eq : chunk.found = none → chunk.node = root

/-- Reading `c` leads from `chunk` to `chunk'`. -/
structure Leads (m : Matcher κ) (escape : Char) (chunk : Chunk κ) (c : Char)
    (chunk' : Chunk κ) : Prop where
  complete_eq : ∀ cs, chunk'.complete m (letters escape (chunk'.unread escape ++ cs))
    = chunk.complete m (letters escape (chunk.unread escape ++ c :: cs))
  size_le : chunk'.size m ≤ chunk.size m + 1
  size_pos : 0 < chunk'.size m

theorem unread_of_eq_true (h : chunk.escaping = true) :
  chunk.unread escape = [escape]
  := if_pos h

theorem unread_of_eq_false (h : chunk.escaping = false) :
  chunk.unread escape = []
  := by
  rw [unread, h]
  rfl

theorem complete_plain (h : chunk.found = none) (c : Char) (ls : List Letter) :
  (chunk.plain m c).complete m ls = chunk.complete m (.plain c :: ls)
  := by
  rw [complete, complete, h]
  simp [plain, Matcher.pieces]

theorem complete_literal (h : chunk.found = none) (c : Char) (ls : List Letter) :
  (chunk.literal m c).complete m ls = chunk.complete m (.escaped c :: ls)
  := by
  rw [complete, complete, h]
  simp [literal, Matcher.pieces]

section WellFormed

variable (hwf : m.trie.WellFormed)
include hwf

theorem isOpen_start :
  (start : Chunk κ).IsOpen m
  := ⟨hwf.root_lt_size, rfl⟩

theorem size_plain (h : chunk.node < m.trie.size) (c : Char) :
  (chunk.plain m c).size m = chunk.text.length + (m.trie.path chunk.node).length + 1
  := by
  have hmove := congrArg List.length (Matcher.move_snd_append hwf h c)
  rw [List.length_append, List.length_append, List.length_singleton] at hmove
  simp only [size, plain, String.length_append, String.length_ofList, Bool.false_eq_true, if_false]
  omega

theorem size_literal (h : chunk.node < m.trie.size) (c : Char) :
  (chunk.literal m c).size m = chunk.text.length + (m.trie.path chunk.node).length + 1
  := by
  simp [size, literal, Matcher.held_eq_path hwf h, hwf.path_root]

theorem leads_plain (h : chunk.IsOpen m) (hescaping : chunk.escaping = false) {c : Char}
    (hc : c ≠ escape) :
  chunk.Leads m escape c (chunk.plain m c)
  := by
  have hsize := size_plain hwf h.node_lt_size c
  constructor
  · intro cs
    rw [unread_of_eq_false hescaping, unread_of_eq_false rfl, complete_plain h.found_eq,
      List.nil_append, List.nil_append, letters_cons_of_ne hc]
  · rw [hsize, size]
    omega
  · omega

theorem leads_literal (h : chunk.IsOpen m) (hescaping : chunk.escaping = true) (c : Char) :
  chunk.Leads m escape c (chunk.literal m c)
  := by
  have hsize := size_literal hwf h.node_lt_size c
  constructor
  · intro cs
    rw [unread_of_eq_true hescaping, unread_of_eq_false rfl, complete_literal h.found_eq,
      List.nil_append, List.singleton_append, letters_escape_cons]
  · rw [hsize, size]
    omega
  · omega

omit hwf in
theorem leads_escape (hescaping : chunk.escaping = false) :
  chunk.Leads m escape escape { chunk with escaping := true }
  := by
  constructor
  · intro cs
    rw [unread_of_eq_false hescaping, unread_of_eq_true rfl]
    rfl
  · simp [size, hescaping]
  · simp [size]

theorem isDone_plain (h : chunk.node < m.trie.size) {c : Char}
    (hfull : (chunk.plain m c).found.isSome || (chunk.plain m c).isFull maxSize) :
  (chunk.plain m c).IsDone m
  := by
  constructor
  · apply Matcher.move_fst_lt_size hwf h
  · rfl
  · intro k hk
    apply hk
  · intro hfound
    rw [hfound, Option.isSome_none, Bool.false_or, isFull, Bool.and_eq_true] at hfull
    simpa using hfull.2

/-- One more character is taken, and the scan goes on or is over. -/
theorem step_cases (escape : Char) (maxSize : Nat) (h : chunk.IsOpen m) (c : Char) :
  ∃ chunk', chunk.Leads m escape c chunk'
    ∧ (chunk'.IsOpen m ∧ chunk.step m escape maxSize c = .take chunk'
      ∨ chunk'.IsDone m ∧ chunk.step m escape maxSize c = .finish chunk')
  := by
  rw [step]
  cases hescaping : chunk.escaping with
  | true => exact ⟨_, leads_literal hwf h hescaping c, .inl ⟨⟨hwf.root_lt_size, rfl⟩, rfl⟩⟩
  | false =>
    by_cases hc : c = escape
    · subst hc
      exact ⟨_, leads_escape hescaping, .inl ⟨⟨h.node_lt_size, h.found_eq⟩, if_pos rfl⟩⟩
    · refine ⟨chunk.plain m c, leads_plain hwf h hescaping hc, ?_⟩
      rw [if_neg Bool.false_ne_true, if_neg hc]
      by_cases hfull : (chunk.plain m c).found.isSome || (chunk.plain m c).isFull maxSize
      · exact .inr ⟨isDone_plain hwf h.node_lt_size hfull, if_pos hfull⟩
      · refine .inl ⟨⟨Matcher.move_fst_lt_size hwf h.node_lt_size c, ?_⟩, if_neg hfull⟩
        rw [Bool.or_eq_true, not_or, Option.isSome_iff_ne_none, not_not] at hfull
        exact hfull.1

/-- A chunk that has scanned `cs` gives the first pieces of these characters, and is done unless
it has taken all of them. -/
theorem complete_run (h : chunk.IsOpen m) (cs : List Char) :
  let r := Verdict.run (Chunk.step m escape maxSize) chunk cs
  (r.1.IsDone m ∨ r.1.IsOpen m ∧ r.2 = [])
    ∧ r.1.complete m (letters escape (r.1.unread escape ++ r.2))
      = chunk.complete m (letters escape (chunk.unread escape ++ cs))
    ∧ r.1.size m + r.2.length ≤ chunk.size m + cs.length
    ∧ (0 < chunk.size m + cs.length → 0 < r.1.size m)
  := by
  induction cs generalizing chunk with
  | nil => exact ⟨.inr ⟨h, rfl⟩, rfl, Nat.le_refl _, id⟩
  | cons c cs ih =>
    obtain ⟨chunk', hleads, hstep⟩ := step_cases hwf escape maxSize h c
    have hle := hleads.size_le
    have hpos := hleads.size_pos
    rw [List.length_cons, ← hleads.complete_eq cs]
    rcases hstep with ⟨hopen, hstep⟩ | ⟨hdone, hstep⟩
    · obtain ⟨hend, hcomplete, hsize, hsome⟩ := ih hopen
      simp only [Verdict.run, hstep]
      exact ⟨hend, hcomplete, by omega, fun _ => hsome (by omega)⟩
    · simp only [Verdict.run, hstep]
      exact ⟨.inl hdone, trivial, by omega, fun _ => hpos⟩

/-! ### The end of a chunk -/

/-- The chunk with a delimiter in progress made text, unless one was found. -/
def flush (m : Matcher κ) (chunk : Chunk κ) : Chunk κ :=
  if chunk.found.isSome then chunk
  else { chunk with text := chunk.text ++ String.ofList (m.held chunk.node), node := root }

omit hwf in
theorem close_eq_flush (m : Matcher κ) (escape : Char) (chunk : Chunk κ) :
  chunk.close m escape = (if chunk.escaping then chunk.plain m escape else chunk).flush m
  := rfl

omit hwf in
theorem flush_of_found_eq_some {k : κ} (h : chunk.found = some k) :
  chunk.flush m = chunk
  := by
  rw [flush, h]
  rfl

theorem flush_of_found_eq_none (hnode : chunk.node < m.trie.size) (h : chunk.found = none) :
  chunk.flush m
    = { chunk with text := chunk.text ++ String.ofList (m.trie.path chunk.node), node := root }
  := by
  rw [flush, h, Matcher.held_eq_path hwf hnode]
  rfl

/-- Nothing that was recognised is lost when the delimiter in progress is at its end. -/
theorem complete_flush (hnode : chunk.node < m.trie.size) {ls : List Letter}
    (h : chunk.found = none → chunk.node = root ∨ ls = []) :
  (chunk.flush m).complete m ls = chunk.complete m ls
  := by
  cases hfound : chunk.found with
  | some k => rw [flush_of_found_eq_some hfound]
  | none =>
    rw [flush_of_found_eq_none hwf hnode hfound]
    rcases h hfound with hroot | rfl
    · simp [complete, hfound, hroot, hwf.path_root]
    · simp [complete, hfound, Matcher.pieces, Matcher.held_eq_path hwf hnode,
        Matcher.held_root hwf]

theorem size_flush (hnode : chunk.node < m.trie.size) :
  (chunk.flush m).size m = chunk.size m
  := by
  cases hfound : chunk.found with
  | some k => rw [flush_of_found_eq_some hfound]
  | none => simp [flush_of_found_eq_none hwf hnode hfound, size, hwf.path_root]

theorem isDone_flush (hnode : chunk.node < m.trie.size) (hescaping : chunk.escaping = false)
    (htag : ∀ k, chunk.found = some k → m.trie.tag? chunk.node = some k) :
  (chunk.flush m).IsDone m
  := by
  cases hfound : chunk.found with
  | some k =>
    rw [flush_of_found_eq_some hfound]
    constructor
    · apply hnode
    · apply hescaping
    · apply htag
    · intro hnone
      rw [hfound] at hnone
      contradiction
  | none =>
    rw [flush_of_found_eq_none hwf hnode hfound]
    constructor
    · apply hwf.root_lt_size
    · apply hescaping
    · intro k hk
      rw [hfound] at hk
      contradiction
    · intro _
      rfl

/-- A chunk that reads no further letters of the delimiter in progress can be flushed: it is done
then, and its size and its pieces are as before. -/
theorem flush_spec (hnode : chunk.node < m.trie.size) (hescaping : chunk.escaping = false)
    (htag : ∀ k, chunk.found = some k → m.trie.tag? chunk.node = some k) {ls : List Letter}
    (hls : chunk.found = none → chunk.node = root ∨ ls = []) :
  (chunk.flush m).IsDone m
    ∧ (chunk.flush m).complete m ls = chunk.complete m ls
    ∧ (chunk.flush m).size m = chunk.size m
  := ⟨isDone_flush hwf hnode hescaping htag, complete_flush hwf hnode hls, size_flush hwf hnode⟩

/-- Closing a chunk leaves its size and, with what follows, its pieces as they are. -/
theorem close_of_run {cs : List Char} (h : chunk.IsDone m ∨ chunk.IsOpen m ∧ cs = []) :
  (chunk.close m escape).IsDone m
    ∧ (chunk.close m escape).complete m (letters escape cs)
      = chunk.complete m (letters escape (chunk.unread escape ++ cs))
    ∧ (chunk.close m escape).size m = chunk.size m
  := by
  rw [close_eq_flush]
  rcases h with hdone | ⟨hopen, rfl⟩
  · rw [unread_of_eq_false hdone.escaping_eq, hdone.escaping_eq, if_neg Bool.false_ne_true]
    apply flush_spec hwf hdone.node_lt_size hdone.escaping_eq hdone.tag?_eq
    intro hfound
    left
    apply hdone.node_eq hfound
  · cases hescaping : chunk.escaping with
    | false =>
      rw [unread_of_eq_false hescaping, if_neg Bool.false_ne_true]
      apply flush_spec hwf hopen.node_lt_size hescaping
      · simp [hopen.found_eq]
      · intro _
        right
        apply letters_nil
    | true =>
      -- the escape character itself is the last one to be read
      have hnode : (chunk.plain m escape).node < m.trie.size :=
        Matcher.move_fst_lt_size hwf hopen.node_lt_size escape
      obtain ⟨hdone, hcomplete, hsize⟩ :=
        flush_spec hwf hnode rfl (fun _ hk => hk) (fun _ => .inr rfl)
      rw [unread_of_eq_true hescaping, if_pos rfl, letters_nil, hcomplete, hsize,
        complete_plain hopen.found_eq, size_plain hwf hopen.node_lt_size, size, hescaping]
      exact ⟨hdone, rfl, rfl⟩

/-- The chunk from the characters `cs`, before it is made a token, gives their first pieces
and leaves the characters of the others. -/
theorem complete_close_run (maxSize : Nat) (escape : Char) (cs : List Char) :
  let r := Verdict.run (Chunk.step m escape maxSize) start cs
  let chunk := r.1.close m escape
  chunk.IsDone m
    ∧ chunk.complete m (letters escape r.2) = m.pieces root (letters escape cs)
    ∧ chunk.size m + r.2.length ≤ cs.length
    ∧ (cs ≠ [] → 0 < chunk.size m)
  := by
  obtain ⟨hend, hcomplete, hle, hpos⟩ := complete_run hwf (isOpen_start hwf) cs
  obtain ⟨hdone, hclose, hsize⟩ := close_of_run hwf hend
  have hstart : (start : Chunk κ).size m = 0 := by
    simp [start, size, hwf.path_root]
  refine ⟨hdone, ?_, ?_, ?_⟩
  · rw [hclose, hcomplete]
    rfl
  · rw [hsize]
    omega
  · intro hcs
    rw [hsize]
    apply hpos
    have := List.length_pos_of_ne_nil hcs
    omega

end WellFormed

end Chunk

end TemplateLexer
