import TemplateLexer.Proofs.Raw.Recognition

/-!
# Fallbacks followed

A matcher that cannot go on from a node follows fallbacks until it can, and so it does when it
releases what it holds back.  Each fallback leads to a shorter path, and a character makes the
path one longer at most, so that over a whole chunk there are no more fallbacks than characters
taken (`Chunk.falls_le`).
-/

namespace TemplateLexer

variable {κ : Type}

open Trie

/-! ### One character -/

namespace Matcher

/-- The number of fallbacks of a chain that are followed before there is a child along `c`. -/
def fallsAlong (t : Trie κ) (c : Char) : List Fallback → Nat
  | [] => 0
  | f :: fs => 1 + if (t.child? f.node c).isSome then 0 else fallsAlong t c fs

/-- The number of fallbacks that are followed when `c` is read at the node `n`. -/
def falls (m : Matcher κ) (n : Nat) (c : Char) : Nat :=
  if (m.trie.child? n c).isSome then 0 else fallsAlong m.trie c (m.links.chain n)

/-- A fallback leads to a shorter path. -/
theorem length_path_lt {t : Trie κ} (h : t.WellFormed) {n m : Nat} (hn : n < t.size)
    (hroot : n ≠ root) (hm : t.IsLongestSuffix (t.path n).tail m) :
  (t.path m).length < (t.path n).length
  := by
  have hpos := List.length_pos_of_ne_nil (mt (h.path_eq_nil_iff hn).mp hroot)
  have hle := hm.path_suffix.length_le
  rw [List.length_tail] at hle
  omega

/-- A chain is not longer than the path that its fallbacks give up. -/
theorem length_le_of_isChain {t : Trie κ} (h : t.WellFormed) {n : Nat} {fs : List Fallback}
    (hfs : IsChain t n fs) :
  fs.length ≤ (t.path n).length
  := by
  induction hfs with
  | root => exact Nat.zero_le _
  | step hn hroot hm hreleased hfs ih =>
    have hlt := length_path_lt h hn hroot hm
    rw [List.length_cons]
    omega

/-- Every fallback followed makes the path shorter. -/
theorem fallsAlong_le {t : Trie κ} (h : t.WellFormed) {n : Nat} {fs : List Fallback}
    (hfs : IsChain t n fs) (c : Char) :
  fallsAlong t c fs + (t.path (climb t c fs).1).length ≤ (t.path n).length + 1
  := by
  induction hfs with
  | root => simp [fallsAlong, climb, h.path_root]
  | @step n m released fs hn hroot hm hreleased hfs ih =>
    have hlt := length_path_lt h hn hroot hm
    rw [fallsAlong, climb]
    cases hchild : t.child? m c with
    | some m' =>
      obtain ⟨-, hpath⟩ := (h.child?_eq_some_iff hm.lt_size).mp hchild
      simp only [hpath, Option.isSome_some, if_true, List.length_append, List.length_singleton]
      omega
    | none =>
      simp only [Option.isSome_none, Bool.false_eq_true, if_false, Prod.map_fst, id]
      omega

section WellFormed

variable {m : Matcher κ} (h : m.trie.WellFormed) {n : Nat} (hn : n < m.trie.size)
include h hn

theorem falls_le (c : Char) :
  m.falls n c + (m.trie.path (m.move n c).1).length ≤ (m.trie.path n).length + 1
  := by
  rw [falls, move]
  cases hchild : m.trie.child? n c with
  | some child =>
    obtain ⟨-, hpath⟩ := (h.child?_eq_some_iff hn).mp hchild
    simp [hpath]
  | none => simpa using fallsAlong_le h (isChain_chain h hn) c

theorem length_chain_le :
  (m.links.chain n).length ≤ (m.trie.path n).length
  := length_le_of_isChain h (isChain_chain h hn)

end WellFormed

end Matcher

/-! ### A chunk -/

namespace Chunk

/-- The number of fallbacks that are followed when a chunk takes the character `c`. -/
def fallsAt (m : Matcher κ) (escape : Char) (chunk : Chunk κ) (c : Char) : Nat :=
  if chunk.escaping then (m.links.chain chunk.node).length
  else if c = escape then 0
  else m.falls chunk.node c

/-- The number of fallbacks that are followed when the input ends: those that release what is held
back, after an escape character with nothing to take has been read. -/
def fallsAtEnd (m : Matcher κ) (escape : Char) (chunk : Chunk κ) : Nat :=
  if chunk.escaping then
    m.falls chunk.node escape + (m.links.chain (m.move chunk.node escape).1).length
  else (m.links.chain chunk.node).length

/-- The number of fallbacks that are followed while a chunk is scanned and closed. -/
def falls (m : Matcher κ) (escape : Char) (maxSize : Nat) (chunk : Chunk κ) : List Char → Nat
  | [] => chunk.fallsAtEnd m escape
  | c :: cs =>
    chunk.fallsAt m escape c
      + match chunk.step m escape maxSize c with
        | .take chunk => chunk.falls m escape maxSize cs
        | .leave _ | .finish _ => 0

/-- The characters that a chunk has taken and not yet released. -/
def heldSize (m : Matcher κ) (chunk : Chunk κ) : Nat :=
  (m.trie.path chunk.node).length + if chunk.escaping then 1 else 0

section WellFormed

variable {m : Matcher κ} (h : m.trie.WellFormed) {chunk : Chunk κ} (escape : Char) (maxSize : Nat)
include h

theorem fallsAtEnd_le (hn : chunk.node < m.trie.size) :
  chunk.fallsAtEnd m escape ≤ chunk.heldSize m
  := by
  rw [fallsAtEnd, heldSize]
  split_ifs
  · have hfalls := Matcher.falls_le h hn escape
    have hchain := Matcher.length_chain_le h (Matcher.move_fst_lt_size h hn escape)
    omega
  · apply Matcher.length_chain_le h hn

/-- One character: the fallbacks followed and what is held afterwards are not more than what was
held before and the character. -/
theorem fallsAt_step_le (hn : chunk.node < m.trie.size) (c : Char) :
  ∃ chunk', (chunk.step m escape maxSize c = .take chunk'
      ∨ chunk.step m escape maxSize c = .finish chunk')
    ∧ chunk'.node < m.trie.size
    ∧ chunk.fallsAt m escape c + chunk'.heldSize m ≤ chunk.heldSize m + 1
  := by
  rw [step, fallsAt]
  cases hescaping : chunk.escaping with
  | true =>
    have hchain := Matcher.length_chain_le h hn
    refine ⟨chunk.literal m c, .inl rfl, h.root_lt_size, ?_⟩
    simp only [heldSize, literal, hescaping, h.path_root, List.length_nil, Bool.false_eq_true,
      if_false, if_true]
    omega
  | false =>
    by_cases hc : c = escape
    · refine ⟨{ chunk with escaping := true }, .inl (if_pos hc), hn, ?_⟩
      simp [heldSize, hescaping, hc]
    · have hfalls := Matcher.falls_le h hn c
      refine ⟨chunk.plain m c, ?_, Matcher.move_fst_lt_size h hn c, ?_⟩
      · rw [if_neg Bool.false_ne_true, if_neg hc]
        dsimp only
        split_ifs
        · exact .inr rfl
        · exact .inl rfl
      · simpa [heldSize, plain, hescaping, hc] using hfalls

theorem falls_add_length_le (hn : chunk.node < m.trie.size) (cs : List Char) :
  chunk.falls m escape maxSize cs
      + (Verdict.run (Chunk.step m escape maxSize) chunk cs).2.length
    ≤ chunk.heldSize m + cs.length
  := by
  induction cs generalizing chunk with
  | nil => simpa [falls, Verdict.run] using fallsAtEnd_le h escape hn
  | cons c cs ih =>
    obtain ⟨chunk', hstep, hn', hle⟩ := fallsAt_step_le h escape maxSize hn c
    rw [falls, Verdict.run, List.length_cons]
    rcases hstep with hstep | hstep <;> rw [hstep] <;> dsimp only
    · have := ih hn'
      omega
    · omega

/-- A request for raw text follows no more fallbacks than it takes characters. -/
theorem falls_le (cs : List Char) :
  (start : Chunk κ).falls m escape maxSize cs
      + (Verdict.run (Chunk.step m escape maxSize) start cs).2.length
    ≤ cs.length
  := by
  have hstart : (start : Chunk κ).heldSize m = 0 := by
    rw [heldSize, start, h.path_root, List.length_nil, if_neg Bool.false_ne_true]
  have hle : (start : Chunk κ).falls m escape maxSize cs + _ ≤ _ :=
    falls_add_length_le h escape maxSize h.root_lt_size cs
  rwa [hstart, Nat.zero_add] at hle

end WellFormed

end Chunk

end TemplateLexer
