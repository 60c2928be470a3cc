import TemplateLexer.Proofs.Automaton.Reachable
import TemplateLexer.Proofs.Trie.Links
import TemplateLexer.Token

/-!
# Reading with a matcher

A matcher that reads a word stands on the node with the longest path that the word ends
with, and what it has released and what it still holds back spell the word.  Both are kept
by `move` (`isLongestSuffix_move`, `move_snd_append`) and so by reading any number of
characters.
-/

namespace TemplateLexer.Matcher

variable {κ : Type}

open Trie

/-! ### One character -/

theorem climb_fst (t : Trie κ) (c : Char) (fs : List Fallback) :
  (climb t c fs).1 = Links.resolve t c fs
  := by
  induction fs with
  | nil => rfl
  | cons f fs ih =>
    rw [climb, Links.resolve]
    cases t.child? f.node c with
    | some m => rfl
    | none => apply ih

/-- Climbing a chain along `c` releases what the path given up and `c` have more than the
path of the node found. -/
theorem climb_snd_append {t : Trie κ} (h : t.WellFormed) {n : Nat} {fs : List Fallback}
    (hfs : IsChain t n fs) (c : Char) :
  (climb t c fs).2 ++ t.path (climb t c fs).1 = t.path n ++ [c]
  := by
  induction hfs with
  | root => simp [climb, h.path_root]
  | @step n m released fs hn hroot hm hreleased hfs ih =>
    rw [climb, ← hreleased]
    cases hchild : t.child? m c with
    | some m' =>
      obtain ⟨-, hpath⟩ := (h.child?_eq_some_iff hm.lt_size).mp hchild
      simp [hpath]
    | none => simp [ih]

theorem move_fst (m : Matcher κ) (n : Nat) (c : Char) :
  (m.move n c).1 = (m.trie.child? n c).getD (Links.resolve m.trie c (m.links.chain n))
  := by
  rw [move]
  cases m.trie.child? n c with
  | some child => rfl
  | none => apply climb_fst

section WellFormed

variable {m : Matcher κ} (h : m.trie.WellFormed)
include h

/-- The links of a matcher hold the chain of every node. -/
theorem isChain_chain {n : Nat} (hn : n < m.trie.size) :
  IsChain m.trie n (m.links.chain n)
  := by
  rw [m.links_eq]
  apply Links.linked_ofTrie h hn

/-- A partial match holds back its path. -/
theorem held_eq_path {n : Nat} (hn : n < m.trie.size) :
  m.held n = m.trie.path n
  := (isChain_chain h hn).flatMap_released h

/-- One more character leads from the longest path that a word ends with to the longest
path that the longer word ends with. -/
theorem isLongestSuffix_move {n : Nat} {w : List Char} (hn : m.trie.IsLongestSuffix w n)
    (c : Char) :
  m.trie.IsLongestSuffix (w ++ [c]) (m.move n c).1
  := by
  rw [move_fst]
  apply hn.append h
  apply (isChain_chain h hn.lt_size).isLongestSuffix_resolve h

theorem move_fst_lt_size {n : Nat} (hn : n < m.trie.size) (c : Char) :
  (m.move n c).1 < m.trie.size
  := (isLongestSuffix_move h (.path hn) c).lt_size

/-- What is released for one more character is what the path before and that character
have more than the path after. -/
theorem move_snd_append {n : Nat} (hn : n < m.trie.size) (c : Char) :
  (m.move n c).2 ++ m.trie.path (m.move n c).1 = m.trie.path n ++ [c]
  := by
  rw [move]
  cases hchild : m.trie.child? n c with
  | some child =>
    obtain ⟨-, hpath⟩ := (h.child?_eq_some_iff hn).mp hchild
    simp [hpath]
  | none => apply climb_snd_append h (isChain_chain h hn)

end WellFormed

/-! ### Many characters -/

/-- The node after reading the characters `cs` from `n` on. -/
def after (m : Matcher κ) (n : Nat) (cs : List Char) : Nat :=
  ((m.moves n cs).map (·.1)).getLastD n

/-- All that is released while the characters `cs` are read from `n` on. -/
def releasedBy (m : Matcher κ) (n : Nat) (cs : List Char) : List Char :=
  (m.moves n cs).flatMap (·.2)

section Moves

variable (m : Matcher κ) (n : Nat) (c : Char) (cs : List Char)

@[simp]
theorem after_nil :
  m.after n [] = n
  := rfl

@[simp]
theorem after_cons :
  m.after n (c :: cs) = m.after (m.move n c).1 cs
  := by
  rw [after, moves, List.map_cons, List.getLastD_cons]
  rfl

@[simp]
theorem releasedBy_nil :
  m.releasedBy n [] = []
  := rfl

@[simp]
theorem releasedBy_cons :
  m.releasedBy n (c :: cs) = (m.move n c).2 ++ m.releasedBy (m.move n c).1 cs
  := by
  simp [releasedBy, moves]

end Moves

section WellFormed

variable {m : Matcher κ} (h : m.trie.WellFormed)
include h

/-- Reading on keeps standing on the longest path that the word read ends with. -/
theorem isLongestSuffix_after {n : Nat} {w : List Char} (hn : m.trie.IsLongestSuffix w n)
    (cs : List Char) :
  m.trie.IsLongestSuffix (w ++ cs) (m.after n cs)
  := by
  induction cs generalizing n w with
  | nil => simpa using hn
  | cons c cs ih =>
    have := ih (isLongestSuffix_move h hn c)
    rwa [List.append_assoc, List.singleton_append, ← after_cons] at this

/-- What reading releases and the path after it spell the path before and the characters
read. -/
theorem releasedBy_append {n : Nat} (hn : n < m.trie.size) (cs : List Char) :
  m.releasedBy n cs ++ m.trie.path (m.after n cs) = m.trie.path n ++ cs
  := by
  induction cs generalizing n with
  | nil => simp
  | cons c cs ih =>
    rw [releasedBy_cons, after_cons, List.append_assoc, ih (move_fst_lt_size h hn c),
      ← List.append_assoc, move_snd_append h hn, List.append_assoc, List.singleton_append]

end WellFormed

/-! ### The longest start of a pattern -/

/-- The word `w` ends with `q`, which starts a pattern or is empty, and with no longer start of
a pattern. -/
structure IsLongestStart (patterns : List (String × κ)) (w q : List Char) : Prop where
  suffix : q <:+ w
  start : q = [] ∨ ∃ p ∈ patterns, q <+: p.1.toList
  length_le : ∀ q', q' <:+ w → (∃ p ∈ patterns, q' <+: p.1.toList) → q'.length ≤ q.length

theorem IsLongestStart.of_isLongestSuffix {patterns : List (String × κ)} {t : Trie κ}
    {w : List Char} {n : Nat} (h : t.Holds patterns) (hn : t.IsLongestSuffix w n) :
  IsLongestStart patterns w (t.path n)
  := by
  constructor
  · apply hn.path_suffix
  · apply (h.isPath_iff _).mp (isPath_path hn.lt_size)
  · intro q hsuffix hstart
    apply List.IsSuffix.length_le
    apply hn.suffix_path q ((h.isPath_iff q).mpr (.inr hstart)) hsuffix

/-- A matcher of accepted patterns that has read `w` stands on the node that spells the
longest start of a pattern with which `w` ends.  It has released the rest of `w`, the node has
a tag exactly when it spells a pattern, and releasing what is held back completes `w`. -/
theorem isLongestStart_after {patterns : List (String × κ)} {m : Matcher κ}
    (h : Automaton.Reachable patterns (.built m)) (w : List Char) :
  m.trie.find? (m.trie.path (m.after root w)) = some (m.after root w)
    ∧ IsLongestStart patterns w (m.trie.path (m.after root w))
    ∧ m.releasedBy root w ++ m.trie.path (m.after root w) = w
    ∧ (∀ k, m.trie.tag? (m.after root w) = some k
      ↔ (String.ofList (m.trie.path (m.after root w)), k) ∈ patterns)
    ∧ m.releasedBy root w ++ m.held (m.after root w) = w
  := by
  have hholds : m.trie.Holds patterns := h.holds
  have hwf := hholds.wellFormed
  have hlongest := isLongestSuffix_after hwf (IsLongestSuffix.nil hwf) w
  have hspelled := releasedBy_append hwf hwf.root_lt_size w
  rw [hwf.path_root, List.nil_append] at hspelled
  rw [List.nil_append] at hlongest
  have hlt := hlongest.lt_size
  refine ⟨hwf.find?_path hlt, ?_, hspelled, hholds.tag?_eq_some_iff _ hlt, ?_⟩
  · apply IsLongestStart.of_isLongestSuffix hholds hlongest
  · rw [held_eq_path hwf hlt, hspelled]

/-- The trie of the patterns `abc` and `bcd`, one of which ends as the other starts. -/
def overlapping : Trie Delimiter :=
  ⟨#[⟨[], none, [('a', 1), ('b', 4)]⟩, ⟨['a'], none, [('b', 2)]⟩, ⟨['a', 'b'], none, [('c', 3)]⟩,
    ⟨['a', 'b', 'c'], some .opening, []⟩, ⟨['b'], none, [('c', 5)]⟩,
    ⟨['b', 'c'], none, [('d', 6)]⟩, ⟨['b', 'c', 'd'], some .closing, []⟩]⟩

theorem reachable_overlapping :
  Automaton.Reachable [("abc", .opening), ("bcd", .closing)] (.built (.ofTrie overlapping))
  := by
  have h : Automaton.Reachable [("abc", .opening), ("bcd", .closing)] (.growing overlapping) :=
    .register (.register .empty rfl) rfl
  apply h.build (.refl overlapping)

/-- Reading `abbcd` gives up `ab` and finds `bcd`. -/
theorem isLongestStart_after_abbcd :
  Automaton.Reachable [("abc", .opening), ("bcd", .closing)] (.built (.ofTrie overlapping))
    ∧ (ofTrie overlapping).after root "abbcd".toList = 6
    ∧ (ofTrie overlapping).releasedBy root "abbcd".toList = "ab".toList
    ∧ IsLongestStart [("abc", Delimiter.opening), ("bcd", .closing)] "abbcd".toList "bcd".toList
  := by
  obtain ⟨-, hstart, -⟩ := isLongestStart_after reachable_overlapping "abbcd".toList
  exact ⟨reachable_overlapping, by decide, by decide, hstart⟩

end TemplateLexer.Matcher
