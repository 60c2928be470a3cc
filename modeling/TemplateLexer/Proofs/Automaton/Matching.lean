import TemplateLexer.Proofs.Automaton.Checked

/-!
# Matching while the automaton grows

A `Matching` is an automaton at work: it has reached a node and has released characters, and more
patterns may be registered and its fallbacks built anew while it stands on that node.  Whatever
the order of all this, what was released and the path of the node are what was fed, and no call
leaves the trie (`Matching.Reachable.released_append_path`).
-/

namespace TemplateLexer

variable {κ : Type}

open Trie

/-- An automaton, the node that it has reached, and what it has released of what it was fed. -/
structure Matching (κ : Type) where
  automaton : Automaton κ
  node : Nat
  released : List Char
  fed : List Char

namespace Matching

/-- A new automaton on its root. -/
def start : Matching κ :=
  ⟨.empty, root, [], []⟩

/-- The matching after the character `c`. -/
def feed (s : Matching κ) (m : Matcher κ) (c : Char) : Matching κ :=
  let step := m.move s.node c
  ⟨s.automaton, step.1, s.released ++ step.2, s.fed ++ [c]⟩

/-- The matching comes about by registering, building and matching in any order, where only an
automaton that is built matches.  It keeps its node while patterns are registered and fallbacks
built, whatever the order in which building meets the children of a node. -/
inductive Reachable : Matching κ → Prop
  | start : Reachable start
  | register {s : Matching κ} (h : Reachable s) (pattern : String) (k : κ) {a : Automaton κ}
      (ha : s.automaton.register? pattern k = some a) : Reachable { s with automaton := a }
  | refuse {s : Matching κ} (h : Reachable s) (pattern : String) (k : κ)
      (ha : s.automaton.register? pattern k = none) : Reachable s
  | build {s : Matching κ} (h : Reachable s) {t : Trie κ} (ht : t.IsReordering s.automaton.trie) :
      Reachable { s with automaton := .built (.ofTrie t) }
  | feed {s : Matching κ} (h : Reachable s) {m : Matcher κ} (hm : s.automaton = .built m)
      (c : Char) : Reachable (s.feed m c)

variable {s : Matching κ}

theorem Reachable.exists_patterns (h : s.Reachable) :
  ∃ patterns, Automaton.Reachable patterns s.automaton
  := by
  induction h with
  | start => exact ⟨[], .empty⟩
  | register h pattern k ha ih =>
    obtain ⟨patterns, hpatterns⟩ := ih
    exact ⟨_, hpatterns.register ha⟩
  | refuse h pattern k ha ih => exact ih
  | build h ht ih =>
    obtain ⟨patterns, hpatterns⟩ := ih
    exact ⟨patterns, hpatterns.build ht⟩
  | feed h hm c ih => exact ih

theorem Reachable.wellFormed (h : s.Reachable) :
  s.automaton.trie.WellFormed
  := by
  obtain ⟨patterns, hpatterns⟩ := h.exists_patterns
  apply hpatterns.wellFormed

/-! ### What is kept -/

/-- The node exists, and what was released with its path is what was fed. -/
structure IsConserving (s : Matching κ) : Prop where
  node_lt_size : s.node < s.automaton.trie.size
  released_append : s.released ++ s.automaton.trie.path s.node = s.fed

/-- Another automaton that has the node with the same path conserves the same characters. -/
theorem IsConserving.of_path_eq (h : s.IsConserving) {a : Automaton κ}
    (hlt : s.node < a.trie.size) (hpath : a.trie.path s.node = s.automaton.trie.path s.node) :
  IsConserving { s with automaton := a }
  := by
  use hlt
  rw [hpath]
  apply h.released_append

/-- Matching releases what the path loses. -/
theorem IsConserving.feed (h : s.IsConserving) {m : Matcher κ} (hm : s.automaton = .built m)
    (hwf : m.trie.WellFormed) (c : Char) :
  (s.feed m c).IsConserving
  := by
  have hlt : s.node < m.trie.size := by
    have := h.node_lt_size
    rwa [hm] at this
  have hspells : s.released ++ m.trie.path s.node = s.fed := by
    have := h.released_append
    rwa [hm] at this
  constructor
  · rw [Matching.feed, hm]
    apply Matcher.move_fst_lt_size hwf hlt
  · rw [Matching.feed, hm]
    change (s.released ++ (m.move s.node c).2) ++ m.trie.path (m.move s.node c).1 = s.fed ++ [c]
    rw [List.append_assoc, Matcher.move_snd_append hwf hlt, ← List.append_assoc, hspells]

/-- Every step conserves the characters: registering and building keep the path of the node. -/
theorem Reachable.isConserving (h : s.Reachable) :
  s.IsConserving
  := by
  induction h with
  | start => exact ⟨wellFormed_empty.root_lt_size, rfl⟩
  | register h pattern k ha ih =>
    obtain ⟨patterns, hpatterns⟩ := h.exists_patterns
    obtain ⟨t, ht, rfl⟩ := Option.map_eq_some_iff.mp ha
    obtain ⟨hlt, hpath⟩ := hpatterns.holds.path_register? ht ih.node_lt_size
    exact ih.of_path_eq (show _ < (Automaton.growing t).trie.size from hlt) hpath
  | refuse h pattern k ha ih => exact ih
  | build h ht ih =>
    apply IsConserving.of_path_eq ih
    · exact ht.size_eq ▸ ih.node_lt_size
    · apply ht.path_eq
  | feed h hm c ih =>
    have hwf := h.wellFormed
    rw [hm] at hwf
    apply ih.feed hm hwf

/-- No call goes to a node that does not exist or subtracts from a shorter length, whatever comes
next: registering a pattern, building with the children of the nodes in some order, reading a
character, or releasing what is held back. -/
structure NeverPanics (s : Matching κ) : Prop where
  register : ∀ (pattern : String) (k : κ),
    Checked.register? s.automaton.trie pattern.toList k
      = .ok (s.automaton.trie.register? pattern.toList k)
  build : ∀ t : Trie κ, t.IsReordering s.automaton.trie →
    Checked.ofTrie t = .ok (Matcher.ofTrie t).links
  move : ∀ m, s.automaton = .built m → ∀ c, Checked.move m s.node c = .ok (m.move s.node c)
  held : ∀ m, s.automaton = .built m → Checked.held m s.node = .ok (m.held s.node)

theorem Reachable.neverPanics (h : s.Reachable) :
  s.NeverPanics
  := by
  have hwf := h.wellFormed
  have hlt := h.isConserving.node_lt_size
  constructor
  · intro pattern k
    apply Checked.register?_eq_ok hwf
  · intro t ht
    apply Checked.ofTrie_eq_ok (hwf.reorder ht)
  · intro m hm c
    rw [hm] at hwf hlt
    apply Checked.move_eq_ok hwf hlt
  · intro m hm
    rw [hm] at hwf hlt
    apply Checked.held_eq_ok hwf hlt

/-- However registering, building and matching follow one another, what was released and the path
of the node are all that was fed, releasing what an automaton that is built holds back completes
it by just this path, and no call panics. -/
theorem Reachable.released_append_path (h : s.Reachable) :
  s.released ++ s.automaton.trie.path s.node = s.fed
    ∧ (∀ m, s.automaton = .built m →
      m.held s.node = s.automaton.trie.path s.node ∧ s.released ++ m.held s.node = s.fed)
    ∧ s.NeverPanics
  := by
  have hconserving := h.isConserving
  refine ⟨hconserving.released_append, ?_, h.neverPanics⟩
  intro m hm
  have hheld : m.held s.node = s.automaton.trie.path s.node := by
    have hwf := h.wellFormed
    have hlt := hconserving.node_lt_size
    rw [hm] at hwf hlt ⊢
    apply Matcher.held_eq_path hwf hlt
  use hheld
  rw [hheld]
  apply hconserving.released_append

/-! ### A late pattern -/

/-- The trie of the pattern `abc` and, registered later, of `bd`. -/
def late : Trie Delimiter :=
  ⟨#[⟨[], none, [('a', 1), ('b', 4)]⟩, ⟨['a'], none, [('b', 2)]⟩, ⟨['a', 'b'], none, [('c', 3)]⟩,
    ⟨['a', 'b', 'c'], some .opening, []⟩, ⟨['b'], none, [('d', 5)]⟩,
    ⟨['b', 'd'], some .closing, []⟩]⟩

/-- Where `ab` was read before `bd` was registered, the match of `bd` begins in it: `d` releases
only the `a`. -/
theorem released_append_path_late :
  ∃ s : Matching Delimiter, s.Reachable ∧ s.automaton = .built (.ofTrie late)
    ∧ s.fed = ['a', 'b', 'd'] ∧ s.released = ['a'] ∧ s.automaton.trie.path s.node = ['b', 'd']
    ∧ s.released ++ s.automaton.trie.path s.node = s.fed
  := by
  have hab := (((Reachable.start.register "abc" Delimiter.opening rfl).build (.refl _)).feed
    rfl 'a').feed rfl 'b'
  have habd := ((hab.register "bd" .closing rfl).build (.refl late)).feed rfl 'd'
  exact ⟨_, habd, rfl, rfl, rfl, rfl, (Reachable.released_append_path habd).1⟩

end Matching

end TemplateLexer
