import TemplateLexer.Automaton
import TemplateLexer.Proofs.Trie.Patterns

/-!
# Reachable automata

`Reachable patterns a` says that registering patterns and building, in any order and any
number of times, makes `a` of the empty automaton, and that `patterns` are the patterns
accepted on the way; a pattern that is refused changes nothing.  Each time that an
automaton is built, the children of a node may be met in another order (`IsReordering`).
The trie of a reachable automaton holds its patterns (`Reachable.holds`).
-/

namespace TemplateLexer

variable {κ : Type}

namespace Trie

/-- The trie `t'` is `t` with the children of every node listed in some order. -/
structure IsReordering (t' t : Trie κ) : Prop where
  size_eq : t'.size = t.size
  path_eq : ∀ n, t'.path n = t.path n
  tag?_eq : ∀ n, t'.tag? n = t.tag? n
  children_perm : ∀ n, (t'.node n).children.Perm (t.node n).children

variable {t t' : Trie κ}

theorem IsReordering.refl (t : Trie κ) :
  IsReordering t t
  := ⟨rfl, fun _ => rfl, fun _ => rfl, fun _ => .rfl⟩

theorem IsReordering.isPath_iff (ht : IsReordering t' t) (q : List Char) :
  t'.IsPath q ↔ t.IsPath q
  := by
  simp only [IsPath, ht.size_eq, ht.path_eq]

theorem WellFormed.reorder (h : t.WellFormed) (ht : IsReordering t' t) :
  t'.WellFormed
  := by
  constructor
  · rw [ht.size_eq]
    apply h.root_lt_size
  · rw [ht.path_eq, h.path_root]
  · intro n m c hmem
    rw [ht.size_eq, ht.path_eq, ht.path_eq]
    apply h.of_mem_children ((ht.children_perm n).mem_iff.mp hmem)
  · intro m hm hroot
    rw [ht.size_eq] at hm
    obtain ⟨n, c, hn, hmem⟩ := h.exists_parent hm hroot
    exact ⟨n, c, hn, (ht.children_perm n).mem_iff.mpr hmem⟩
  · intro m n hm hn hpath
    rw [ht.size_eq] at hm hn
    rw [ht.path_eq, ht.path_eq] at hpath
    apply h.path_injective hm hn hpath

/-- The order of children plays no part in which patterns a trie holds. -/
theorem Holds.reorder {patterns : List (String × κ)} (h : t.Holds patterns)
    (ht : IsReordering t' t) :
  t'.Holds patterns
  := by
  constructor
  · apply h.wellFormed.reorder ht
  · intro q
    rw [ht.isPath_iff, h.isPath_iff]
  · intro n hn k
    rw [ht.size_eq] at hn
    rw [ht.tag?_eq, ht.path_eq, h.tag?_eq_some_iff n hn]

end Trie

namespace Automaton

/-- The automaton is made by registering and building, and `patterns` are those accepted,
in the order of their registration. -/
inductive Reachable : List (String × κ) → Automaton κ → Prop
  | empty : Reachable [] .empty
  | register {patterns : List (String × κ)} {a a' : Automaton κ} {pattern : String} {k : κ}
      (h : Reachable patterns a) (ha' : a.register? pattern k = some a') :
      Reachable (patterns ++ [(pattern, k)]) a'
  | refuse {patterns : List (String × κ)} {a : Automaton κ} {pattern : String} {k : κ}
      (h : Reachable patterns a) (ha : a.register? pattern k = none) : Reachable patterns a
  | build {patterns : List (String × κ)} {a : Automaton κ} {t : Trie κ}
      (h : Reachable patterns a) (ht : t.IsReordering a.trie) :
      Reachable patterns (.built (.ofTrie t))

namespace Reachable

variable {patterns : List (String × κ)} {a : Automaton κ}

/-- The trie of an automaton holds the patterns accepted. -/
theorem holds (h : Reachable patterns a) :
  a.trie.Holds patterns
  := by
  induction h with
  | empty => apply Trie.holds_empty
  | register h ha' ih =>
    obtain ⟨t, ht, rfl⟩ := Option.map_eq_some_iff.mp ha'
    apply ih.register? ht
  | refuse h ha ih => apply ih
  | build h ht ih => apply ih.reorder ht

theorem wellFormed (h : Reachable patterns a) :
  a.trie.WellFormed
  := h.holds.wellFormed

/-- No pattern that is accepted is empty. -/
theorem ne_empty (h : Reachable patterns a) :
  ∀ p ∈ patterns, p.1 ≠ ""
  := by
  induction h with
  | empty => simp
  | @register patterns a a' pattern k h ha' ih =>
    obtain ⟨t, ht, -⟩ := Option.map_eq_some_iff.mp ha'
    obtain ⟨hne, -⟩ := (h.holds.register?_eq_some_iff pattern k t).mp ht
    intro p hp
    rcases List.mem_append.mp hp with hp | hp
    · apply ih p hp
    · rw [List.mem_singleton.mp hp]
      apply hne
  | refuse h ha ih => apply ih
  | build h ht ih => apply ih

end Reachable

end Automaton

end TemplateLexer
