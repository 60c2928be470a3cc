import Mathlib.Data.List.Perm.Subperm
import TemplateLexer.Proofs.Automaton.FallbackTable
import TemplateLexer.Proofs.Automaton.History

/-!
# Building fallbacks

A table of fallbacks is built breadth first: a queue holds the nodes whose children come next,
and the fallback of a child is found from that of its parent.  The queue holds one level of the
trie after the other (`FallbackTable.linkQueue_append`), so that the fallbacks nearer to the root
are there when they are needed, whatever stood in the table before; and no node comes into it
twice (`FallbackTable.IsFront`), so that it runs empty.

What is built are the first fallbacks of the chains of `Links.ofTrie`
(`FallbackTable.build_eq_ok`).
-/

namespace TemplateLexer

variable {κ : Type}

open Trie

namespace FallbackTable

variable {t : Trie κ} {table : FallbackTable}

/-! ### One level -/

section Build

variable (h : t.WellFormed)
include h

/-- A child of the root falls back to the root. -/
theorem linkRootChild_eq_ok (hsize : table.size = t.size) {n : Nat}
    (hn : n ∈ (t.node root).children.map (·.2)) :
  linkRootChild t table n = .ok (table.setIfInBounds n ((Links.ofTrie t).fallback n))
  := by
  obtain ⟨p, hp, rfl⟩ := List.mem_map.mp hn
  obtain ⟨hchild, hpath⟩ := h.of_mem_children hp
  rw [h.path_root, List.nil_append] at hpath
  have hlongest : t.IsLongestSuffix (t.path p.2).tail root := by
    rw [hpath]
    apply IsLongestSuffix.nil h
  rw [linkRootChild, Checked.path_eq_ok hchild, checked_ok_bind, store_eq_ok (hsize ▸ hchild),
    Links.fallback_eq h hchild (h.ne_root_of_mem_children hp) hlongest, h.path_root]
  simp

/-- The fallback of a child is found from that of its parent. -/
theorem linkChild_eq_ok {limit n : Nat} (hlimit : t.size ≤ limit) (hn : n < t.size)
    (hroot : n ≠ root) (hagrees : AgreesTo t table (t.path n).length) {p : Char × Nat}
    (hp : p ∈ (t.node n).children) :
  linkChild t limit n table p
    = .ok (table.setIfInBounds p.2 ((Links.ofTrie t).fallback p.2))
  := by
  have hfallback := Links.isFallback_fallback h hn hroot
  have hwalk := walk_of_size_le h hfallback.lt_size hlimit
  obtain ⟨hchild, hpath⟩ := h.of_mem_children hp
  -- what is found along the chain of the parent is the fallback of the child
  have hm : t.IsLongestSuffix (t.path n ++ [p.1]).tail
      (Links.resolve t p.1 ((Links.ofTrie t).chain n)) :=
    IsChain.isLongestSuffix_tail h (Links.linked_ofTrie h hn) p.1
  rw [← hpath] at hm
  have hsuffix := (hm.path_suffix.trans (List.tail_suffix _)).length_le
  rw [linkChild, hagrees.entry_eq_ok hn, Checked.ok_bind,
    resolve_eq_ok h hwalk (hagrees.mono (Nat.le_of_lt hfallback.length_lt)), Checked.ok_bind]
  rw [Links.chain_eq_cons h hn hroot, Links.resolve] at hm hsuffix
  rw [Checked.path_eq_ok hchild, checked_ok_bind, Checked.path_eq_ok hm.lt_size, checked_ok_bind,
    Checked.sub_eq_ok hsuffix, checked_ok_bind, store_eq_ok (hagrees.size_eq ▸ hchild),
    Links.fallback_eq h hchild (h.ne_root_of_mem_children hp) hm]

/-- The children of a node may be met in any order. -/
theorem linkChildren_eq_ok {limit n : Nat} (hlimit : t.size ≤ limit) (hn : n < t.size)
    (hroot : n ≠ root) (hagrees : AgreesTo t table (t.path n).length) :
  (t.node n).children.foldlM (linkChild t limit n) table
    = .ok (fill (Links.ofTrie t) table ((t.node n).children.map (·.2)))
  := by
  rw [fill, List.foldl_map]
  apply Checked.foldlM_eq_ok (I := fun table => AgreesTo t table (t.path n).length) _ hagrees
  intro table' hagrees' p hp
  exact ⟨linkChild_eq_ok h hlimit hn hroot hagrees' hp, hagrees'.fill [p.2]⟩

/-- From a queue that begins with nodes of one level these are taken, and all their children come
to its end. -/
theorem linkQueue_append {limit d : Nat} (hlimit : t.size ≤ limit) {level : List Nat}
    (hlevel : ∀ n ∈ level, n < t.size ∧ (t.path n).length = d + 1)
    (hagrees : AgreesTo t table (d + 1)) (rounds : Nat) (queue : List Nat) :
  linkQueue t limit (rounds + level.length) (level ++ queue) table
    = linkQueue t limit rounds
        (queue ++ level.flatMap fun n => (t.node n).children.map (·.2))
        (fill (Links.ofTrie t) table
          (level.flatMap fun n => (t.node n).children.map (·.2)))
  := by
  induction level generalizing table queue with
  | nil => simp [fill]
  | cons n level ih =>
    obtain ⟨hn, hlength⟩ := hlevel n List.mem_cons_self
    have hroot : n ≠ root := by
      rintro rfl
      simp [h.path_root] at hlength
    rw [List.length_cons, List.cons_append, ← Nat.add_assoc, linkQueue, Checked.node_eq_ok hn,
      checked_ok_bind]
    dsimp only
    rw [linkChildren_eq_ok h hlimit hn hroot (hlength ▸ hagrees), Checked.ok_bind,
      List.append_assoc, ih (fun m hm => hlevel m (List.mem_cons_of_mem n hm)) (hagrees.fill _),
      List.append_assoc, ← fill_append, List.flatMap_cons]

end Build

/-! ### All levels -/

/-- The nodes `level` are those that lie `d` characters deep, and `done` those nearer to the
root. -/
structure IsFront (t : Trie κ) (d : Nat) (done level : List Nat) : Prop where
  mem_done_iff : ∀ n, n ∈ done ↔ n < t.size ∧ (t.path n).length < d
  mem_level_iff : ∀ n, n ∈ level ↔ n < t.size ∧ (t.path n).length = d
  nodup : (done ++ level).Nodup

namespace IsFront

variable {d : Nat} {done level : List Nat}

theorem root (h : t.WellFormed) :
  IsFront t 0 [] [root]
  := by
  refine ⟨by simp, Links.mem_root_iff h, by simp⟩

/-- No node is met twice. -/
theorem length_le (hfront : IsFront t d done level) :
  done.length + level.length ≤ t.size
  := by
  have hsubset : done ++ level ⊆ List.range t.size := by
    intro n hn
    rw [List.mem_range]
    rcases List.mem_append.mp hn with hn | hn
    · apply ((hfront.mem_done_iff n).mp hn).1
    · apply ((hfront.mem_level_iff n).mp hn).1
  have := (List.subperm_of_subset hfront.nodup hsubset).length_le
  rwa [List.length_append, List.length_range] at this

/-- Different nodes have different children. -/
theorem nodup_children (h : t.WellFormed) (hedges : t.HasDistinctEdges)
    (hfront : IsFront t d done level) :
  (level.flatMap fun n => (t.node n).children.map (·.2)).Nodup
  := by
  have hlevel := (List.nodup_append.mp hfront.nodup).2.1
  rw [List.nodup_flatMap]
  constructor
  · intro n _
    apply List.pairwise_map.mpr
    apply (List.pairwise_map.mp (hedges n)).imp_of_mem
    intro p p' hp hp' hne heq
    have hpath := (h.of_mem_children hp).2
    rw [heq, (h.of_mem_children hp').2] at hpath
    simp [hne.symm] at hpath
  · apply hlevel.imp
    intro n n' hne m hm hm'
    obtain ⟨p, hp, rfl⟩ := List.mem_map.mp hm
    obtain ⟨p', hp', heq⟩ := List.mem_map.mp hm'
    have hpath := (h.of_mem_children hp).2
    rw [← heq, (h.of_mem_children hp').2] at hpath
    apply hne
    apply h.path_injective (lt_size_of_mem_children hp) (lt_size_of_mem_children hp')
    apply (List.append_inj' hpath rfl).1.symm

/-- The next level are the children of this one. -/
theorem next (h : t.WellFormed) (hedges : t.HasDistinctEdges) (hfront : IsFront t d done level) :
  IsFront t (d + 1) (done ++ level) (level.flatMap fun n => (t.node n).children.map (·.2))
  := by
  have hnext := Links.mem_flatMap_children_iff h hfront.mem_level_iff
  have hdone : ∀ n, n ∈ done ++ level ↔ n < t.size ∧ (t.path n).length < d + 1 := by
    intro n
    rw [List.mem_append, hfront.mem_done_iff, hfront.mem_level_iff, Nat.lt_succ_iff_lt_or_eq]
    tauto
  refine ⟨hdone, hnext, ?_⟩
  apply hfront.nodup.append (hfront.nodup_children h hedges)
  intro n hn hn'
  have := ((hdone n).mp hn).2
  have := ((hnext n).mp hn').2
  omega

end IsFront

section Build

variable (h : t.WellFormed) (hedges : t.HasDistinctEdges)
include h hedges

/-- The queue holds one level after the other, and no node twice. -/
theorem linkQueue_eq_ok {limit rounds d k : Nat} (hlimit : t.size ≤ limit)
    (hk : d + 1 + k = t.size) {done level : List Nat} (hfront : IsFront t (d + 1) done level)
    (hrounds : t.size ≤ rounds + done.length) (hagrees : AgreesTo t table (d + 1)) :
  linkQueue t limit rounds level table = .ok (ofLinks (Links.ofTrie t))
  := by
  -- on the levels that may still come: no path is as long as there are nodes
  induction k generalizing d rounds done level table with
  | zero =>
    have hlevel : level = [] := by
      rw [List.eq_nil_iff_forall_not_mem]
      intro n hn
      obtain ⟨hn, hlength⟩ := (hfront.mem_level_iff n).mp hn
      have := h.length_path_le hn
      omega
    have hall : AgreesTo t table t.size := hk ▸ hagrees
    rw [hlevel, linkQueue, hall.eq_ofLinks h]
  | succ k ih =>
    have hlength := hfront.length_le
    obtain ⟨r, rfl⟩ : ∃ r, rounds = r + level.length := ⟨rounds - level.length, by omega⟩
    have hnext := hfront.next h hedges
    have hvisit := linkQueue_append h hlimit (fun n hn => (hfront.mem_level_iff n).mp hn) hagrees
      r []
    rw [List.append_nil, List.nil_append] at hvisit
    rw [hvisit]
    apply ih (by omega) hnext
    · rw [List.length_append]
      omega
    · apply hagrees.fill_level hnext.mem_level_iff

/-- Whatever stood in the table, building fills it with the first fallbacks of all chains. -/
theorem build_eq_ok {rounds : Nat} (hrounds : t.size ≤ rounds) (hsize : table.size = t.size) :
  build t rounds table = .ok (ofLinks (Links.ofTrie t))
  := by
  have hfront := (IsFront.root h).next h hedges
  rw [List.nil_append, List.flatMap_singleton] at hfront
  have hroot : store table root ⟨[], root⟩ = .ok (fill (Links.ofTrie t) table [root]) := by
    rw [store_eq_ok (hsize ▸ h.root_lt_size), ← Links.fallback_root h]
    rfl
  have hagrees : AgreesTo t (fill (Links.ofTrie t) table [root]) 0 := by
    use (size_fill _ _ _).trans hsize
    intro n hn hlength
    have hmem := (Links.mem_root_iff h n).mpr ⟨hn, Nat.le_zero.mp hlength⟩
    rw [getElem?_fill, if_pos ⟨hmem, hsize ▸ hn⟩]
  have hchildren : ((t.node root).children.map (·.2)).foldlM (linkRootChild t)
        (fill (Links.ofTrie t) table [root])
      = .ok (fill (Links.ofTrie t) (fill (Links.ofTrie t) table [root])
          ((t.node root).children.map (·.2))) := by
    apply Checked.foldlM_eq_ok (I := fun table => table.size = t.size) _ hagrees.size_eq
    intro table' hsize' n hn
    exact ⟨linkRootChild_eq_ok h hsize' hn, by rw [Array.size_setIfInBounds, hsize']⟩
  rw [build, hroot, Checked.ok_bind, Checked.node_eq_ok h.root_lt_size, checked_ok_bind]
  dsimp only
  rw [hchildren, Checked.ok_bind]
  have hpos := h.root_lt_size
  apply linkQueue_eq_ok h hedges hrounds (k := t.size - 1) (by omega) hfront
  · rw [List.length_singleton]
    omega
  · apply hagrees.fill_level hfront.mem_level_iff

end Build

end FallbackTable

/-! ### The automaton -/

/-- No loop needs more rounds than there are nodes, whatever stood in the table before it is
built, and the loops give what links and the matcher give. -/
structure Matcher.LoopsEnd (m : Matcher κ) : Prop where
  build : ∀ rounds ≥ m.trie.size, ∀ table : FallbackTable, table.size = m.trie.size →
    FallbackTable.build m.trie rounds table = .ok (.ofLinks m.links)
  resolve : ∀ rounds ≥ m.trie.size, ∀ n < m.trie.size, ∀ c,
    FallbackTable.resolve m.trie (.ofLinks m.links) c rounds n = .ok (m.move n c).1
  move : ∀ rounds ≥ m.trie.size, ∀ n < m.trie.size, ∀ c literal,
    FallbackTable.move m.trie (.ofLinks m.links) c rounds n literal
      = .ok ((m.move n c).map id (literal ++ ·))
  flush : ∀ rounds ≥ m.trie.size, ∀ n < m.trie.size, ∀ literal,
    FallbackTable.flush (.ofLinks m.links) rounds n literal = .ok (literal ++ m.held n)

theorem Matcher.loopsEnd {m : Matcher κ} (h : m.trie.WellFormed)
    (hedges : m.trie.HasDistinctEdges) :
  m.LoopsEnd
  := by
  have hagrees := FallbackTable.agreesTo_ofLinks h
  have hwalk : ∀ rounds ≥ m.trie.size, ∀ n < m.trie.size,
      FallbackTable.Walk m.trie rounds n :=
    fun _ hrounds _ hn => FallbackTable.walk_of_size_le h hn hrounds
  rw [← m.links_eq] at hagrees
  constructor
  · intro rounds hrounds table hsize
    rw [m.links_eq]
    apply FallbackTable.build_eq_ok h hedges hrounds hsize
  · intro rounds hrounds n hn c
    rw [FallbackTable.resolve_eq_ok h (hwalk rounds hrounds n hn) (hagrees _), m.move_fst,
      m.links_eq]
  · intro rounds hrounds n hn c literal
    apply FallbackTable.move_eq_ok h (hwalk rounds hrounds n hn) hagrees
  · intro rounds hrounds n hn literal
    apply FallbackTable.flush_eq_ok h (hwalk rounds hrounds n hn) hagrees

namespace Automaton

/-- When the fallbacks are built, whatever was registered and built before and in whatever order
the children of a node are met: the root falls back to itself and releases nothing; every other
node falls back to the longest path that its own properly ends with, and releases the rest; the
order plays no part in the result; and no loop goes on for ever, goes to a node that does not
exist or subtracts from a shorter length. -/
theorem Reachable.fallbacks_build {patterns : List (String × κ)} {a : Automaton κ}
    (h : Reachable patterns a) {t : Trie κ} (ht : t.IsReordering a.trie) :
  (Links.ofTrie t).fallback root = ⟨[], root⟩
    ∧ (∀ n < t.size, n ≠ root → Links.IsFallback t n ((Links.ofTrie t).fallback n))
    ∧ Links.ofTrie t = Links.ofTrie a.trie
    ∧ (Matcher.ofTrie t).LoopsEnd
  := by
  have hwf := h.wellFormed.reorder ht
  refine ⟨Links.fallback_root hwf, ?_, Links.ofTrie_eq_of_isReordering h.wellFormed ht, ?_⟩
  · intro n hn hroot
    apply Links.isFallback_fallback hwf hn hroot
  · apply Matcher.loopsEnd
    · apply hwf
    · apply h.hasDistinctEdges.reorder ht

/-! ### A table from an earlier building -/

/-- The trie of `ab` and, registered later, of `b`. -/
def grown : Trie Delimiter :=
  ⟨#[⟨[], none, [('a', 1), ('b', 3)]⟩, ⟨['a'], none, [('b', 2)]⟩,
    ⟨['a', 'b'], some .opening, []⟩, ⟨['b'], some .closing, []⟩]⟩

/-- The trie `grown` with the children of the root met in the other order. -/
def turned : Trie Delimiter :=
  ⟨#[⟨[], none, [('b', 3), ('a', 1)]⟩, ⟨['a'], none, [('b', 2)]⟩,
    ⟨['a', 'b'], some .opening, []⟩, ⟨['b'], some .closing, []⟩]⟩

/-- The table of the trie of `ab`, with a new entry for `b`. -/
def stale : FallbackTable :=
  #[⟨[], 0⟩, ⟨['a'], 0⟩, ⟨['a', 'b'], 0⟩, ⟨[], 0⟩]

theorem isReordering_turned :
  turned.IsReordering grown
  := by
  have hnode : ∀ n, (turned.node n).path = (grown.node n).path
      ∧ (turned.node n).tag = (grown.node n).tag
      ∧ (turned.node n).children.Perm (grown.node n).children := by
    intro n
    match n with
    | 0 => exact ⟨rfl, rfl, .swap _ _ _⟩
    | 1 | 2 | 3 => exact ⟨rfl, rfl, .rfl⟩
    | n + 4 => exact ⟨rfl, rfl, .rfl⟩
  exact ⟨rfl, fun n => (hnode n).1, fun n => (hnode n).2.1, fun n => (hnode n).2.2⟩

/-- Building anew finds that `ab` may go on as `b`. -/
theorem fallbacks_build_stale :
  Reachable [("ab", .opening), ("b", .closing)] (.growing grown) ∧ turned.IsReordering grown
    ∧ FallbackTable.build turned 4 stale
      = .ok #[⟨[], 0⟩, ⟨['a'], 0⟩, ⟨['a'], 3⟩, ⟨['b'], 0⟩]
  := by
  have h : Reachable [("ab", .opening), ("b", .closing)] (.growing grown) :=
    .register (.build (.register .empty rfl) (.refl _)) rfl
  have ht : turned.IsReordering (growing grown).trie := isReordering_turned
  obtain ⟨-, -, -, hloops⟩ := h.fallbacks_build ht
  exact ⟨h, ht, hloops.build 4 (by decide) stale rfl⟩

end Automaton

end TemplateLexer
