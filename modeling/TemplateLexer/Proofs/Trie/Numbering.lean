import Mathlib.Data.List.Nodup
import TemplateLexer.Proofs.Trie.Patterns

/-!
# The numbers of nodes

The nodes of a trie are numbered in the order in which registration first needs them: growing
by a path makes nodes for what the path starts with, from the shortest start to the longest,
where they are missing (`Trie.paths_grow`).  From the root a node is reached over one child after
the other, by its path and by nothing else (`Trie.WellFormed.leads_iff`).
-/

namespace TemplateLexer

variable {κ : Type}

/-! ### First appearances -/

section EraseDups

variable {α : Type} [BEq α] [LawfulBEq α] {l : List α} {a : α}

/-- An element that was there before makes no difference. -/
theorem eraseDups_append_cons_of_mem (ha : a ∈ l) (l' : List α) :
  (l ++ a :: l').eraseDups = (l ++ l').eraseDups
  := by
  have hremove : (a :: l').removeAll l = l'.removeAll l := by
    rw [List.removeAll, List.removeAll, List.filter_cons_of_neg (by simpa using ha)]
  rw [List.eraseDups_append, List.eraseDups_append, hremove]

/-- An element that was not there before comes last. -/
theorem eraseDups_concat_of_notMem (ha : a ∉ l) :
  (l ++ [a]).eraseDups = l.eraseDups ++ [a]
  := by
  have hremove : [a].removeAll l = [a] := by
    rw [List.removeAll, List.filter_cons_of_pos (by simpa using ha), List.filter_nil]
  rw [List.eraseDups_append, hremove, List.eraseDups_cons, List.filter_nil, List.eraseDups_nil]

end EraseDups

namespace Trie

variable {t : Trie κ}

/-- The paths of the nodes, in the order of their numbers. -/
def paths (t : Trie κ) : List (List Char) :=
  (List.range t.size).map t.path

/-- What the patterns start with, in the order of its first appearance. -/
def startsInOrder (patterns : List (String × κ)) : List (List Char) :=
  ([] :: patterns.flatMap fun p => p.1.toList.inits).eraseDups

theorem mem_paths_iff (q : List Char) :
  q ∈ t.paths ↔ t.IsPath q
  := by
  simp [paths, IsPath]

theorem paths_addChild (t : Trie κ) (n : Nat) (c : Char) :
  (t.addChild n c).paths = t.paths ++ [t.path n ++ [c]]
  := by
  rw [paths, size_addChild, List.range_succ, List.map_append, List.map_singleton,
    path_addChild_size, paths]
  congr 1
  apply List.map_congr_left
  intro m hm
  apply (grows_addChild t n c).path_eq m (List.mem_range.mp hm)

theorem paths_setTag (t : Trie κ) (n : Nat) (k : κ) :
  (t.setTag n k).paths = t.paths
  := by
  rw [paths, size_setTag, paths]
  apply List.map_congr_left
  intro m _
  apply path_setTag

theorem mem_iff_of_paths_eq {l : List (List Char)} (hl : t.paths = l.eraseDups) (q : List Char) :
  q ∈ l ↔ t.IsPath q
  := by
  rw [← mem_paths_iff, hl, List.mem_eraseDups]

/-- What a word starts with, each put after `p`. -/
theorem map_inits_cons (p : List Char) (c : Char) (cs : List Char) :
  (c :: cs).inits.map (p ++ ·) = p :: cs.inits.map (p ++ [c] ++ ·)
  := by
  simp [Function.comp_def]

theorem exists_map_inits_eq_cons (p cs : List Char) :
  ∃ l, cs.inits.map (p ++ ·) = p :: l
  := by
  cases cs with
  | nil => exact ⟨[], by simp⟩
  | cons c cs => exact ⟨_, map_inits_cons p c cs⟩

/-- Growing by a path makes nodes for what it starts with, from the shortest start on, unless
they are there already. -/
theorem paths_grow (h : t.WellFormed) {n : Nat} (hn : n < t.size) (cs : List Char)
    {l : List (List Char)} (hl : t.paths = l.eraseDups) :
  (t.grow n cs).1.paths = (l ++ cs.inits.map (t.path n ++ ·)).eraseDups
  := by
  have hmem := (mem_iff_of_paths_eq hl _).mpr (isPath_path hn)
  fun_induction t.grow n cs generalizing l with
  | case1 t n =>
    have hstart : ([] : List Char).inits.map (t.path n ++ ·) = [t.path n] := by simp
    rw [hstart, eraseDups_append_cons_of_mem hmem, List.append_nil]
    apply hl
  | case2 t n c cs m hchild ih =>
    obtain ⟨hm, hpath⟩ := (h.child?_eq_some_iff hn).mp hchild
    rw [ih h hm hl ((mem_iff_of_paths_eq hl _).mpr (isPath_path hm)), hpath, map_inits_cons,
      eraseDups_append_cons_of_mem hmem]
  | case3 t n c cs hchild ih =>
    have hnew : t.path n ++ [c] ∉ l := by
      rw [mem_iff_of_paths_eq hl]
      apply (h.child?_eq_none_iff hn).mp hchild
    have hl' : (t.addChild n c).paths = (l ++ [t.path n ++ [c]]).eraseDups := by
      rw [paths_addChild, eraseDups_concat_of_notMem hnew, hl]
    rw [ih (h.addChild hn hchild) (by simp) hl' (by simp [path_addChild_size]),
      path_addChild_size, map_inits_cons, eraseDups_append_cons_of_mem hmem]
    -- the new path is the shortest of those still to come
    obtain ⟨rest, hrest⟩ := exists_map_inits_eq_cons (t.path n ++ [c]) cs
    rw [hrest, eraseDups_append_cons_of_mem (by simp), List.append_assoc, List.singleton_append]

/-! ### Edges -/

/-- The characters `cs` lead from the node `n` to the node `m`, over one child after the other. -/
def Leads (t : Trie κ) (n : Nat) : List Char → Nat → Prop
  | [], m => n = m
  | c :: cs, m => ∃ k, (c, k) ∈ (t.node n).children ∧ t.Leads k cs m

/-- Looking up a child finds the only one along its character. -/
theorem WellFormed.mem_children_iff (h : t.WellFormed) {n m : Nat} {c : Char} (hn : n < t.size) :
  (c, m) ∈ (t.node n).children ↔ t.child? n c = some m
  := by
  constructor
  · intro hmem
    apply (h.child?_eq_some_iff hn).mpr (h.of_mem_children hmem)
  · apply mem_of_lookup_eq_some

/-- The nodes reached from `n` are reached by what their paths have more than that of `n`. -/
theorem WellFormed.leads_iff (h : t.WellFormed) {n : Nat} (hn : n < t.size) (cs : List Char)
    (m : Nat) :
  t.Leads n cs m ↔ m < t.size ∧ t.path m = t.path n ++ cs
  := by
  rw [← h.walk?_eq_some_iff hn]
  induction cs generalizing n with
  | nil => rw [Leads, walk?, Option.some_inj]
  | cons c cs ih =>
    rw [Leads, walk?, Option.bind_eq_some_iff]
    apply exists_congr
    intro k
    rw [h.mem_children_iff hn]
    apply and_congr_right
    intro hchild
    apply ih ((h.child?_eq_some_iff hn).mp hchild).1

/-- The children of every node lie along different characters. -/
def HasDistinctEdges (t : Trie κ) : Prop :=
  ∀ n, ((t.node n).children.map (·.1)).Nodup

theorem hasDistinctEdges_empty :
  (empty : Trie κ).HasDistinctEdges
  := by
  intro n
  cases hchildren : ((empty : Trie κ).node n).children with
  | nil => simp
  | cons p ps =>
    have hmem : p ∈ ((empty : Trie κ).node n).children := by simp [hchildren]
    obtain rfl := eq_root_of_lt_size_empty (lt_size_of_mem_children hmem)
    cases hmem

theorem HasDistinctEdges.addChild (h : t.HasDistinctEdges) {n : Nat} {c : Char}
    (hchild : t.child? n c = none) :
  (t.addChild n c).HasDistinctEdges
  := by
  intro m
  rw [node_addChild]
  split_ifs with hnew hmn
  · simp [Node.leaf]
  · obtain ⟨rfl, -⟩ := hmn
    have hc : c ∉ (t.node m).children.map (·.1) := by
      intro hmem
      obtain ⟨p, hp, rfl⟩ := List.mem_map.mp hmem
      have := List.lookup_eq_none_iff.mp hchild p hp
      simp at this
    rw [List.map_append, List.map_singleton, ← List.concat_eq_append, List.nodup_concat]
    exact ⟨hc, h m⟩
  · apply h m

theorem HasDistinctEdges.grow (h : t.HasDistinctEdges) (n : Nat) (cs : List Char) :
  (t.grow n cs).1.HasDistinctEdges
  := by
  fun_induction t.grow n cs with
  | case1 t n => apply h
  | case2 t n c cs m hchild ih => apply ih h
  | case3 t n c cs hchild ih => apply ih (h.addChild hchild)

theorem HasDistinctEdges.setTag (h : t.HasDistinctEdges) (n : Nat) (k : κ) :
  (t.setTag n k).HasDistinctEdges
  := by
  intro m
  rw [children_setTag]
  apply h m

end Trie

end TemplateLexer
