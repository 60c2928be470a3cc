import TemplateLexer.Proofs.Trie.Chain

/-!
# Links hold the chains of all nodes

`Links.linked_ofTrie` says that the links of a well-formed trie hold the chain of fallbacks
of every node.  They are computed level by level: `LinkedTo t links d` is the invariant
that the chains of all nodes at most `d` characters deep are there, and one level gives
the next, in whatever order the nodes and their children are visited.
-/

namespace TemplateLexer

variable {κ : Type}

open Trie

namespace Links

variable {t : Trie κ} {links : Links}

/-- The links hold the chain of `n`. -/
def Linked (t : Trie κ) (links : Links) (n : Nat) : Prop :=
  IsChain t n (links.chain n)

/-- The links `links'` hold all the chains that `links` hold. -/
structure Keeps (t : Trie κ) (links links' : Links) : Prop where
  size_eq : links'.size = links.size
  linked : ∀ n, Linked t links n → Linked t links' n

namespace Keeps

theorem refl (t : Trie κ) (links : Links) :
  Keeps t links links
  := ⟨rfl, fun _ hn => hn⟩

theorem trans {links₁ links₂ links₃ : Links} (h : Keeps t links₁ links₂)
    (h' : Keeps t links₂ links₃) :
  Keeps t links₁ links₃
  := ⟨h'.size_eq.trans h.size_eq, fun n hn => h'.linked n (h.linked n hn)⟩

end Keeps

theorem chain_setIfInBounds (links : Links) (n m : Nat) (fs : List Fallback) :
  chain (links.setIfInBounds n fs) m = if n = m ∧ n < links.size then fs else links.chain m
  := by
  simp only [chain, Array.getD_eq_getD_getElem?, Array.getElem?_setIfInBounds]
  grind

/-- Setting the chain of a node keeps the chains of the others. -/
theorem keeps_setIfInBounds {n : Nat} {fs : List Fallback} (hfs : IsChain t n fs) :
  Keeps t links (links.setIfInBounds n fs)
  := by
  use Array.size_setIfInBounds
  intro m hm
  rw [Linked, chain_setIfInBounds]
  split_ifs with hif
  · obtain ⟨rfl, -⟩ := hif
    apply hfs
  · apply hm

theorem linked_setIfInBounds {n : Nat} {fs : List Fallback} (hfs : IsChain t n fs)
    (hn : n < links.size) :
  Linked t (links.setIfInBounds n fs) n
  := by
  rw [Linked, chain_setIfInBounds, if_pos ⟨rfl, hn⟩]
  apply hfs

/-! ### Level by level -/

/-- The links hold the chains of all nodes that lie at most `d` characters deep. -/
def LinkedTo (t : Trie κ) (links : Links) (d : Nat) : Prop :=
  links.size = t.size ∧ ∀ n < t.size, (t.path n).length ≤ d → Linked t links n

theorem LinkedTo.of_keeps {links' : Links} {d : Nat} (hlinks : LinkedTo t links d)
    (hkeeps : Keeps t links links') :
  LinkedTo t links' d
  := ⟨hkeeps.size_eq.trans hlinks.1, fun n hn hd => hkeeps.linked n (hlinks.2 n hn hd)⟩

/-- The links with the chain of `p.2` added, a child along `p.1` of a node with the
chain `fs`. -/
def linkChild (t : Trie κ) (fs : List Fallback) (links : Links) (p : Char × Nat) : Links :=
  links.setIfInBounds p.2 (extend t links fs p.1 p.2)

/-- Visiting one child of a node gives it its chain. -/
theorem linkChild_spec (h : t.WellFormed) {n : Nat} {fs : List Fallback} {p : Char × Nat}
    (hfs : IsChain t n fs) (hp : p ∈ (t.node n).children)
    (hlinks : LinkedTo t links (t.path n).length) :
  Keeps t links (linkChild t fs links p) ∧ Linked t (linkChild t fs links p) p.2
  := by
  have hchain := hfs.extend h hp hlinks.2
  have hlt : p.2 < links.size := by
    rw [hlinks.1]
    apply (h.of_mem_children hp).1
  constructor
  · apply keeps_setIfInBounds hchain
  · apply linked_setIfInBounds hchain hlt

/-- Visiting children of a node, in any order, gives each its chain. -/
theorem foldl_linkChild_spec (h : t.WellFormed) {n : Nat} {fs : List Fallback}
    {ps : List (Char × Nat)} (hfs : IsChain t n fs) (hps : ∀ p ∈ ps, p ∈ (t.node n).children)
    (hlinks : LinkedTo t links (t.path n).length) :
  Keeps t links (ps.foldl (linkChild t fs) links)
    ∧ ∀ p ∈ ps, Linked t (ps.foldl (linkChild t fs) links) p.2
  := by
  induction ps generalizing links with
  | nil => simp [Keeps.refl]
  | cons p ps ih =>
    obtain ⟨hkeeps, hlinked⟩ := linkChild_spec h hfs (hps p List.mem_cons_self) hlinks
    obtain ⟨hkeeps', hlinked'⟩ :=
      ih (fun q hq => hps q (List.mem_cons_of_mem p hq)) (hlinks.of_keeps hkeeps)
    use hkeeps.trans hkeeps'
    intro q hq
    rcases List.mem_cons.mp hq with rfl | hq
    · apply hkeeps'.linked _ hlinked
    · apply hlinked' q hq

/-- Visiting the nodes of a level gives all their children their chains. -/
theorem foldl_linkChildren_spec (h : t.WellFormed) {level : List Nat} {d : Nat}
    (hlevel : ∀ n ∈ level, n < t.size ∧ (t.path n).length = d) (hlinks : LinkedTo t links d) :
  Keeps t links (level.foldl (linkChildren t) links)
    ∧ ∀ n ∈ level, ∀ p ∈ (t.node n).children,
      Linked t (level.foldl (linkChildren t) links) p.2
  := by
  induction level generalizing links with
  | nil => simp [Keeps.refl]
  | cons n level ih =>
    obtain ⟨hn, rfl⟩ := hlevel n List.mem_cons_self
    obtain ⟨hkeeps, hlinked⟩ : Keeps t links (linkChildren t links n) ∧ _ :=
      foldl_linkChild_spec h (hlinks.2 n hn (Nat.le_refl _)) (fun _ hp => hp) hlinks
    obtain ⟨hkeeps', hlinked'⟩ :=
      ih (fun m hm => hlevel m (List.mem_cons_of_mem n hm)) (hlinks.of_keeps hkeeps)
    use hkeeps.trans hkeeps'
    intro m hm p hp
    rcases List.mem_cons.mp hm with rfl | hm
    · apply hkeeps'.linked _ (hlinked p hp)
    · apply hlinked' m hm p hp

/-- The children of all nodes `d` characters deep are the nodes one character deeper. -/
theorem mem_flatMap_children_iff (h : t.WellFormed) {level : List Nat} {d : Nat}
    (hlevel : ∀ n, n ∈ level ↔ n < t.size ∧ (t.path n).length = d) (m : Nat) :
  m ∈ level.flatMap (fun n => (t.node n).children.map (·.2))
    ↔ m < t.size ∧ (t.path m).length = d + 1
  := by
  simp only [List.mem_flatMap, List.mem_map, hlevel]
  constructor
  · rintro ⟨n, ⟨hn, rfl⟩, ⟨c, m⟩, hp, rfl⟩
    obtain ⟨hm, hpath⟩ := h.of_mem_children hp
    simp [hm, hpath]
  · rintro ⟨hm, hlength⟩
    obtain ⟨q, c, hpath⟩ : ∃ q c, t.path m = q ++ [c] := by
      rcases List.eq_nil_or_concat' (t.path m) with hnil | hconcat
      · simp [hnil] at hlength
      · apply hconcat
    obtain ⟨n, hlt, hpath', hmem⟩ := h.exists_of_path_eq_concat hm hpath
    refine ⟨n, ⟨by omega, ?_⟩, (c, m), hmem, rfl⟩
    simpa [hpath, ← hpath'] using hlength

/-- Visiting all nodes `d` characters deep links the next level. -/
theorem LinkedTo.foldl_linkChildren (h : t.WellFormed) {level : List Nat} {d : Nat}
    (hlevel : ∀ n, n ∈ level ↔ n < t.size ∧ (t.path n).length = d)
    (hlinks : LinkedTo t links d) :
  LinkedTo t (level.foldl (linkChildren t) links) (d + 1)
  := by
  obtain ⟨hkeeps, hlinked⟩ :=
    foldl_linkChildren_spec h (fun n hn => (hlevel n).mp hn) hlinks
  use (hlinks.of_keeps hkeeps).1
  intro m hm hd
  rcases Nat.le_or_eq_of_le_succ hd with hd | hd
  · apply (hlinks.of_keeps hkeeps).2 m hm hd
  · obtain ⟨n, hn, hmem⟩ :=
      List.mem_flatMap.mp ((mem_flatMap_children_iff h hlevel m).mpr ⟨hm, hd⟩)
    obtain ⟨p, hp, rfl⟩ := List.mem_map.mp hmem
    apply hlinked n hn p hp

/-- From the level `d` characters deep on, `depth` levels are linked. -/
theorem linkedTo_linkBelow (h : t.WellFormed) {level : List Nat} {d : Nat} (depth : Nat)
    (hlevel : ∀ n, n ∈ level ↔ n < t.size ∧ (t.path n).length = d)
    (hlinks : LinkedTo t links d) :
  LinkedTo t (linkBelow t depth level links) (d + depth)
  := by
  induction depth generalizing level d links with
  | zero => apply hlinks
  | succ depth ih =>
    rw [linkBelow, ← Nat.succ_add_eq_add_succ]
    apply ih (mem_flatMap_children_iff h hlevel) (hlinks.foldl_linkChildren h hlevel)

/-- The root is the only node no character deep. -/
theorem mem_root_iff (h : t.WellFormed) (n : Nat) :
  n ∈ [root] ↔ n < t.size ∧ (t.path n).length = 0
  := by
  rw [List.mem_singleton, List.length_eq_zero_iff]
  constructor
  · rintro rfl
    exact ⟨h.root_lt_size, h.path_root⟩
  · rintro ⟨hn, hpath⟩
    apply (h.path_eq_nil_iff hn).mp hpath

/-- Before any node is visited the root has its chain. -/
theorem linkedTo_replicate (h : t.WellFormed) :
  LinkedTo t (Array.replicate t.size []) 0
  := by
  use Array.size_replicate
  intro m hm hd
  obtain rfl := (h.path_eq_nil_iff hm).mp (List.length_eq_zero_iff.mp (by omega))
  rw [Linked, chain, Array.getD_eq_getD_getElem?, Array.getElem?_replicate, if_pos hm]
  apply IsChain.root

theorem linkedTo_ofTrie (h : t.WellFormed) :
  LinkedTo t (ofTrie t) (0 + t.size)
  := linkedTo_linkBelow h t.size (mem_root_iff h) (linkedTo_replicate h)

theorem size_ofTrie (h : t.WellFormed) :
  (ofTrie t).size = t.size
  := (linkedTo_ofTrie h).1

/-- The links of a trie hold the chain of every node. -/
theorem linked_ofTrie (h : t.WellFormed) {n : Nat} (hn : n < t.size) :
  Linked t (ofTrie t) n
  := by
  apply (linkedTo_ofTrie h).2 n hn
  have := h.length_path_le hn
  omega

end Links

end TemplateLexer
