import TemplateLexer.Trie
import Mathlib.Data.List.Basic
import Mathlib.Data.List.Induction

/-!
# Well-formed tries

A trie is `WellFormed` when its nodes correspond to their paths: the children of a node lie
one character below it, every node but the root is the child of an earlier node, and
different nodes have different paths.  Then `child?` and `find?` look paths up:
`child?_eq_some_iff` and `find?_eq_some_iff`.  The order in which children are listed plays
no part in any of this.
-/

namespace TemplateLexer.Trie

variable {κ : Type}

/-- The nodes of the trie correspond to their paths. -/
structure WellFormed (t : Trie κ) : Prop where
  root_lt_size : root < t.size
  path_root : t.path root = []
  of_mem_children : ∀ {n m : Nat} {c : Char}, (c, m) ∈ (t.node n).children →
    m < t.size ∧ t.path m = t.path n ++ [c]
  exists_parent : ∀ {m : Nat}, m < t.size → m ≠ root →
    ∃ n c, n < m ∧ (c, m) ∈ (t.node n).children
  path_injective : ∀ {m n : Nat}, m < t.size → n < t.size → t.path m = t.path n → m = n

/-- Some node has the path `q`. -/
def IsPath (t : Trie κ) (q : List Char) : Prop :=
  ∃ n < t.size, t.path n = q

theorem isPath_path {t : Trie κ} {n : Nat} (hn : n < t.size) :
  t.IsPath (t.path n)
  := ⟨n, hn, rfl⟩

/-- Looking up a key finds one of its values. -/
theorem mem_of_lookup_eq_some {α β : Type} [BEq α] [LawfulBEq α] {l : List (α × β)} {a : α}
    {b : β} (h : l.lookup a = some b) :
  (a, b) ∈ l
  := by
  obtain ⟨l₁, l₂, rfl, -⟩ := List.lookup_eq_some_iff.mp h
  simp

namespace WellFormed

variable {t : Trie κ} (h : t.WellFormed)
include h

/-! ### Paths -/

theorem path_eq_nil_iff {n : Nat} (hn : n < t.size) :
  t.path n = [] ↔ n = root
  := by
  constructor
  · intro hpath
    apply h.path_injective hn h.root_lt_size
    rw [hpath, h.path_root]
  · rintro rfl
    apply h.path_root

/-- The root is no child. -/
theorem ne_root_of_mem_children {n m : Nat} {c : Char} (hmem : (c, m) ∈ (t.node n).children) :
  m ≠ root
  := by
  obtain ⟨hm, hpath⟩ := h.of_mem_children hmem
  rw [ne_eq, ← h.path_eq_nil_iff hm, hpath]
  simp

theorem isPath_nil :
  t.IsPath []
  := ⟨root, h.root_lt_size, h.path_root⟩

/-- A node whose path ends in `c` lies one character below an earlier node. -/
theorem exists_of_path_eq_concat {m : Nat} {q : List Char} {c : Char} (hm : m < t.size)
    (hpath : t.path m = q ++ [c]) :
  ∃ n < m, t.path n = q ∧ (c, m) ∈ (t.node n).children
  := by
  have hroot : m ≠ root := by
    rintro rfl
    simp [h.path_root] at hpath
  obtain ⟨n, c', hn, hmem⟩ := h.exists_parent hm hroot
  rw [(h.of_mem_children hmem).2] at hpath
  obtain ⟨rfl, hc⟩ := List.append_inj' hpath rfl
  obtain rfl : c' = c := by simpa using hc
  exact ⟨n, hn, rfl, hmem⟩

/-- What a path starts with is a path. -/
theorem isPath_of_prefix {p q : List Char} (hq : t.IsPath q) (hpq : p <+: q) :
  t.IsPath p
  := by
  obtain ⟨r, rfl⟩ := hpq
  induction r using List.reverseRecOn with
  | nil => simpa using hq
  | append_singleton r c ih =>
    obtain ⟨m, hm, hpath⟩ := hq
    rw [← List.append_assoc] at hpath
    obtain ⟨n, hn, hpath', -⟩ := h.exists_of_path_eq_concat hm hpath
    apply ih
    exact ⟨n, by omega, hpath'⟩

/-- Longer paths belong to later nodes. -/
theorem length_path_le {n : Nat} (hn : n < t.size) :
  (t.path n).length ≤ n
  := by
  induction n using Nat.strongRecOn with
  | ind n ih =>
    rcases List.eq_nil_or_concat' (t.path n) with hnil | ⟨q, c, hpath⟩
    · simp [hnil]
    · obtain ⟨m, hm, rfl, -⟩ := h.exists_of_path_eq_concat hn hpath
      have := ih m hm (by omega)
      simp only [hpath, List.length_append, List.length_singleton]
      omega

/-! ### Looking up nodes -/

/-- The child along `c` is the node whose path is one `c` longer. -/
theorem child?_eq_some_iff {n m : Nat} {c : Char} (hn : n < t.size) :
  t.child? n c = some m ↔ m < t.size ∧ t.path m = t.path n ++ [c]
  := by
  constructor
  · intro hchild
    apply h.of_mem_children (mem_of_lookup_eq_some hchild)
  · rintro ⟨hm, hpath⟩
    obtain ⟨n', hlt, hpath', hmem⟩ := h.exists_of_path_eq_concat hm hpath
    obtain rfl := h.path_injective (by omega) hn hpath'
    -- the lookup finds some child along `c`, and there is only one
    obtain ⟨m', hm'⟩ : ∃ m', t.child? n' c = some m' := by
      apply Option.isSome_iff_exists.mp
      apply List.lookup_isSome_iff.mpr
      exact ⟨_, hmem, by simp⟩
    obtain ⟨hlt', hpath''⟩ := h.of_mem_children (mem_of_lookup_eq_some hm')
    rw [hm', h.path_injective hlt' hm (hpath''.trans hpath.symm)]

/-- There is no child along `c` when no path is one `c` longer. -/
theorem child?_eq_none_iff {n : Nat} {c : Char} (hn : n < t.size) :
  t.child? n c = none ↔ ¬ t.IsPath (t.path n ++ [c])
  := by
  rw [Option.eq_none_iff_forall_ne_some]
  simp only [IsPath, ne_eq, h.child?_eq_some_iff hn, not_exists]

/-- Walking along `cs` leads to the node whose path is `cs` longer. -/
theorem walk?_eq_some_iff {n m : Nat} {cs : List Char} (hn : n < t.size) :
  t.walk? n cs = some m ↔ m < t.size ∧ t.path m = t.path n ++ cs
  := by
  induction cs generalizing n with
  | nil =>
    rw [walk?, Option.some_inj, List.append_nil]
    constructor
    · rintro rfl
      exact ⟨hn, rfl⟩
    · rintro ⟨hm, hpath⟩
      exact (h.path_injective hm hn hpath).symm
  | cons c cs ih =>
    rw [walk?, Option.bind_eq_some_iff]
    constructor
    · rintro ⟨n', hchild, hwalk⟩
      obtain ⟨hn', hpath⟩ := (h.child?_eq_some_iff hn).mp hchild
      rw [ih hn', hpath] at hwalk
      simpa using hwalk
    · rintro ⟨hm, hpath⟩
      obtain ⟨n', hn', hpath'⟩ : t.IsPath (t.path n ++ [c]) := by
        apply h.isPath_of_prefix (isPath_path hm)
        simp [hpath]
      use n', (h.child?_eq_some_iff hn).mpr ⟨hn', hpath'⟩
      rw [ih hn', hpath']
      simpa using ⟨hm, hpath⟩

/-- The node found for `cs` is the one with the path `cs`. -/
theorem find?_eq_some_iff {n : Nat} {cs : List Char} :
  t.find? cs = some n ↔ n < t.size ∧ t.path n = cs
  := by
  rw [find?, h.walk?_eq_some_iff h.root_lt_size, h.path_root, List.nil_append]

theorem find?_path {n : Nat} (hn : n < t.size) :
  t.find? (t.path n) = some n
  := h.find?_eq_some_iff.mpr ⟨hn, rfl⟩

end WellFormed

end TemplateLexer.Trie
