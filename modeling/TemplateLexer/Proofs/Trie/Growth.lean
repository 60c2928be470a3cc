import TemplateLexer.Proofs.Trie.WellFormed

/-!
# Growing tries

Registration only adds to a trie.  `Grows t t'` says that `t'` has all nodes of `t` with
their paths and tags, and that its other nodes have no tags.  `grow` makes a trie grow by a
path, which stays well formed (`WellFormed.grow`) and has the new path and all that it
starts with besides the old paths (`isPath_grow_iff`).
-/

namespace TemplateLexer.Trie

variable {κ : Type}

/-- The trie `t'` has the nodes of `t` and, after them, nodes without tags. -/
structure Grows (t t' : Trie κ) : Prop where
  size_le : t.size ≤ t'.size
  path_eq : ∀ n < t.size, t'.path n = t.path n
  tag?_eq : ∀ n < t.size, t'.tag? n = t.tag? n
  tag?_eq_none : ∀ n < t'.size, t.size ≤ n → t'.tag? n = none

namespace Grows

theorem refl (t : Trie κ) :
  Grows t t
  := by
  refine ⟨Nat.le_refl _, fun _ _ => rfl, fun _ _ => rfl, ?_⟩
  intro n hlt hle
  omega

theorem trans {t₁ t₂ t₃ : Trie κ} (h : Grows t₁ t₂) (h' : Grows t₂ t₃) :
  Grows t₁ t₃
  := by
  have hle := h.size_le
  refine ⟨Nat.le_trans hle h'.size_le, ?_, ?_, ?_⟩
  · intro n hn
    rw [h'.path_eq n (by omega), h.path_eq n hn]
  · intro n hn
    rw [h'.tag?_eq n (by omega), h.tag?_eq n hn]
  · intro n hlt hn
    by_cases hmid : n < t₂.size
    · rw [h'.tag?_eq n hmid, h.tag?_eq_none n hmid hn]
    · apply h'.tag?_eq_none n hlt (by omega)

end Grows

/-! ### A new child -/

section AddChild

variable (t : Trie κ) (n : Nat) (c : Char)

@[simp]
theorem size_addChild :
  (t.addChild n c).size = t.size + 1
  := by
  simp [addChild, size]

theorem node_addChild (m : Nat) :
  (t.addChild n c).node m =
    if m = t.size then .leaf (t.path n ++ [c])
    else if m = n ∧ m < t.size then
      { t.node m with children := (t.node m).children ++ [(c, t.size)] }
    else t.node m
  := by
  simp only [addChild, node, size, Array.getD_eq_getD_getElem?, Array.getElem?_push,
    Array.getElem?_modify, Array.size_modify]
  grind

theorem path_addChild_size :
  (t.addChild n c).path t.size = t.path n ++ [c]
  := by
  rw [path, node_addChild, if_pos rfl]
  rfl

theorem mem_children_addChild_iff (hn : n < t.size) (m : Nat) (p : Char × Nat) :
  p ∈ ((t.addChild n c).node m).children
    ↔ (p ∈ (t.node m).children ∧ m ≠ t.size) ∨ (m = n ∧ p = (c, t.size))
  := by
  rw [node_addChild]
  grind [Node.leaf]

theorem grows_addChild :
  Grows t (t.addChild n c)
  := by
  constructor
  · simp
  · intro m hm
    simp only [path, node_addChild]
    grind
  · intro m hm
    simp only [tag?, node_addChild]
    grind
  · intro m hlt hm
    obtain rfl : m = t.size := by rw [size_addChild] at hlt; omega
    rw [tag?, node_addChild, if_pos rfl]
    rfl

end AddChild

variable {t : Trie κ}

theorem isPath_addChild_iff {n : Nat} {c : Char} {q : List Char} :
  (t.addChild n c).IsPath q ↔ t.IsPath q ∨ q = t.path n ++ [c]
  := by
  have hgrows := grows_addChild t n c
  constructor
  · rintro ⟨m, hm, rfl⟩
    rw [size_addChild] at hm
    rcases Nat.lt_succ_iff_lt_or_eq.mp hm with hm | rfl
    · left
      exact ⟨m, hm, (hgrows.path_eq m hm).symm⟩
    · right
      apply path_addChild_size
  · rintro (⟨m, hm, rfl⟩ | rfl)
    · exact ⟨m, by simp; omega, hgrows.path_eq m hm⟩
    · exact ⟨t.size, by simp, path_addChild_size t n c⟩

theorem lt_size_of_mem_children {n : Nat} {p : Char × Nat} (hp : p ∈ (t.node n).children) :
  n < t.size
  := by
  by_contra hn
  rw [node, Array.getD_eq_getD_getElem?, Array.getElem?_eq_none (by simpa [size] using hn)] at hp
  contradiction

/-- The path of a new child is no older path, so paths still belong to one node each. -/
theorem WellFormed.path_injective_addChild (h : t.WellFormed) {n : Nat} {c : Char}
    (hn : n < t.size) (hchild : t.child? n c = none) {k m : Nat}
    (hk : k < (t.addChild n c).size) (hm : m < (t.addChild n c).size)
    (hpath : (t.addChild n c).path k = (t.addChild n c).path m) :
  k = m
  := by
  have hpaths := (grows_addChild t n c).path_eq
  have hnew := (h.child?_eq_none_iff hn).mp hchild
  rw [size_addChild, Nat.lt_succ_iff_lt_or_eq] at hk hm
  rcases hk with hk | rfl <;> rcases hm with hm | rfl
  · rw [hpaths k hk, hpaths m hm] at hpath
    apply h.path_injective hk hm hpath
  · rw [hpaths k hk, path_addChild_size] at hpath
    exact absurd ⟨k, hk, hpath⟩ hnew
  · rw [hpaths m hm, path_addChild_size] at hpath
    exact absurd ⟨m, hm, hpath.symm⟩ hnew
  · rfl

/-- A child along a character without one leaves the trie well formed. -/
theorem WellFormed.addChild (h : t.WellFormed) {n : Nat} {c : Char} (hn : n < t.size)
    (hchild : t.child? n c = none) :
  (t.addChild n c).WellFormed
  := by
  have hpaths := (grows_addChild t n c).path_eq
  refine ⟨?_, ?_, ?_, ?_, h.path_injective_addChild hn hchild⟩
  · rw [size_addChild]
    apply Nat.lt_succ_of_lt h.root_lt_size
  · rw [hpaths _ h.root_lt_size, h.path_root]
  · intro k m c' hmem
    rcases (mem_children_addChild_iff t n c hn k _).mp hmem with ⟨hmem, -⟩ | ⟨rfl, hp⟩
    · have hk := lt_size_of_mem_children hmem
      obtain ⟨hm, hpath⟩ := h.of_mem_children hmem
      rw [hpaths m hm, hpaths k hk, size_addChild]
      exact ⟨Nat.lt_succ_of_lt hm, hpath⟩
    · obtain ⟨rfl, rfl⟩ := Prod.mk.inj hp
      rw [path_addChild_size, hpaths k hn, size_addChild]
      exact ⟨Nat.lt_succ_self _, rfl⟩
  · intro m hm hroot
    rw [size_addChild, Nat.lt_succ_iff_lt_or_eq] at hm
    rcases hm with hm | rfl
    · obtain ⟨k, c', hk, hmem⟩ := h.exists_parent hm hroot
      use k, c', hk
      apply (mem_children_addChild_iff t n c hn k _).mpr
      left
      exact ⟨hmem, by omega⟩
    · use n, c, hn
      apply (mem_children_addChild_iff t n c hn n _).mpr
      right
      exact ⟨rfl, rfl⟩

/-! ### A new path -/

theorem grows_grow (t : Trie κ) (n : Nat) (cs : List Char) :
  Grows t (t.grow n cs).1
  := by
  fun_induction t.grow n cs with
  | case1 t n => apply Grows.refl
  | case2 t n c cs m hchild ih => apply ih
  | case3 t n c cs hchild ih => apply (grows_addChild t n c).trans ih

/-- Growing by a path leaves the trie well formed, and ends at the node with this path. -/
theorem WellFormed.grow (h : t.WellFormed) {n : Nat} (hn : n < t.size) (cs : List Char) :
  (t.grow n cs).1.WellFormed ∧ (t.grow n cs).2 < (t.grow n cs).1.size
    ∧ (t.grow n cs).1.path (t.grow n cs).2 = t.path n ++ cs
  := by
  fun_induction t.grow n cs with
  | case1 t n => simp [h, hn]
  | case2 t n c cs m hchild ih =>
    obtain ⟨hm, hpath⟩ := (h.child?_eq_some_iff hn).mp hchild
    simpa [hpath] using ih h hm
  | case3 t n c cs hchild ih =>
    simpa [path_addChild_size] using ih (h.addChild hn hchild) (by simp)

/-- What the path of `n` followed by `c :: cs` adds to the paths is what that of the child
along `c` followed by `cs` adds. -/
theorem isPath_or_prefix_cons_iff {n : Nat} (hn : n < t.size) (c : Char) (cs q : List Char) :
  (t.IsPath q ∨ ∃ p, p <+: c :: cs ∧ q = t.path n ++ p)
    ↔ t.IsPath q ∨ ∃ p, p <+: cs ∧ q = t.path n ++ [c] ++ p
  := by
  constructor
  · rintro (hq | ⟨p, hp, rfl⟩)
    · left
      apply hq
    · rcases List.prefix_cons_iff.mp hp with rfl | ⟨p', rfl, hp'⟩
      · left
        rw [List.append_nil]
        apply isPath_path hn
      · right
        exact ⟨p', hp', by simp⟩
  · rintro (hq | ⟨p, hp, rfl⟩)
    · left
      apply hq
    · right
      exact ⟨c :: p, by simpa using hp, by simp⟩

/-- Growing by a path adds the path and all that it starts with. -/
theorem isPath_grow_iff (h : t.WellFormed) {n : Nat} (hn : n < t.size) (cs q : List Char) :
  (t.grow n cs).1.IsPath q ↔ t.IsPath q ∨ ∃ p, p <+: cs ∧ q = t.path n ++ p
  := by
  fun_induction t.grow n cs with
  | case1 t n =>
    constructor
    · intro hq
      left
      apply hq
    · rintro (hq | ⟨p, hp, rfl⟩)
      · apply hq
      · rw [List.prefix_nil.mp hp, List.append_nil]
        apply isPath_path hn
  | case2 t n c cs m hchild ih =>
    obtain ⟨hm, hpath⟩ := (h.child?_eq_some_iff hn).mp hchild
    rw [ih h hm, isPath_or_prefix_cons_iff hn, hpath]
  | case3 t n c cs hchild ih =>
    rw [ih (h.addChild hn hchild) (by simp), isPath_or_prefix_cons_iff hn,
      path_addChild_size, isPath_addChild_iff, or_assoc]
    apply or_congr_right
    constructor
    · rintro (rfl | hp)
      · exact ⟨[], List.nil_prefix, by simp⟩
      · apply hp
    · intro hp
      right
      apply hp

/-! ### A new tag -/

section SetTag

variable (t : Trie κ) (n : Nat) (k : κ)

@[simp]
theorem size_setTag :
  (t.setTag n k).size = t.size
  := by
  simp [setTag, size]

theorem node_setTag (m : Nat) :
  (t.setTag n k).node m =
    if m = n ∧ m < t.size then { t.node m with tag := some k } else t.node m
  := by
  simp only [setTag, node, size, Array.getD_eq_getD_getElem?, Array.getElem?_modify]
  grind

@[simp]
theorem path_setTag (m : Nat) :
  (t.setTag n k).path m = t.path m
  := by
  rw [path, node_setTag]
  split_ifs <;> rfl

@[simp]
theorem children_setTag (m : Nat) :
  ((t.setTag n k).node m).children = (t.node m).children
  := by
  rw [node_setTag]
  split_ifs <;> rfl

theorem tag?_setTag {m : Nat} (hm : m < t.size) :
  (t.setTag n k).tag? m = if m = n then some k else t.tag? m
  := by
  rw [tag?, node_setTag]
  split_ifs <;> grind [tag?]

@[simp]
theorem isPath_setTag_iff (q : List Char) :
  (t.setTag n k).IsPath q ↔ t.IsPath q
  := by
  simp [IsPath]

end SetTag

/-- A tag leaves the trie well formed. -/
theorem WellFormed.setTag (h : t.WellFormed) (n : Nat) (k : κ) :
  (t.setTag n k).WellFormed
  := by
  constructor
  · simpa using h.root_lt_size
  · simpa using h.path_root
  · intro m m' c hmem
    simpa using h.of_mem_children (by simpa using hmem)
  · intro m hm hroot
    simpa using h.exists_parent (by simpa using hm) hroot
  · intro m m' hm hm' hpath
    apply h.path_injective (by simpa using hm) (by simpa using hm') (by simpa using hpath)

end TemplateLexer.Trie
