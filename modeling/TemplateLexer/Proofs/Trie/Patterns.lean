import TemplateLexer.Proofs.Trie.Growth

/-!
# The patterns of a trie

`Holds t patterns` says what a trie of given patterns is: its paths are what the patterns
start with, and the tags stand where patterns end.  Registration keeps this true of the
patterns accepted (`Holds.register?`).
-/

namespace TemplateLexer.Trie

variable {κ : Type}

/-- The trie is well formed, its paths are the starts of the patterns, and its tags those
of the patterns that end there. -/
structure Holds (t : Trie κ) (patterns : List (String × κ)) : Prop where
  wellFormed : t.WellFormed
  isPath_iff : ∀ q, t.IsPath q ↔ q = [] ∨ ∃ p ∈ patterns, q <+: p.1.toList
  tag?_eq_some_iff : ∀ n < t.size, ∀ k,
    t.tag? n = some k ↔ (String.ofList (t.path n), k) ∈ patterns

/-! ### The empty trie -/

theorem eq_root_of_lt_size_empty {n : Nat} (hn : n < (empty : Trie κ).size) :
  n = root
  := by
  rw [size, empty, List.size_toArray, List.length_singleton] at hn
  rw [root]
  omega

theorem wellFormed_empty :
  (empty : Trie κ).WellFormed
  := by
  constructor
  · apply Nat.one_pos
  · rfl
  · intro n m c hmem
    obtain rfl := eq_root_of_lt_size_empty (lt_size_of_mem_children hmem)
    cases hmem
  · intro m hm hroot
    exact absurd (eq_root_of_lt_size_empty hm) hroot
  · intro m n hm hn _
    rw [eq_root_of_lt_size_empty hm, eq_root_of_lt_size_empty hn]

theorem holds_empty :
  (empty : Trie κ).Holds []
  := by
  constructor
  · apply wellFormed_empty
  · intro q
    constructor
    · rintro ⟨n, hn, rfl⟩
      left
      rw [eq_root_of_lt_size_empty hn, wellFormed_empty.path_root]
    · rintro (rfl | ⟨p, hp, -⟩)
      · apply wellFormed_empty.isPath_nil
      · cases hp
  · intro n hn k
    obtain rfl := eq_root_of_lt_size_empty hn
    constructor
    · intro htag
      cases htag
    · intro hmem
      cases hmem

namespace Holds

variable {t : Trie κ} {patterns : List (String × κ)}

/-! ### Registration -/

/-- Looking up a pattern gives the tag with which it was registered. -/
theorem lookup?_eq_some_iff (h : t.Holds patterns) (s : String) (k : κ) :
  t.lookup? s.toList = some k ↔ (s, k) ∈ patterns
  := by
  rw [lookup?, Option.bind_eq_some_iff]
  constructor
  · rintro ⟨n, hfind, htag⟩
    obtain ⟨hn, hpath⟩ := h.wellFormed.find?_eq_some_iff.mp hfind
    rw [h.tag?_eq_some_iff n hn, hpath, String.ofList_toList] at htag
    apply htag
  · intro hmem
    obtain ⟨n, hn, hpath⟩ := (h.isPath_iff s.toList).mpr (.inr ⟨_, hmem, List.prefix_rfl⟩)
    use n, h.wellFormed.find?_eq_some_iff.mpr ⟨hn, hpath⟩
    rw [h.tag?_eq_some_iff n hn, hpath, String.ofList_toList]
    apply hmem

theorem lookup?_eq_none_iff (h : t.Holds patterns) (s : String) :
  t.lookup? s.toList = none ↔ s ∉ patterns.map (·.1)
  := by
  rw [Option.eq_none_iff_forall_ne_some]
  simp [h.lookup?_eq_some_iff]

/-- A pattern is accepted when it is neither empty nor registered. -/
theorem register?_eq_some_iff (h : t.Holds patterns) (s : String) (k : κ) (t' : Trie κ) :
  t.register? s.toList k = some t'
    ↔ s ≠ "" ∧ s ∉ patterns.map (·.1)
      ∧ (t.grow root s.toList).1.setTag (t.grow root s.toList).2 k = t'
  := by
  rw [Trie.register?, ← h.lookup?_eq_none_iff]
  cases hlookup : t.lookup? s.toList with
  | none => by_cases hs : s = "" <;> simp [hs]
  | some k' => simp

/-- Registration leaves the nodes that there are, with their paths. -/
theorem path_register? (h : t.Holds patterns) {s : String} {k : κ} {t' : Trie κ}
    (ht' : t.register? s.toList k = some t') {n : Nat} (hn : n < t.size) :
  n < t'.size ∧ t'.path n = t.path n
  := by
  obtain ⟨-, -, rfl⟩ := (h.register?_eq_some_iff s k t').mp ht'
  have hgrows := grows_grow t root s.toList
  rw [size_setTag, path_setTag]
  exact ⟨Nat.lt_of_lt_of_le hn hgrows.size_le, hgrows.path_eq n hn⟩

/-- A pattern that is accepted is added to the patterns held. -/
theorem register? (h : t.Holds patterns) {s : String} {k : κ} {t' : Trie κ}
    (ht' : t.register? s.toList k = some t') :
  t'.Holds (patterns ++ [(s, k)])
  := by
  obtain ⟨-, hnew, rfl⟩ := (h.register?_eq_some_iff s k t').mp ht'
  have hroot := h.wellFormed.root_lt_size
  have hgrows := grows_grow t root s.toList
  have hpaths := isPath_grow_iff h.wellFormed hroot s.toList
  obtain ⟨hwf, hlt, hpath⟩ := h.wellFormed.grow hroot s.toList
  rw [h.wellFormed.path_root, List.nil_append] at hpath
  generalize t.grow root s.toList = grown at hgrows hpaths hwf hlt hpath ⊢
  obtain ⟨g, n⟩ := grown
  dsimp only at hgrows hpaths hwf hlt hpath ⊢
  constructor
  · apply hwf.setTag n k
  · intro q
    rw [isPath_setTag_iff, hpaths, h.isPath_iff, h.wellFormed.path_root]
    simp [or_and_right, exists_or, or_assoc]
  · intro m hm k'
    rw [size_setTag] at hm
    rw [path_setTag, tag?_setTag g n k hm, List.mem_append, List.mem_singleton]
    by_cases hmn : m = n
    · subst hmn
      have hnot : (s, k') ∉ patterns := fun hmem => hnew (List.mem_map_of_mem hmem)
      rw [if_pos rfl, hpath, String.ofList_toList]
      simp [hnot, eq_comm]
    · have hne : String.ofList (g.path m) ≠ s := by
        rintro rfl
        apply hmn (hwf.path_injective hm hlt _)
        rw [hpath, String.toList_ofList]
      rw [if_neg hmn]
      simp only [Prod.mk.injEq, hne, false_and, or_false]
      by_cases hold : m < t.size
      · rw [hgrows.tag?_eq m hold, hgrows.path_eq m hold, h.tag?_eq_some_iff m hold]
      · -- a new node has no tag, and a path that no older node has
        rw [hgrows.tag?_eq_none m hm (by omega)]
        constructor
        · intro hnone
          cases hnone
        · intro hmem
          obtain ⟨j, hj, hjpath⟩ := (h.isPath_iff (g.path m)).mpr
            (.inr ⟨_, hmem, by simp⟩)
          have hjm := hwf.path_injective (Nat.lt_of_lt_of_le hj hgrows.size_le) hm
            ((hgrows.path_eq j hj).trans hjpath)
          omega

end Holds

end TemplateLexer.Trie
