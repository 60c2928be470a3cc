import Mathlib.Data.Finset.Card
import Mathlib.Data.Finset.Range
import Mathlib.Data.List.Infix
import TemplateLexer.Proofs.Trie.Patterns

/-!
# Counting nodes

The nodes of a trie are as many as its paths, which are the starts of its patterns
(`Trie.Holds.size_eq`), and as many of them have a tag as there are patterns
(`Trie.Holds.patternCount_eq`).
-/

namespace TemplateLexer.Trie

variable {κ : Type} {t : Trie κ} {patterns : List (String × κ)}

/-! ### Starts of patterns -/

/-- What the patterns start with, but for the empty word. -/
def starts (patterns : List (String × κ)) : Finset (List Char) :=
  (patterns.flatMap fun p => p.1.toList.inits).toFinset.erase []

theorem mem_starts_iff (q : List Char) :
  q ∈ starts patterns ↔ q ≠ [] ∧ ∃ p ∈ patterns, q <+: p.1.toList
  := by
  simp [starts]

theorem WellFormed.path_injOn (h : t.WellFormed) :
  Set.InjOn t.path (Finset.range t.size)
  := by
  intro m hm n hn hpath
  apply h.path_injective _ _ hpath
  · simpa using hm
  · simpa using hn

/-- The paths are the starts of the patterns and the empty word. -/
theorem Holds.image_path_eq (h : t.Holds patterns) :
  (Finset.range t.size).image t.path = insert [] (starts patterns)
  := by
  ext q
  have hpath := h.isPath_iff q
  simp only [IsPath] at hpath
  simp only [Finset.mem_image, Finset.mem_range, hpath, Finset.mem_insert, mem_starts_iff]
  tauto

/-- A trie has a root and a node for every start of a pattern. -/
theorem Holds.size_eq (h : t.Holds patterns) :
  t.size = (starts patterns).card + 1
  := by
  have hcard := Finset.card_image_of_injOn h.wellFormed.path_injOn
  have hnil : [] ∉ starts patterns := by simp [mem_starts_iff]
  rw [h.image_path_eq, Finset.card_insert_of_notMem hnil, Finset.card_range] at hcard
  exact hcard.symm

/-! ### Tagged nodes -/

/-- The nodes that have a tag. -/
def tagged (t : Trie κ) : Finset Nat :=
  (Finset.range t.size).filter fun n => (t.tag? n).isSome

theorem map_node_range (t : Trie κ) :
  (List.range t.size).map t.node = t.nodes.toList
  := by
  apply List.ext_getElem
  · simp [size]
  · intro n hn hn'
    simp [node, size] at hn hn' ⊢
    simp [hn']

theorem patternCount_eq_card (t : Trie κ) :
  t.patternCount = t.tagged.card
  := by
  rw [patternCount, ← Array.countP_toList, ← map_node_range, List.countP_map,
    List.countP_eq_length_filter, tagged, Finset.card_def, Finset.filter_val, Finset.range_val,
    Multiset.range, Multiset.filter_coe, Multiset.coe_card]
  simp only [Bool.decide_eq_true]
  rfl

/-- The paths of the tagged nodes are the patterns. -/
theorem Holds.image_tagged_eq (h : t.Holds patterns) :
  t.tagged.image (fun n => String.ofList (t.path n)) = (patterns.map (·.1)).toFinset
  := by
  ext s
  simp only [tagged, Finset.mem_image, Finset.mem_filter, Finset.mem_range, List.mem_toFinset,
    List.mem_map, Option.isSome_iff_exists]
  constructor
  · rintro ⟨n, ⟨hn, k, hk⟩, rfl⟩
    exact ⟨_, (h.tag?_eq_some_iff n hn k).mp hk, rfl⟩
  · rintro ⟨p, hp, rfl⟩
    obtain ⟨n, hn, hpath⟩ := (h.isPath_iff p.1.toList).mpr (.inr ⟨p, hp, List.prefix_rfl⟩)
    have hname : String.ofList (t.path n) = p.1 := by rw [hpath, String.ofList_toList]
    refine ⟨n, ⟨hn, p.2, ?_⟩, hname⟩
    rw [h.tag?_eq_some_iff n hn, hname]
    exact hp

/-- A trie has a tag for every pattern. -/
theorem Holds.patternCount_eq (h : t.Holds patterns) (hnodup : (patterns.map (·.1)).Nodup) :
  t.patternCount = patterns.length
  := by
  have hinj : Set.InjOn (fun n => String.ofList (t.path n)) t.tagged := by
    intro m hm n hn hpath
    apply h.wellFormed.path_injOn _ _ (String.ofList_injective hpath)
    · exact Finset.mem_of_mem_filter m hm
    · exact Finset.mem_of_mem_filter n hn
  rw [patternCount_eq_card, ← Finset.card_image_of_injOn hinj, h.image_tagged_eq,
    List.toFinset_card_of_nodup hnodup, List.length_map]

end TemplateLexer.Trie
