import TemplateLexer.Proofs.Automaton.Reachable
import TemplateLexer.Proofs.Trie.Links

/-!
# Fallbacks

The fallback of a node is the first of its chain, and the rest of the chain is that of the
fallback (`Links.chain_eq_cons`).  It is the longest path that the path of the node properly
ends with, and so nearer to the root (`Links.isFallback_fallback`); what it releases is the rest
of the path.  There is only one such chain, so that the links of a trie do not depend on the
order in which the children of a node are met (`Links.ofTrie_eq_of_isReordering`).
-/

namespace TemplateLexer

variable {κ : Type}

open Trie

/-! ### One chain -/

section Unique

variable {t t' : Trie κ}

/-- A word ends with one longest path. -/
theorem Trie.IsLongestSuffix.unique (h : t.WellFormed) {w : List Char} {m n : Nat}
    (hm : t.IsLongestSuffix w m) (hn : t.IsLongestSuffix w n) :
  m = n
  := by
  have hmn := hn.suffix_path _ (isPath_path hm.lt_size) hm.path_suffix
  have hnm := hm.suffix_path _ (isPath_path hn.lt_size) hn.path_suffix
  apply h.path_injective hm.lt_size hn.lt_size (hmn.eq_of_length_le hnm.length_le)

/-- A node has one chain. -/
theorem IsChain.unique (h : t.WellFormed) {n : Nat} {fs fs' : List Fallback}
    (hfs : IsChain t n fs) (hfs' : IsChain t n fs') :
  fs = fs'
  := by
  induction hfs generalizing fs' with
  | root =>
    cases hfs' with
    | root => rfl
    | step hn hroot => exact absurd rfl hroot
  | @step n m released fs hn hroot hm hreleased hfs ih =>
    cases hfs' with
    | root => exact absurd rfl hroot
    | @step _ m' released' fs' _ _ hm' hreleased' hfs' =>
      obtain rfl := hm.unique h hm'
      rw [← hreleased', List.append_cancel_right_eq] at hreleased
      rw [hreleased, ih hfs']

theorem Trie.IsLongestSuffix.reorder (ht : IsReordering t' t) {w : List Char} {n : Nat}
    (hn : t.IsLongestSuffix w n) :
  t'.IsLongestSuffix w n
  := by
  constructor
  · rw [ht.size_eq]
    apply hn.lt_size
  · rw [ht.path_eq]
    apply hn.path_suffix
  · intro q hq
    rw [ht.path_eq]
    apply hn.suffix_path q ((ht.isPath_iff q).mp hq)

/-- The order of children plays no part in a chain. -/
theorem IsChain.reorder (ht : IsReordering t' t) {n : Nat} {fs : List Fallback}
    (hfs : IsChain t n fs) :
  IsChain t' n fs
  := by
  induction hfs with
  | root => apply IsChain.root
  | step hn hroot hm hreleased hfs ih =>
    apply IsChain.step _ hroot _ _ ih
    · rwa [ht.size_eq]
    · rw [ht.path_eq]
      apply hm.reorder ht
    · rwa [ht.path_eq, ht.path_eq]

end Unique

namespace Links

variable {t t' : Trie κ}

/-- The links of a trie do not depend on the order of children. -/
theorem ofTrie_eq_of_isReordering (h : t.WellFormed) (ht : IsReordering t' t) :
  ofTrie t' = ofTrie t
  := by
  have h' := h.reorder ht
  apply Array.ext
  · rw [size_ofTrie h', size_ofTrie h, ht.size_eq]
  · intro n hn' hn
    have hchain := IsChain.unique h' (linked_ofTrie h' (by rwa [size_ofTrie h'] at hn'))
      ((linked_ofTrie h (by rwa [size_ofTrie h] at hn)).reorder ht)
    simpa [chain, hn, hn'] using hchain

/-! ### The first of a chain -/

/-- The first fallback of `n`.  The root has itself, for which it releases nothing. -/
def fallback (links : Links) (n : Nat) : Fallback :=
  (links.chain n).headD ⟨[], root⟩

/-- The node of `f` has the longest path that the path of `n` properly ends with, and `f` releases
the rest of that path. -/
structure IsFallback (t : Trie κ) (n : Nat) (f : Fallback) : Prop where
  lt_size : f.node < t.size
  /-- The fallback lies nearer to the root. -/
  length_lt : (t.path f.node).length < (t.path n).length
  suffix : t.path f.node <:+ t.path n
  /-- No other path that `n` properly ends with is longer. -/
  length_le : ∀ q, t.IsPath q → q <:+ t.path n → q.length < (t.path n).length →
    q.length ≤ (t.path f.node).length
  released_append : f.released ++ t.path f.node = t.path n
  released_ne_nil : f.released ≠ []

section WellFormed

variable (h : t.WellFormed)
include h

theorem chain_root :
  (ofTrie t).chain root = []
  := (linked_ofTrie h h.root_lt_size).unique h IsChain.root

theorem fallback_root :
  (ofTrie t).fallback root = ⟨[], root⟩
  := by
  rw [fallback, chain_root h]
  rfl

variable {n : Nat} (hn : n < t.size) (hroot : n ≠ root)
include hn hroot

theorem chain_cases :
  ∃ f, (ofTrie t).fallback n = f ∧ (ofTrie t).chain n = f :: (ofTrie t).chain f.node
    ∧ t.IsLongestSuffix (t.path n).tail f.node ∧ f.released ++ t.path f.node = t.path n
  := by
  have hchain : IsChain t n ((ofTrie t).chain n) := linked_ofTrie h hn
  rw [fallback]
  generalize (ofTrie t).chain n = fs at hchain ⊢
  cases hchain with
  | root => exact absurd rfl hroot
  | @step _ m released fs _ _ hm hreleased hfs =>
    obtain rfl := hfs.unique h (linked_ofTrie h hm.lt_size)
    exact ⟨_, rfl, rfl, hm, hreleased⟩

/-- The chain of a node goes on with that of its fallback. -/
theorem chain_eq_cons :
  (ofTrie t).chain n
    = (ofTrie t).fallback n :: (ofTrie t).chain ((ofTrie t).fallback n).node
  := by
  obtain ⟨f, rfl, hchain, -⟩ := chain_cases h hn hroot
  apply hchain

/-- Every node but the root falls back to the longest path that its own properly ends with. -/
theorem isFallback_fallback :
  IsFallback t n ((ofTrie t).fallback n)
  := by
  obtain ⟨f, rfl, -, hm, hreleased⟩ := chain_cases h hn hroot
  have hlength := hm.path_suffix.length_le
  have hpos := List.length_pos_of_ne_nil (mt (h.path_eq_nil_iff hn).mp hroot)
  rw [List.length_tail] at hlength
  have hlt : (t.path ((ofTrie t).fallback n).node).length < (t.path n).length := by omega
  refine ⟨hm.lt_size, hlt, hm.path_suffix.trans (List.tail_suffix _), ?_, hreleased, ?_⟩
  · intro q hq hsuffix hq_lt
    obtain ⟨a, w, hpath⟩ := List.exists_cons_of_length_pos hpos
    rw [hpath] at hm hsuffix hq_lt
    rcases List.suffix_cons_iff.mp hsuffix with rfl | hsuffix
    · omega
    · apply (hm.suffix_path q hq hsuffix).length_le
  · intro hnil
    rw [hnil, List.nil_append] at hreleased
    rw [hreleased] at hlt
    omega

/-- The fallback is known by its path. -/
theorem fallback_eq {m : Nat} (hm : t.IsLongestSuffix (t.path n).tail m) :
  (ofTrie t).fallback n
    = ⟨(t.path n).take ((t.path n).length - (t.path m).length), m⟩
  := by
  obtain ⟨f, hf, -, hm', hreleased⟩ := chain_cases h hn hroot
  obtain rfl := hm'.unique h hm
  rw [hf]
  rw [← hreleased]
  simp

end WellFormed

end Links

end TemplateLexer
