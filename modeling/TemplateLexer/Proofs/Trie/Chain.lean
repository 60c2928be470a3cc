import TemplateLexer.Trie.Links
import TemplateLexer.Proofs.Trie.LongestSuffix

/-!
# Chains of fallbacks

`IsChain t n fs` says that `fs` are the fallbacks of the node `n` as they should be: each
leads to the longest path that the path before it properly ends with, and releases what
that path has in front.  Along such a chain the longest path after one more character is
found (`IsChain.isLongestSuffix_resolve`), and with it the chain of a child
(`IsChain.extend`).
-/

namespace TemplateLexer

variable {κ : Type}

open Trie

/-- The fallbacks of `n`, the longest first. -/
inductive IsChain (t : Trie κ) : Nat → List Fallback → Prop
  | root : IsChain t Trie.root []
  | step {n m : Nat} {released : List Char} {fs : List Fallback} (hn : n < t.size)
      (hroot : n ≠ Trie.root) (hm : t.IsLongestSuffix (t.path n).tail m)
      (hreleased : released ++ t.path m = t.path n) (hfs : IsChain t m fs) :
      IsChain t n (⟨released, m⟩ :: fs)

namespace IsChain

variable {t : Trie κ} {n : Nat} {fs : List Fallback}

theorem lt_size (h : t.WellFormed) (hfs : IsChain t n fs) :
  n < t.size
  := by
  cases hfs with
  | root => apply h.root_lt_size
  | step hn => apply hn

theorem node_lt_size (hfs : IsChain t n fs) :
  ∀ f ∈ fs, f.node < t.size
  := by
  induction hfs with
  | root => simp
  | step hn hroot hm hreleased hfs ih => exact List.forall_mem_cons.mpr ⟨hm.lt_size, ih⟩

/-- The releases of a chain spell the path that they give up. -/
theorem flatMap_released (h : t.WellFormed) (hfs : IsChain t n fs) :
  fs.flatMap (·.released) = t.path n
  := by
  induction hfs with
  | root => simp [h.path_root]
  | step hn hroot hm hreleased hfs ih => rw [List.flatMap_cons, ih, hreleased]

/-- The longest path after one more character `c` is found along the chain: it is the child
along `c` of the first node that has one. -/
theorem isLongestSuffix_resolve (h : t.WellFormed) (hfs : IsChain t n fs) (c : Char) :
  t.IsLongestSuffix (t.path n ++ [c]) ((t.child? n c).getD (Links.resolve t c fs))
  := by
  induction hfs with
  | root =>
    cases hchild : t.child? Trie.root c with
    | some m => apply IsLongestSuffix.of_child? h h.root_lt_size hchild
    | none =>
      have hnone := (h.child?_eq_none_iff h.root_lt_size).mp hchild
      rw [h.path_root] at hnone ⊢
      apply (IsLongestSuffix.nil h).cons hnone
  | @step n m released fs hn hroot hm hreleased hfs ih =>
    cases hchild : t.child? n c with
    | some m => apply IsLongestSuffix.of_child? h hn hchild
    | none =>
      have hnone := (h.child?_eq_none_iff hn).mp hchild
      have htail := hm.append h ih
      obtain ⟨a, w, hpath⟩ := List.exists_cons_of_ne_nil (mt (h.path_eq_nil_iff hn).mp hroot)
      rw [hpath] at hnone htail ⊢
      apply htail.cons hnone

/-- The longest path that the path of a child properly ends with is found along the chain
of its parent. -/
theorem isLongestSuffix_tail (h : t.WellFormed) (hfs : IsChain t n fs) (c : Char) :
  t.IsLongestSuffix (t.path n ++ [c]).tail (Links.resolve t c fs)
  := by
  cases hfs with
  | root =>
    rw [h.path_root]
    apply IsLongestSuffix.nil h
  | @step _ m released fs hn hroot hm hreleased hfs =>
    rw [List.tail_append_of_ne_nil (mt (h.path_eq_nil_iff hn).mp hroot)]
    apply hm.append h (hfs.isLongestSuffix_resolve h c)

/-- The chain that the links are given for a child of `n` is the right one, provided that
they hold the chains of all nodes not below `n`. -/
theorem extend (h : t.WellFormed) {links : Links} {c : Char} {child : Nat}
    (hfs : IsChain t n fs) (hchild : (c, child) ∈ (t.node n).children)
    (hlinks : ∀ m < t.size, (t.path m).length ≤ (t.path n).length →
      IsChain t m (links.chain m)) :
  IsChain t child (Links.extend t links fs c child)
  := by
  obtain ⟨hlt, hpath⟩ := h.of_mem_children hchild
  have hm := hfs.isLongestSuffix_tail h c
  rw [← hpath] at hm
  have hsuffix := hm.path_suffix.trans (List.tail_suffix _)
  apply IsChain.step hlt _ hm (List.suffix_iff_eq_append.mp hsuffix)
  · apply hlinks _ hm.lt_size
    have := hm.path_suffix.length_le
    simp only [hpath, List.length_tail, List.length_append, List.length_singleton] at this
    omega
  · apply h.ne_root_of_mem_children hchild

end IsChain

end TemplateLexer
