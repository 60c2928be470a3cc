import TemplateLexer.Proofs.Trie.WellFormed

/-!
# The longest path that a word ends with

`IsLongestSuffix t w n` says that `n` is the node with the longest path among those that the
word `w` ends with.  Only such a node has to be remembered while a word is read: by
`IsLongestSuffix.append`, the node for `w` followed by `c` is the node for the path
remembered followed by `c`.
-/

namespace TemplateLexer.Trie

variable {κ : Type}

/-- `n` is the node with the longest path that `w` ends with. -/
structure IsLongestSuffix (t : Trie κ) (w : List Char) (n : Nat) : Prop where
  lt_size : n < t.size
  path_suffix : t.path n <:+ w
  suffix_path : ∀ q, t.IsPath q → q <:+ w → q <:+ t.path n

namespace IsLongestSuffix

variable {t : Trie κ} {w : List Char} {n : Nat}

/-- A path ends with nothing longer than itself. -/
theorem path {n : Nat} (hn : n < t.size) :
  t.IsLongestSuffix (t.path n) n
  := ⟨hn, List.suffix_rfl, fun _ _ hq => hq⟩

/-- A child's path is the whole of its parent's and one more character. -/
theorem of_child? {m : Nat} {c : Char} (h : t.WellFormed) (hn : n < t.size)
    (hchild : t.child? n c = some m) :
  t.IsLongestSuffix (t.path n ++ [c]) m
  := by
  obtain ⟨hm, hpath⟩ := (h.child?_eq_some_iff hn).mp hchild
  rw [← hpath]
  apply path hm

/-- The empty word ends with the path of the root only. -/
theorem nil (h : t.WellFormed) :
  t.IsLongestSuffix [] root
  := by
  have := path h.root_lt_size
  rwa [h.path_root] at this

/-- A longer word that is no path ends with the same paths. -/
theorem cons {a : Char} (hn : t.IsLongestSuffix w n) (ha : ¬ t.IsPath (a :: w)) :
  t.IsLongestSuffix (a :: w) n
  := by
  constructor
  · apply hn.lt_size
  · apply hn.path_suffix.trans (List.suffix_cons a w)
  · intro q hq hsuffix
    rcases List.suffix_cons_iff.mp hsuffix with rfl | hsuffix
    · exact absurd hq ha
    · apply hn.suffix_path q hq hsuffix

/-- Reading on from the longest path that `w` ends with is reading on from `w`: a path that
ends after the next character has begun within it. -/
theorem append {m : Nat} {c : Char} (h : t.WellFormed) (hn : t.IsLongestSuffix w n)
    (hm : t.IsLongestSuffix (t.path n ++ [c]) m) :
  t.IsLongestSuffix (w ++ [c]) m
  := by
  constructor
  · apply hm.lt_size
  · apply hm.path_suffix.trans
    apply List.suffix_append_self_iff.mpr hn.path_suffix
  · intro q hq hsuffix
    rcases List.suffix_concat_iff.mp hsuffix with rfl | ⟨p, rfl, hp⟩
    · apply List.nil_suffix
    · have hpath : t.IsPath p := h.isPath_of_prefix hq (List.prefix_append p [c])
      apply hm.suffix_path _ hq
      apply List.suffix_append_self_iff.mpr (hn.suffix_path p hpath hp)

end IsLongestSuffix

end TemplateLexer.Trie
