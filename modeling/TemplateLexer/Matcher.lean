import TemplateLexer.Trie.Links

/-!
# Matching patterns

A `Matcher` is a trie with its fallback links.  It reads characters one at a time and
keeps the node of the longest match in progress: `move` answers with the next node and
with the characters that can no longer belong to a pattern, and `held` gives those
still held back.
-/

namespace TemplateLexer

variable {κ : Type}

/-- A trie with its fallback links. -/
structure Matcher (κ : Type) where
  /-- The patterns. -/
  trie : Trie κ
  /-- The fallbacks of all nodes, computed once. -/
  links : Links
  /-- The links belong to the trie. -/
  links_eq : links = Links.ofTrie trie

namespace Matcher

/-- The matcher of a trie. -/
def ofTrie (t : Trie κ) : Matcher κ :=
  ⟨t, Links.ofTrie t, rfl⟩

/-- The step along `c` from the first node of a chain that allows it, with the
characters released on the way; at the end of the chain `c` itself is released. -/
def climb (t : Trie κ) (c : Char) : List Fallback → Nat × List Char
  | [] => (Trie.root, [c])
  | f :: fs =>
    match t.child? f.node c with
    | some m => (m, f.released)
    | none => (climb t c fs).map id (f.released ++ ·)

/-- The node after reading `c` at the node `n`, and the characters released. -/
def move (m : Matcher κ) (n : Nat) (c : Char) : Nat × List Char :=
  match m.trie.child? n c with
  | some child => (child, [])
  | none => climb m.trie c (m.links.chain n)

/-- The characters that the partial match at `n` holds back: all that its fallbacks would
release. -/
def held (m : Matcher κ) (n : Nat) : List Char :=
  (m.links.chain n).flatMap (·.released)

/-- The nodes after each of the characters `cs`, read from `n` on, each with the characters
released by that step. -/
def moves (m : Matcher κ) (n : Nat) : List Char → List (Nat × List Char)
  | [] => []
  | c :: cs =>
    let step := m.move n c
    step :: m.moves step.1 cs

end Matcher

end TemplateLexer
