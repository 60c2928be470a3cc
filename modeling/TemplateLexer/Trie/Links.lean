import TemplateLexer.Trie

/-!
# Fallback links

A node of a trie stands for a partial match: the characters of its path.  When the match
cannot go on, a shorter one may: the node whose path is a proper suffix of the characters
matched.  A `Fallback` is such a node together with the characters given up for it, and
`Links` holds, for every node, the chain of its fallbacks down to the root, the longest
first.

`Links.ofTrie` computes the chains level by level: the fallbacks of a child along `c` are
found along the chain of its parent, and the node found has a chain already because it
is closer to the root.
-/

namespace TemplateLexer

variable {κ : Type}

/-- A shorter partial match to go on from. -/
structure Fallback where
  /-- The characters given up, counted from the start of the match. -/
  released : List Char
  /-- The node of the shorter match. -/
  node : Nat
  deriving DecidableEq, Repr

/-- The chain of fallbacks of every node. -/
abbrev Links := Array (List Fallback)

namespace Links

/-- The fallbacks of the node `n`, down to the root. -/
def chain (links : Links) (n : Nat) : List Fallback :=
  links.getD n []

/-- The child along `c` of the first node of a chain that has one; the root if none has. -/
def resolve (t : Trie κ) (c : Char) : List Fallback → Nat
  | [] => Trie.root
  | f :: fs => (t.child? f.node c).getD (resolve t c fs)

/-- The chain of the node `child`, which lies one character `c` below a node with the
chain `fs`. -/
def extend (t : Trie κ) (links : Links) (fs : List Fallback) (c : Char) (child : Nat) :
    List Fallback :=
  let m := resolve t c fs
  let path := t.path child
  ⟨path.take (path.length - (t.path m).length), m⟩ :: links.chain m

/-- The links with the chains of all children of `n` added. -/
def linkChildren (t : Trie κ) (links : Links) (n : Nat) : Links :=
  let fs := links.chain n
  (t.node n).children.foldl
    (fun links (c, child) => links.setIfInBounds child (extend t links fs c child)) links

/-- The links with the chains of all nodes below those of `level` added, at most `depth`
levels deep. -/
def linkBelow (t : Trie κ) : Nat → List Nat → Links → Links
  | 0, _, links => links
  | depth + 1, level, links =>
    linkBelow t depth (level.flatMap fun n => (t.node n).children.map (·.2))
      (level.foldl (linkChildren t) links)

/-- The links of a trie.  There are fewer levels below the root than there are nodes. -/
def ofTrie (t : Trie κ) : Links :=
  linkBelow t t.size [Trie.root] (Array.replicate t.size [])

end Links

end TemplateLexer
