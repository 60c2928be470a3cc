/-!
# Tries of patterns

A `Trie κ` holds the registered patterns as paths from the root of a tree, each with a tag
of type `κ`.  The nodes are numbered in the order in which they were created, the root
being `Trie.root`; the `path` of a node spells the characters that lead to it from the
root.  `register?` adds a pattern and refuses one that is empty or already has a tag.
-/

namespace TemplateLexer

variable {κ : Type}

/-- A node of a trie. -/
structure Node (κ : Type) where
  /-- The characters that lead from the root to the node. -/
  path : List Char
  /-- The tag of the pattern that ends at the node, if one does. -/
  tag : Option κ
  /-- The nodes one character further, in the order of their creation. -/
  children : List (Char × Nat)
  deriving DecidableEq, Repr

namespace Node

/-- The node that `path` leads to when it is created. -/
def leaf (path : List Char) : Node κ :=
  ⟨path, none, []⟩

instance : Inhabited (Node κ) := ⟨leaf []⟩

end Node

/-- A tree of patterns with tags in `κ`. -/
structure Trie (κ : Type) where
  nodes : Array (Node κ)
  deriving DecidableEq, Repr

namespace Trie

/-- The number of the root. -/
def root : Nat := 0

/-- The trie without patterns. -/
def empty : Trie κ :=
  ⟨#[Node.leaf []]⟩

/-- The number of nodes, the root included. -/
def size (t : Trie κ) : Nat :=
  t.nodes.size

/-- Whether the root is the only node. -/
def isEmpty (t : Trie κ) : Bool :=
  t.size = 1

/-- The node with the number `n`. -/
def node (t : Trie κ) (n : Nat) : Node κ :=
  t.nodes.getD n default

/-- The characters that lead from the root to `n`. -/
def path (t : Trie κ) (n : Nat) : List Char :=
  (t.node n).path

/-- The tag of the pattern that ends at `n`, if one does. -/
def tag? (t : Trie κ) (n : Nat) : Option κ :=
  (t.node n).tag

/-- The child of `n` along `c`, if it has one. -/
def child? (t : Trie κ) (n : Nat) (c : Char) : Option Nat :=
  (t.node n).children.lookup c

/-- The node reached from `n` along `cs`, if there is one. -/
def walk? (t : Trie κ) (n : Nat) : List Char → Option Nat
  | [] => some n
  | c :: cs => (t.child? n c).bind (t.walk? · cs)

/-- The node with the path `cs`, if there is one. -/
def find? (t : Trie κ) (cs : List Char) : Option Nat :=
  t.walk? root cs

/-- The tag with which the pattern `cs` is registered, if it is. -/
def lookup? (t : Trie κ) (cs : List Char) : Option κ :=
  (t.find? cs).bind t.tag?

/-- The number of patterns. -/
def patternCount (t : Trie κ) : Nat :=
  t.nodes.countP (·.tag.isSome)

/-! ### Registration -/

/-- The trie in which a new node is the child of `n` along `c`. -/
def addChild (t : Trie κ) (n : Nat) (c : Char) : Trie κ :=
  ⟨(t.nodes.modify n fun p => { p with children := p.children ++ [(c, t.size)] }).push
    (Node.leaf (t.path n ++ [c]))⟩

/-- The trie in which `cs` leads from `n` to a node, created where it was missing, and
the number of that node. -/
def grow (t : Trie κ) (n : Nat) : List Char → Trie κ × Nat
  | [] => (t, n)
  | c :: cs =>
    match t.child? n c with
    | some m => t.grow m cs
    | none => (t.addChild n c).grow t.size cs

/-- The trie in which the node `n` has the tag `k`. -/
def setTag (t : Trie κ) (n : Nat) (k : κ) : Trie κ :=
  ⟨t.nodes.modify n fun p => { p with tag := some k }⟩

/-- The trie with the pattern `cs` added under the tag `k`; none if `cs` is empty or
already has a tag, whichever it is. -/
def register? (t : Trie κ) (cs : List Char) (k : κ) : Option (Trie κ) :=
  if cs.isEmpty || (t.lookup? cs).isSome then none
  else
    let (t, n) := t.grow root cs
    some (t.setTag n k)

end Trie

end TemplateLexer
