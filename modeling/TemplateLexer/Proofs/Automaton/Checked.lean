import TemplateLexer.Proofs.Matcher.Reading

/-!
# Checked automata

The functions of `Checked` do what those of tries, links and matchers do, but look before every
step whether the node that they use exists, and whether a length is subtracted from one that is
not shorter; where this is not so they `Panic`.  In a well-formed trie they never do, and so give
the same as the functions without checks.
-/

namespace TemplateLexer

variable {κ : Type}

open Trie

/-- What stops a call. -/
inductive Panic where
  /-- There is no node with the number `n`. -/
  | index (n : Nat)
  /-- A length is subtracted from a shorter one. -/
  | underflow
  deriving DecidableEq, Repr

namespace Checked

/-! ### Calls with checks -/

/-- The node with the number `n`. -/
def node (t : Trie κ) (n : Nat) : Except Panic (Node κ) :=
  match t.nodes[n]? with
  | some p => .ok p
  | none => .error (.index n)

/-- The chain of the node `n`. -/
def chain (links : Links) (n : Nat) : Except Panic (List Fallback) :=
  match links[n]? with
  | some fs => .ok fs
  | none => .error (.index n)

/-- The difference of two numbers. -/
def sub (a b : Nat) : Except Panic Nat :=
  if a < b then .error .underflow else .ok (a - b)

/-- The characters that lead from the root to `n`. -/
def path (t : Trie κ) (n : Nat) : Except Panic (List Char) := do
  return (← node t n).path

/-- The child of `n` along `c`, if it has one. -/
def child? (t : Trie κ) (n : Nat) (c : Char) : Except Panic (Option Nat) := do
  return (← node t n).children.lookup c

/-- The node reached from `n` along `cs`, if there is one. -/
def walk? (t : Trie κ) (n : Nat) : List Char → Except Panic (Option Nat)
  | [] => .ok (some n)
  | c :: cs => do
    match ← child? t n c with
    | some m => walk? t m cs
    | none => return none

/-- The tag with which the pattern `cs` is registered, if it is. -/
def lookup? (t : Trie κ) (cs : List Char) : Except Panic (Option κ) := do
  match ← walk? t root cs with
  | some n => return (← node t n).tag
  | none => return none

/-- The trie in which `cs` leads from `n` to a node, and the number of that node. -/
def grow (t : Trie κ) (n : Nat) : List Char → Except Panic (Trie κ × Nat)
  | [] => .ok (t, n)
  | c :: cs => do
    match ← child? t n c with
    | some m => grow t m cs
    | none => grow (t.addChild n c) t.size cs

/-- The trie with the pattern `cs` added under the tag `k`, unless it is refused. -/
def register? (t : Trie κ) (cs : List Char) (k : κ) : Except Panic (Option (Trie κ)) := do
  if cs.isEmpty || (← lookup? t cs).isSome then return none
  let (t, n) ← grow t root cs
  let _ ← node t n
  return some (t.setTag n k)

/-- The child along `c` of the first node of a chain that has one; the root if none has. -/
def resolve (t : Trie κ) (c : Char) : List Fallback → Except Panic Nat
  | [] => .ok root
  | f :: fs => do
    match ← child? t f.node c with
    | some m => return m
    | none => resolve t c fs

/-- The chain of the node `child`, one character `c` below a node with the chain `fs`. -/
def extend (t : Trie κ) (links : Links) (fs : List Fallback) (c : Char) (child : Nat) :
    Except Panic (List Fallback) := do
  let m ← resolve t c fs
  let path ← path t child
  let released ← sub path.length (← Checked.path t m).length
  return ⟨path.take released, m⟩ :: (← chain links m)

/-- The links with the chain of `p.2` added, a child along `p.1` of a node with the chain `fs`. -/
def linkChild (t : Trie κ) (fs : List Fallback) (links : Links) (p : Char × Nat) :
    Except Panic Links := do
  let fs ← extend t links fs p.1 p.2
  let _ ← chain links p.2
  return links.setIfInBounds p.2 fs

/-- The links with the chains of all children of `n` added. -/
def linkChildren (t : Trie κ) (links : Links) (n : Nat) : Except Panic Links := do
  let fs ← chain links n
  (← node t n).children.foldlM (linkChild t fs) links

/-- The children of `n`. -/
def children (t : Trie κ) (n : Nat) : Except Panic (List Nat) := do
  return (← node t n).children.map (·.2)

/-- The links with the chains of all nodes below those of `level` added. -/
def linkBelow (t : Trie κ) : Nat → List Nat → Links → Except Panic Links
  | 0, _, links => .ok links
  | depth + 1, level, links => do
    let links ← level.foldlM (linkChildren t) links
    linkBelow t depth (← level.mapM (children t)).flatten links

/-- The links of a trie. -/
def ofTrie (t : Trie κ) : Except Panic Links :=
  linkBelow t t.size [root] (Array.replicate t.size [])

/-- The step along `c` from the first node of a chain that allows it, with the characters
released on the way. -/
def climb (t : Trie κ) (c : Char) : List Fallback → Except Panic (Nat × List Char)
  | [] => .ok (root, [c])
  | f :: fs => do
    match ← child? t f.node c with
    | some m => return (m, f.released)
    | none => return (← climb t c fs).map id (f.released ++ ·)

/-- The node after reading `c` at the node `n`, and the characters released. -/
def move (m : Matcher κ) (n : Nat) (c : Char) : Except Panic (Nat × List Char) := do
  match ← child? m.trie n c with
  | some child => return (child, [])
  | none => climb m.trie c (← chain m.links n)

/-- The characters that a fallback releases. -/
def released (t : Trie κ) (f : Fallback) : Except Panic (List Char) := do
  let _ ← node t f.node
  return f.released

/-- The characters that the partial match at `n` holds back. -/
def held (m : Matcher κ) (n : Nat) : Except Panic (List Char) := do
  return (← (← chain m.links n).mapM (released m.trie)).flatten

/-! ### Looking up and registering -/

@[simp]
theorem ok_bind {ε α β : Type} (a : α) (f : α → Except ε β) :
  (Except.ok a >>= f) = f a
  := rfl

@[simp]
theorem pure_eq_ok {ε α : Type} (a : α) :
  (pure a : Except ε α) = .ok a
  := rfl

variable {t : Trie κ} {n : Nat}

theorem node_eq_ok (hn : n < t.size) :
  node t n = .ok (t.node n)
  := by
  rw [node, Trie.node, Array.getD_eq_getD_getElem?, Array.getElem?_eq_getElem hn]
  rfl

theorem path_eq_ok (hn : n < t.size) :
  path t n = .ok (t.path n)
  := by
  rw [path, node_eq_ok hn]
  rfl

theorem child?_eq_ok (hn : n < t.size) (c : Char) :
  child? t n c = .ok (t.child? n c)
  := by
  rw [child?, node_eq_ok hn]
  rfl

theorem walk?_eq_ok (h : t.WellFormed) (hn : n < t.size) (cs : List Char) :
  walk? t n cs = .ok (t.walk? n cs)
  := by
  induction cs generalizing n with
  | nil => rfl
  | cons c cs ih =>
    rw [walk?, Trie.walk?, child?_eq_ok hn, ok_bind]
    cases hchild : t.child? n c with
    | none => rfl
    | some m => apply ih ((h.child?_eq_some_iff hn).mp hchild).1

theorem lookup?_eq_ok (h : t.WellFormed) (cs : List Char) :
  lookup? t cs = .ok (t.lookup? cs)
  := by
  rw [lookup?, walk?_eq_ok h h.root_lt_size, ok_bind, Trie.lookup?, find?]
  cases hwalk : t.walk? root cs with
  | none => rfl
  | some n =>
    dsimp only
    rw [node_eq_ok ((h.walk?_eq_some_iff h.root_lt_size).mp hwalk).1]
    rfl

theorem grow_eq_ok (h : t.WellFormed) (hn : n < t.size) (cs : List Char) :
  grow t n cs = .ok (t.grow n cs)
  := by
  fun_induction t.grow n cs with
  | case1 t n => rfl
  | case2 t n c cs m hchild ih =>
    rw [grow, child?_eq_ok hn, ok_bind, hchild]
    apply ih h ((h.child?_eq_some_iff hn).mp hchild).1
  | case3 t n c cs hchild ih =>
    rw [grow, child?_eq_ok hn, ok_bind, hchild]
    apply ih (h.addChild hn hchild) (by simp)

/-- Registration stays in the trie. -/
theorem register?_eq_ok (h : t.WellFormed) (cs : List Char) (k : κ) :
  register? t cs k = .ok (t.register? cs k)
  := by
  have hgrow := (h.grow h.root_lt_size cs).2.1
  rw [register?, Trie.register?, lookup?_eq_ok h, ok_bind]
  split_ifs with hrefused
  · rfl
  · rw [grow_eq_ok h h.root_lt_size, ok_bind]
    dsimp only
    rw [node_eq_ok hgrow]
    rfl

/-! ### Linking -/

/-- Where every step succeeds, and keeps what the next one needs, so does a loop of steps. -/
theorem foldlM_eq_ok {ε α β : Type} {f : β → α → Except ε β} {g : β → α → β} {I : β → Prop}
    {l : List α} (h : ∀ b, I b → ∀ a ∈ l, f b a = .ok (g b a) ∧ I (g b a)) {b : β} (hb : I b) :
  l.foldlM f b = .ok (l.foldl g b)
  := by
  induction l generalizing b with
  | nil => rfl
  | cons a l ih =>
    obtain ⟨hstep, hnext⟩ := h b hb a List.mem_cons_self
    rw [List.foldlM_cons, hstep, ok_bind, List.foldl_cons]
    apply ih (fun b hb a ha => h b hb a (List.mem_cons_of_mem _ ha)) hnext

theorem mapM_eq_ok {α β : Type} {f : α → Except Panic β} {g : α → β} {l : List α}
    (h : ∀ a ∈ l, f a = .ok (g a)) :
  l.mapM f = .ok (l.map g)
  := by
  induction l with
  | nil => rfl
  | cons a l ih =>
    rw [List.mapM_cons, h a List.mem_cons_self, ok_bind,
      ih (fun a ha => h a (List.mem_cons_of_mem _ ha))]
    rfl

theorem chain_eq_ok {links : Links} (hn : n < links.size) :
  chain links n = .ok (links.chain n)
  := by
  rw [chain, Links.chain, Array.getD_eq_getD_getElem?, Array.getElem?_eq_getElem hn]
  rfl

theorem sub_eq_ok {a b : Nat} (h : b ≤ a) :
  sub a b = .ok (a - b)
  := if_neg (Nat.not_lt.mpr h)

theorem resolve_eq_ok {fs : List Fallback} (hfs : ∀ f ∈ fs, f.node < t.size) (c : Char) :
  resolve t c fs = .ok (Links.resolve t c fs)
  := by
  induction fs with
  | nil => rfl
  | cons f fs ih =>
    rw [resolve, Links.resolve, child?_eq_ok (hfs f List.mem_cons_self), ok_bind]
    cases t.child? f.node c with
    | some m => rfl
    | none => apply ih (fun f hf => hfs f (List.mem_cons_of_mem _ hf))

/-- The chain of a child is found in the trie, and its path is no shorter than that of its
fallback. -/
theorem extend_eq_ok (h : t.WellFormed) {links : Links} (hsize : links.size = t.size)
    {fs : List Fallback} (hfs : IsChain t n fs) {p : Char × Nat}
    (hp : p ∈ (t.node n).children) :
  extend t links fs p.1 p.2 = .ok (Links.extend t links fs p.1 p.2)
  := by
  obtain ⟨hchild, hpath⟩ := h.of_mem_children hp
  have hm := hfs.isLongestSuffix_tail h p.1
  have hlength := (hm.path_suffix.trans (List.tail_suffix _)).length_le
  rw [← hpath] at hlength
  rw [extend, resolve_eq_ok hfs.node_lt_size, ok_bind, path_eq_ok hchild, ok_bind,
    path_eq_ok hm.lt_size, ok_bind, sub_eq_ok hlength, ok_bind, chain_eq_ok (hsize ▸ hm.lt_size)]
  rfl

theorem linkChildren_eq_ok (h : t.WellFormed) {links : Links} (hsize : links.size = t.size)
    (hn : n < t.size) (hfs : IsChain t n (links.chain n)) :
  linkChildren t links n = .ok (Links.linkChildren t links n)
  := by
  rw [linkChildren, chain_eq_ok (hsize ▸ hn), ok_bind, node_eq_ok hn, ok_bind]
  apply foldlM_eq_ok (I := fun links => links.size = t.size) _ hsize
  intro links' hsize' p hp
  have hchild := (h.of_mem_children hp).1
  rw [linkChild, extend_eq_ok h hsize' hfs hp, ok_bind, chain_eq_ok (hsize' ▸ hchild)]
  exact ⟨rfl, by rw [Array.size_setIfInBounds, hsize']⟩

theorem linkBelow_eq_ok (h : t.WellFormed) {links : Links} {level : List Nat} {d : Nat}
    (depth : Nat) (hlevel : ∀ n, n ∈ level ↔ n < t.size ∧ (t.path n).length = d)
    (hlinks : Links.LinkedTo t links d) :
  linkBelow t depth level links = .ok (Links.linkBelow t depth level links)
  := by
  induction depth generalizing level d links with
  | zero => rfl
  | succ depth ih =>
    have hvisit : level.foldlM (linkChildren t) links
        = .ok (level.foldl (Links.linkChildren t) links) := by
      apply foldlM_eq_ok (I := fun links => Links.LinkedTo t links d) _ hlinks
      intro links' hlinks' n hn
      obtain ⟨hlt, rfl⟩ := (hlevel n).mp hn
      have hfs := hlinks'.2 n hlt (Nat.le_refl _)
      obtain ⟨hkeeps, -⟩ := Links.foldl_linkChild_spec h hfs (fun _ hp => hp) hlinks'
      exact ⟨linkChildren_eq_ok h hlinks'.1 hlt hfs, hlinks'.of_keeps hkeeps⟩
    have hbelow : level.mapM (children t)
        = .ok (level.map fun n => (t.node n).children.map (·.2)) := by
      apply mapM_eq_ok
      intro n hn
      rw [children, node_eq_ok ((hlevel n).mp hn).1]
      rfl
    rw [linkBelow, hvisit, ok_bind, hbelow, ok_bind, ← List.flatMap_def, Links.linkBelow]
    apply ih (Links.mem_flatMap_children_iff h hlevel) (hlinks.foldl_linkChildren h hlevel)

/-- Building stays in the trie. -/
theorem ofTrie_eq_ok (h : t.WellFormed) :
  ofTrie t = .ok (Links.ofTrie t)
  := linkBelow_eq_ok h t.size (Links.mem_root_iff h) (Links.linkedTo_replicate h)

/-! ### Matching -/

theorem climb_eq_ok {fs : List Fallback} (hfs : ∀ f ∈ fs, f.node < t.size) (c : Char) :
  climb t c fs = .ok (Matcher.climb t c fs)
  := by
  induction fs with
  | nil => rfl
  | cons f fs ih =>
    rw [climb, Matcher.climb, child?_eq_ok (hfs f List.mem_cons_self), ok_bind]
    cases t.child? f.node c with
    | some m => rfl
    | none =>
      dsimp only
      rw [ih (fun f hf => hfs f (List.mem_cons_of_mem _ hf))]
      rfl

section Matcher

variable {m : Matcher κ} (h : m.trie.WellFormed) (hn : n < m.trie.size)
include h hn

theorem chain_links_eq_ok :
  chain m.links n = .ok (m.links.chain n)
  := by
  apply chain_eq_ok
  rw [m.links_eq, Links.size_ofTrie h]
  exact hn

/-- Matching stays in the trie. -/
theorem move_eq_ok (c : Char) :
  move m n c = .ok (m.move n c)
  := by
  rw [move, Matcher.move, child?_eq_ok hn, ok_bind]
  cases m.trie.child? n c with
  | some child => rfl
  | none =>
    dsimp only
    rw [chain_links_eq_ok h hn, ok_bind]
    apply climb_eq_ok (Matcher.isChain_chain h hn).node_lt_size

/-- Releasing what is held back stays in the trie. -/
theorem held_eq_ok :
  held m n = .ok (m.held n)
  := by
  have hparts : (m.links.chain n).mapM (released m.trie)
      = .ok ((m.links.chain n).map (·.released)) := by
    apply mapM_eq_ok
    intro f hf
    rw [released, node_eq_ok ((Matcher.isChain_chain h hn).node_lt_size f hf)]
    rfl
  rw [held, chain_links_eq_ok h hn, ok_bind, hparts, ok_bind, Matcher.held, List.flatMap_def]
  rfl

end Matcher

end Checked

end TemplateLexer
