import TemplateLexer.Proofs.Automaton.Checked
import TemplateLexer.Proofs.Trie.Fallbacks

/-!
# Tables of fallbacks

`Links` holds the whole chain of every node.  A `FallbackTable` has one fallback for each node
instead, and a chain is walked by going from node to node until the root is reached.  Nothing in
a table says that it ever is: every loop here is given a number of rounds, and is `running` when
they are over.  Before every step it looks whether it may be made, as the functions of `Checked`
do.

In the table of the first fallbacks of all chains the loops end after as many rounds as there are
nodes, or earlier, with what the chains give (`resolve_eq_ok`, `move_eq_ok`, `flush_eq_ok`).
-/

namespace TemplateLexer

variable {κ : Type}

open Trie

/-- Why a call gives no result. -/
inductive Stop where
  /-- A loop goes on after the rounds given to it. -/
  | running
  /-- A step may not be made. -/
  | panic (p : Panic)
  deriving DecidableEq, Repr

/-- The fallback of every node. -/
abbrev FallbackTable := Array Fallback

/-- Where a node has no child along `c`, a matcher moves from its fallback on, and releases what
the fallback gives up. -/
theorem Matcher.move_of_child?_eq_none {m : Matcher κ} (h : m.trie.WellFormed) {n : Nat}
    (hn : n < m.trie.size) (hroot : n ≠ root) {c : Char} (hchild : m.trie.child? n c = none) :
  m.move n c
    = (m.move (m.links.fallback n).node c).map id ((m.links.fallback n).released ++ ·)
  := by
  rw [move, hchild, m.links_eq, Links.chain_eq_cons h hn hroot, move, ← m.links_eq]
  dsimp only
  rw [climb]
  cases m.trie.child? (m.links.fallback n).node c with
  | some child => simp
  | none => rfl

namespace FallbackTable

/-! ### Loops -/

/-- A call with checks, where a loop may go on for ever. -/
def checked {α : Type} : Except Panic α → Except Stop α
  | .ok a => .ok a
  | .error p => .error (.panic p)

/-- The fallback of the node `n`. -/
def entry (table : FallbackTable) (n : Nat) : Except Stop Fallback :=
  match table[n]? with
  | some f => .ok f
  | none => .error (.panic (.index n))

/-- The table with the fallback `f` of `n`. -/
def store (table : FallbackTable) (n : Nat) (f : Fallback) : Except Stop FallbackTable := do
  let _ ← entry table n
  return table.setIfInBounds n f

/-- The child along `c` of the first node that has one, from `n` on along the fallbacks; the root
if none has. -/
def resolve (t : Trie κ) (table : FallbackTable) (c : Char) : Nat → Nat → Except Stop Nat
  | 0, _ => .error .running
  | rounds + 1, n => do
    match ← checked (Checked.child? t n c) with
    | some m => return m
    | none =>
      if n = root then return root
      else resolve t table c rounds (← entry table n).node

/-- The node after reading `c` at the node `n`, and `literal` with the characters released. -/
def move (t : Trie κ) (table : FallbackTable) (c : Char) :
    Nat → Nat → List Char → Except Stop (Nat × List Char)
  | 0, _, _ => .error .running
  | rounds + 1, n, literal => do
    match ← checked (Checked.child? t n c) with
    | some m => return (m, literal)
    | none =>
      if n = root then return (root, literal ++ [c])
      else
        let f ← entry table n
        move t table c rounds f.node (literal ++ f.released)

/-- The characters `literal` with those held back at the node `n`. -/
def flush (table : FallbackTable) : Nat → Nat → List Char → Except Stop (List Char)
  | 0, _, _ => .error .running
  | rounds + 1, n, literal => do
    if n = root then return literal
    else
      let f ← entry table n
      flush table rounds f.node (literal ++ f.released)

/-- The table with the fallback of `p.2`, the child of `n` along `p.1`; it is looked for in
`limit` rounds. -/
def linkChild (t : Trie κ) (limit n : Nat) (table : FallbackTable) (p : Char × Nat) :
    Except Stop FallbackTable := do
  let m ← resolve t table p.1 limit (← entry table n).node
  let path ← checked (Checked.path t p.2)
  let released ← checked (Checked.sub path.length (← checked (Checked.path t m)).length)
  store table p.2 ⟨path.take released, m⟩

/-- The table with the fallbacks of all nodes below those of the queue, which is taken from the
front and grows at the end. -/
def linkQueue (t : Trie κ) (limit : Nat) :
    Nat → List Nat → FallbackTable → Except Stop FallbackTable
  | _, [], table => .ok table
  | 0, _ :: _, _ => .error .running
  | rounds + 1, n :: queue, table => do
    let children := (← checked (Checked.node t n)).children
    let table ← children.foldlM (linkChild t limit n) table
    linkQueue t limit rounds (queue ++ children.map (·.2)) table

/-- The table with the fallback of `n`, a child of the root. -/
def linkRootChild (t : Trie κ) (table : FallbackTable) (n : Nat) : Except Stop FallbackTable := do
  let path ← checked (Checked.path t n)
  store table n ⟨path, root⟩

/-- The table with the fallbacks of all nodes, where every loop has `rounds` rounds. -/
def build (t : Trie κ) (rounds : Nat) (table : FallbackTable) : Except Stop FallbackTable := do
  let table ← store table root ⟨[], root⟩
  let queue := (← checked (Checked.node t root)).children.map (·.2)
  let table ← queue.foldlM (linkRootChild t) table
  linkQueue t rounds rounds queue table

theorem checked_ok_bind {α β : Type} (a : α) (f : α → Except Stop β) :
  (checked (.ok a) >>= f) = f a
  := rfl

/-! ### Walking -/

variable {t : Trie κ} {table : FallbackTable}

/-- The first fallbacks of all chains. -/
def ofLinks (links : Links) : FallbackTable :=
  (links.toList.map (·.headD ⟨[], root⟩)).toArray

/-- The table has the fallbacks of all nodes that lie at most `d` characters deep. -/
structure AgreesTo (t : Trie κ) (table : FallbackTable) (d : Nat) : Prop where
  size_eq : table.size = t.size
  getElem?_eq : ∀ n < t.size, (t.path n).length ≤ d →
    table[n]? = some ((Links.ofTrie t).fallback n)

theorem entry_eq_ok {n : Nat} {f : Fallback} (h : table[n]? = some f) :
  entry table n = .ok f
  := by
  rw [entry, h]

theorem store_eq_ok {n : Nat} (hn : n < table.size) (f : Fallback) :
  store table n f = .ok (table.setIfInBounds n f)
  := by
  rw [store, entry_eq_ok (Array.getElem?_eq_getElem hn)]
  rfl

theorem AgreesTo.mono {d d' : Nat} (h : AgreesTo t table d) (hd : d' ≤ d) :
  AgreesTo t table d'
  := ⟨h.size_eq, fun n hn hlength => h.getElem?_eq n hn (Nat.le_trans hlength hd)⟩

theorem AgreesTo.entry_eq_ok {n : Nat} (h : AgreesTo t table (t.path n).length)
    (hn : n < t.size) :
  entry table n = .ok ((Links.ofTrie t).fallback n)
  := FallbackTable.entry_eq_ok (h.getElem?_eq n hn (Nat.le_refl _))

/-- From the node `n` the root is reached within the rounds given, one fallback in each. -/
inductive Walk (t : Trie κ) : Nat → Nat → Prop
  | root {rounds : Nat} : Walk t (rounds + 1) Trie.root
  | step {rounds n : Nat} (hn : n < t.size) (hroot : n ≠ Trie.root)
      (hwalk : Walk t rounds ((Links.ofTrie t).fallback n).node) : Walk t (rounds + 1) n

/-- Every fallback lies nearer to the root. -/
theorem walk_of_length_lt (h : t.WellFormed) {n rounds : Nat} (hn : n < t.size)
    (hrounds : (t.path n).length < rounds) :
  Walk t rounds n
  := by
  induction rounds generalizing n with
  | zero => omega
  | succ rounds ih =>
    by_cases hroot : n = root
    · rw [hroot]
      apply Walk.root
    · have hfallback := Links.isFallback_fallback h hn hroot
      have := hfallback.length_lt
      apply Walk.step hn hroot (ih hfallback.lt_size (by omega))

/-- As many rounds as there are nodes are enough. -/
theorem walk_of_size_le (h : t.WellFormed) {n rounds : Nat} (hn : n < t.size)
    (hrounds : t.size ≤ rounds) :
  Walk t rounds n
  := by
  have := h.length_path_le hn
  apply walk_of_length_lt h hn (by omega)

/-- The child along `c`, or what the chain of `n` gives, is found from node to node. -/
theorem resolve_eq_ok (h : t.WellFormed) {n rounds : Nat} (hwalk : Walk t rounds n)
    (hagrees : AgreesTo t table (t.path n).length) (c : Char) :
  resolve t table c rounds n
    = .ok ((t.child? n c).getD (Links.resolve t c ((Links.ofTrie t).chain n)))
  := by
  induction hwalk with
  | root =>
    rw [resolve, Checked.child?_eq_ok h.root_lt_size, checked_ok_bind, Links.chain_root h]
    cases t.child? root c with
    | some m => rfl
    | none => rfl
  | @step rounds n hn hroot hwalk ih =>
    have hlength := (Links.isFallback_fallback h hn hroot).length_lt
    rw [resolve, Checked.child?_eq_ok hn, checked_ok_bind]
    cases t.child? n c with
    | some m => rfl
    | none =>
      dsimp only
      rw [if_neg hroot, hagrees.entry_eq_ok hn, Checked.ok_bind,
        ih (hagrees.mono (Nat.le_of_lt hlength)), Links.chain_eq_cons h hn hroot]
      rfl

section Matcher

variable {m : Matcher κ} (h : m.trie.WellFormed) {n rounds : Nat} (hwalk : Walk m.trie rounds n)
  (hagrees : ∀ d, AgreesTo m.trie table d)
include h hwalk hagrees

/-- A matcher moves from node to node. -/
theorem move_eq_ok (c : Char) (literal : List Char) :
  move m.trie table c rounds n literal = .ok ((m.move n c).map id (literal ++ ·))
  := by
  induction hwalk generalizing literal with
  | root =>
    rw [move, Checked.child?_eq_ok h.root_lt_size, checked_ok_bind, Matcher.move, m.links_eq,
      Links.chain_root h]
    cases m.trie.child? root c with
    | some child => simp
    | none => rfl
  | @step rounds n hn hroot hwalk ih =>
    rw [move, Checked.child?_eq_ok hn, checked_ok_bind]
    cases hchild : m.trie.child? n c with
    | some child => simp [Matcher.move, hchild]
    | none =>
      dsimp only
      rw [if_neg hroot, (hagrees _).entry_eq_ok hn, Checked.ok_bind, ih,
        m.move_of_child?_eq_none h hn hroot hchild, m.links_eq]
      simp [Prod.map]

/-- A matcher releases what it holds back from node to node. -/
theorem flush_eq_ok (literal : List Char) :
  flush table rounds n literal = .ok (literal ++ m.held n)
  := by
  induction hwalk generalizing literal with
  | root =>
    rw [flush, if_pos rfl, Matcher.held, m.links_eq, Links.chain_root h]
    simp
  | @step rounds n hn hroot hwalk ih =>
    rw [flush, if_neg hroot, (hagrees _).entry_eq_ok hn, Checked.ok_bind, ih, Matcher.held,
      Matcher.held, m.links_eq, Links.chain_eq_cons h hn hroot]
    simp

end Matcher

/-! ### Filling -/

/-- The table with the fallbacks of the nodes `ns`. -/
def fill (links : Links) (table : FallbackTable) (ns : List Nat) : FallbackTable :=
  ns.foldl (fun table n => table.setIfInBounds n (links.fallback n)) table

theorem fill_append (links : Links) (table : FallbackTable) (ns ns' : List Nat) :
  fill links table (ns ++ ns') = fill links (fill links table ns) ns'
  := List.foldl_append

@[simp]
theorem size_fill (links : Links) (table : FallbackTable) (ns : List Nat) :
  (fill links table ns).size = table.size
  := by
  induction ns generalizing table with
  | nil => rfl
  | cons n ns ih =>
    change (fill links (table.setIfInBounds n (links.fallback n)) ns).size = table.size
    rw [ih, Array.size_setIfInBounds]

theorem getElem?_fill (links : Links) (table : FallbackTable) (ns : List Nat) (m : Nat) :
  (fill links table ns)[m]?
    = if m ∈ ns ∧ m < table.size then some (links.fallback m) else table[m]?
  := by
  induction ns generalizing table with
  | nil => simp [fill]
  | cons n ns ih =>
    change (fill links (table.setIfInBounds n (links.fallback n)) ns)[m]? = _
    rw [ih, Array.getElem?_setIfInBounds, Array.size_setIfInBounds]
    grind

/-- Filling in more nodes keeps what is there. -/
theorem AgreesTo.fill {d : Nat} (h : AgreesTo t table d) (ns : List Nat) :
  AgreesTo t (fill (Links.ofTrie t) table ns) d
  := by
  constructor
  · rw [size_fill, h.size_eq]
  · intro n hn hd
    rw [getElem?_fill, h.getElem?_eq n hn hd]
    split_ifs <;> rfl

/-- Filling in a level goes one character deeper. -/
theorem AgreesTo.fill_level {d : Nat} (h : AgreesTo t table d) {level : List Nat}
    (hlevel : ∀ n, n ∈ level ↔ n < t.size ∧ (t.path n).length = d + 1) :
  AgreesTo t (FallbackTable.fill (Links.ofTrie t) table level) (d + 1)
  := by
  use (h.fill level).size_eq
  intro n hn hd
  rcases Nat.le_or_eq_of_le_succ hd with hd | hd
  · apply (h.fill level).getElem?_eq n hn hd
  · rw [getElem?_fill, h.size_eq, if_pos ⟨(hlevel n).mpr ⟨hn, hd⟩, hn⟩]

theorem getElem?_ofLinks (h : t.WellFormed) {n : Nat} (hn : n < t.size) :
  (ofLinks (Links.ofTrie t))[n]? = some ((Links.ofTrie t).fallback n)
  := by
  have hlt : n < (Links.ofTrie t).size := by rwa [Links.size_ofTrie h]
  rw [ofLinks, List.getElem?_toArray, List.getElem?_map, Array.getElem?_toList, Links.fallback,
    Links.chain, Array.getD_eq_getD_getElem?, Array.getElem?_eq_getElem hlt]
  rfl

theorem agreesTo_ofLinks (h : t.WellFormed) (d : Nat) :
  AgreesTo t (ofLinks (Links.ofTrie t)) d
  := by
  constructor
  · rw [ofLinks, List.size_toArray, List.length_map, Array.length_toList, Links.size_ofTrie h]
  · intro n hn _
    apply getElem?_ofLinks h hn

/-- A table that agrees on all nodes has the first fallbacks of their chains. -/
theorem AgreesTo.eq_ofLinks (h : t.WellFormed) (hagrees : AgreesTo t table t.size) :
  table = ofLinks (Links.ofTrie t)
  := by
  have hsize := (agreesTo_ofLinks h t.size).size_eq
  apply Array.ext_getElem?
  intro n
  by_cases hn : n < t.size
  · have hlength := h.length_path_le hn
    rw [hagrees.getElem?_eq n hn (by omega), getElem?_ofLinks h hn]
  · rw [Array.getElem?_eq_none (by rw [hagrees.size_eq]; omega),
      Array.getElem?_eq_none (by rw [hsize]; omega)]

end FallbackTable

end TemplateLexer
