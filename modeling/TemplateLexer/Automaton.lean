import TemplateLexer.Matcher

/-!
# Automata

An `Automaton` is a trie that grows by registration until `build` makes it a matcher;
registering another pattern takes the matcher away again, and a pattern that is refused
changes nothing.
-/

namespace TemplateLexer

variable {κ : Type}

/-- A growing trie, or the matcher built from it. -/
inductive Automaton (κ : Type) where
  | growing (trie : Trie κ)
  | built (matcher : Matcher κ)

namespace Automaton

/-- The automaton without patterns. -/
def empty : Automaton κ :=
  growing .empty

/-- The patterns of the automaton. -/
def trie : Automaton κ → Trie κ
  | growing t => t
  | built m => m.trie

/-- The matcher, unless a pattern was registered since it was built. -/
def matcher? : Automaton κ → Option (Matcher κ)
  | growing _ => none
  | built m => some m

/-- The automaton with one more pattern; none if the pattern is empty or registered
already. -/
def register? (a : Automaton κ) (pattern : String) (k : κ) : Option (Automaton κ) :=
  (a.trie.register? pattern.toList k).map growing

/-- The automaton with its matcher built. -/
def build (a : Automaton κ) : Automaton κ :=
  built (.ofTrie a.trie)

@[simp]
theorem trie_build (a : Automaton κ) :
  a.build.trie = a.trie
  := rfl

@[simp]
theorem matcher?_build (a : Automaton κ) :
  a.build.matcher? = some (.ofTrie a.trie)
  := rfl

end Automaton

end TemplateLexer
