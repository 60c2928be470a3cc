import TemplateLexer.Proofs.Automaton.Reachable
import TemplateLexer.Proofs.Trie.Numbering
import TemplateLexer.Token

/-!
# The history of an automaton

An automaton is made by calls: patterns are registered, each with an answer, and fallbacks are
built, in any order.  `History calls a` says that the calls `calls`, with these answers, make the
automaton `a` of the empty one.  What the automaton is can be read off its calls
(`History.represents_accepted`): which patterns were accepted, the node for each of their starts,
numbered in the order in which they were first needed, where a tag stands, and whether the
matcher is built.
-/

namespace TemplateLexer

variable {κ : Type}

open Trie

namespace Trie

variable {t t' : Trie κ}

theorem IsReordering.paths_eq (ht : IsReordering t' t) :
  t'.paths = t.paths
  := by
  rw [paths, paths, ht.size_eq]
  apply List.map_congr_left
  intro n _
  apply ht.path_eq

theorem HasDistinctEdges.reorder (h : t.HasDistinctEdges) (ht : IsReordering t' t) :
  t'.HasDistinctEdges
  := by
  intro n
  apply ((ht.children_perm n).map (·.1)).nodup_iff.mpr (h n)

/-- The trie has one node for each start of the patterns, reached by its path, and the tags
stand where the patterns end. -/
structure Represents (t : Trie κ) (patterns : List (String × κ)) : Prop where
  /-- The nodes are numbered in the order in which their paths first start a pattern. -/
  paths_eq : t.paths = startsInOrder patterns
  /-- The paths are what the patterns start with. -/
  isPath_iff : ∀ q, t.IsPath q ↔ q = [] ∨ ∃ p ∈ patterns, q <+: p.1.toList
  /-- Different nodes have different paths. -/
  path_injective : ∀ m < t.size, ∀ n < t.size, t.path m = t.path n → m = n
  /-- The root has the empty path. -/
  path_root : root < t.size ∧ t.path root = []
  /-- A node is reached from the root by its path and by nothing else. -/
  leads_iff : ∀ n < t.size, ∀ cs, t.Leads root cs n ↔ cs = t.path n
  /-- A node has one child at most along a character. -/
  hasDistinctEdges : t.HasDistinctEdges
  /-- Every child is a node. -/
  child_lt_size : ∀ n, ∀ p ∈ (t.node n).children, p.2 < t.size
  /-- A node has a tag when its path is a pattern, and then the tag of the pattern. -/
  tag?_eq_some_iff : ∀ n < t.size, ∀ k,
    t.tag? n = some k ↔ (String.ofList (t.path n), k) ∈ patterns

end Trie

namespace Automaton

/-! ### Reachable automata -/

namespace Reachable

variable {patterns : List (String × κ)} {a : Automaton κ}

/-- A pattern that is accepted makes the trie grow, and has its tag at the end. -/
theorem trie_of_register? (h : Reachable patterns a) {a' : Automaton κ} {pattern : String} {k : κ}
    (ha' : a.register? pattern k = some a') :
  a'.trie = (a.trie.grow root pattern.toList).1.setTag (a.trie.grow root pattern.toList).2 k
  := by
  obtain ⟨t, ht, rfl⟩ := Option.map_eq_some_iff.mp ha'
  obtain ⟨-, -, rfl⟩ := (h.holds.register?_eq_some_iff pattern k t).mp ht
  rfl

theorem hasDistinctEdges (h : Reachable patterns a) :
  a.trie.HasDistinctEdges
  := by
  induction h with
  | empty => apply hasDistinctEdges_empty
  | @register patterns a a' pattern k h ha' ih =>
    rw [h.trie_of_register? ha']
    apply (ih.grow root pattern.toList).setTag
  | refuse h ha ih => apply ih
  | build h ht ih => apply ih.reorder ht

/-- The nodes are numbered in the order in which the patterns accepted first need them. -/
theorem paths_eq (h : Reachable patterns a) :
  a.trie.paths = startsInOrder patterns
  := by
  induction h with
  | empty => rfl
  | @register patterns a a' pattern k h ha' ih =>
    have hwf := h.wellFormed
    rw [h.trie_of_register? ha', paths_setTag, paths_grow hwf hwf.root_lt_size pattern.toList ih,
      hwf.path_root, startsInOrder]
    simp
  | refuse h ha ih => apply ih
  | build h ht ih =>
    rw [← ih]
    apply ht.paths_eq

/-- The trie of an automaton represents the patterns accepted. -/
theorem represents (h : Reachable patterns a) :
  a.trie.Represents patterns
  := by
  have hwf := h.wellFormed
  refine ⟨h.paths_eq, h.holds.isPath_iff, ?_, ?_, ?_, h.hasDistinctEdges, ?_,
    h.holds.tag?_eq_some_iff⟩
  · intro m hm n hn hpath
    apply hwf.path_injective hm hn hpath
  · exact ⟨hwf.root_lt_size, hwf.path_root⟩
  · intro n hn cs
    rw [hwf.leads_iff hwf.root_lt_size, hwf.path_root, List.nil_append, eq_comm]
    simp [hn]
  · intro n p hp
    apply (hwf.of_mem_children hp).1

end Reachable

/-! ### Calls -/

/-- A call on an automaton, with its answer. -/
inductive Call (κ : Type) where
  /-- A pattern is registered under the tag `k`; it is accepted or refused. -/
  | register (pattern : String) (k : κ) (accepted : Bool)
  /-- The fallbacks are built. -/
  | build

/-- Whether the call is a registration that was refused. -/
def Call.isRefusal : Call κ → Bool
  | register _ _ accepted => !accepted
  | build => false

/-- The patterns that were registered and accepted. -/
def accepted (calls : List (Call κ)) : List (String × κ) :=
  calls.filterMap fun
    | .register pattern k true => some (pattern, k)
    | _ => none

/-- The fallbacks were built, and no pattern was accepted since. -/
def IsBuiltBy (calls : List (Call κ)) : Prop :=
  ∃ later, .build :: later <:+ calls ∧ accepted later = []

/-- The automaton after a pattern is registered, and whether it was accepted. -/
def register (a : Automaton κ) (pattern : String) (k : κ) : Automaton κ × Bool :=
  match a.register? pattern k with
  | some a' => (a', true)
  | none => (a, false)

/-- The calls make the automaton of the empty one, whatever the order in which building meets
the children of a node. -/
inductive History : List (Call κ) → Automaton κ → Prop
  | empty : History [] .empty
  | register {calls : List (Call κ)} {a : Automaton κ} (h : History calls a) (pattern : String)
      (k : κ) : History (calls ++ [.register pattern k (a.register pattern k).2])
        (a.register pattern k).1
  | build {calls : List (Call κ)} {a : Automaton κ} (h : History calls a) {t : Trie κ}
      (ht : t.IsReordering a.trie) : History (calls ++ [.build]) (.built (.ofTrie t))

section Accepted

variable (calls : List (Call κ))

@[simp]
theorem accepted_append (calls' : List (Call κ)) :
  accepted (calls ++ calls') = accepted calls ++ accepted calls'
  := by
  simp [accepted]

@[simp]
theorem accepted_register_true (pattern : String) (k : κ) :
  accepted (.register pattern k true :: calls) = (pattern, k) :: accepted calls
  := rfl

@[simp]
theorem accepted_register_false (pattern : String) (k : κ) :
  accepted (.register pattern k false :: calls) = accepted calls
  := rfl

@[simp]
theorem accepted_build :
  accepted (.build :: calls) = accepted calls
  := rfl

@[simp]
theorem accepted_nil :
  accepted ([] : List (Call κ)) = []
  := rfl

/-- The last call builds, or accepts nothing while those before have built. -/
theorem isBuiltBy_concat_iff (call : Call κ) :
  IsBuiltBy (calls ++ [call]) ↔ call = .build ∨ (accepted [call] = [] ∧ IsBuiltBy calls)
  := by
  constructor
  · rintro ⟨later, hsuffix, hlater⟩
    rcases List.suffix_concat_iff.mp hsuffix with hnil | ⟨l, hl, hbefore⟩
    · cases hnil
    · cases l with
      | nil =>
        left
        simp at hl
        exact hl.1.symm
      | cons c l =>
        right
        rw [List.cons_append] at hl
        obtain ⟨rfl, rfl⟩ := List.cons.inj hl
        rw [accepted_append, List.append_eq_nil_iff] at hlater
        exact ⟨hlater.2, l, hbefore, hlater.1⟩
  · rintro (rfl | ⟨hcall, later, hsuffix, hlater⟩)
    · exact ⟨[], List.suffix_append calls _, rfl⟩
    · refine ⟨later ++ [call], List.suffix_append_self_iff.mpr hsuffix, ?_⟩
      rw [accepted_append, hlater, hcall, List.append_nil]

end Accepted

/-! ### One registration -/

theorem register_cases (a : Automaton κ) (pattern : String) (k : κ) :
  (∃ a', a.register? pattern k = some a' ∧ a.register pattern k = (a', true))
    ∨ (a.register? pattern k = none ∧ a.register pattern k = (a, false))
  := by
  rw [register]
  cases a.register? pattern k with
  | some a' =>
    left
    exact ⟨a', rfl, rfl⟩
  | none =>
    right
    exact ⟨rfl, rfl⟩

/-- A registration that is refused changes nothing. -/
theorem register_fst_of_refused {a : Automaton κ} {pattern : String} {k : κ}
    (h : (a.register pattern k).2 = false) :
  (a.register pattern k).1 = a
  := by
  rcases a.register_cases pattern k with ⟨a', -, hregister⟩ | ⟨-, hregister⟩
  · rw [hregister] at h
    cases h
  · rw [hregister]

/-- After a registration that is accepted the fallbacks have to be built anew. -/
theorem matcher?_register_of_accepted {a : Automaton κ} {pattern : String} {k : κ}
    (h : (a.register pattern k).2 = true) :
  (a.register pattern k).1.matcher? = none
  := by
  rcases a.register_cases pattern k with ⟨a', ha', hregister⟩ | ⟨-, hregister⟩
  · obtain ⟨t, -, rfl⟩ := Option.map_eq_some_iff.mp ha'
    rw [hregister]
    rfl
  · rw [hregister] at h
    cases h

/-- A pattern is accepted when it is neither empty nor accepted before, under whichever tag. -/
theorem Reachable.register_snd_iff {patterns : List (String × κ)} {a : Automaton κ}
    (h : Reachable patterns a) (pattern : String) (k : κ) :
  (a.register pattern k).2 = true ↔ pattern ≠ "" ∧ pattern ∉ patterns.map (·.1)
  := by
  have hsome : (a.register pattern k).2 = true ↔ ∃ a', a.register? pattern k = some a' := by
    rcases a.register_cases pattern k with ⟨a', ha', hregister⟩ | ⟨hnone, hregister⟩
    · simp [ha', hregister]
    · simp [hnone, hregister]
  rw [hsome]
  simp only [Automaton.register?, Option.map_eq_some_iff, h.holds.register?_eq_some_iff]
  constructor
  · rintro ⟨_, t, ⟨hne, hnew, -⟩, -⟩
    exact ⟨hne, hnew⟩
  · rintro ⟨hne, hnew⟩
    exact ⟨_, _, ⟨hne, hnew, rfl⟩, rfl⟩

/-! ### All calls -/

namespace History

variable {calls : List (Call κ)} {a : Automaton κ}

theorem reachable (h : History calls a) :
  Reachable (accepted calls) a
  := by
  induction h with
  | empty => apply Reachable.empty
  | @register calls a h pattern k ih =>
    rcases a.register_cases pattern k with ⟨a', ha', hregister⟩ | ⟨hnone, hregister⟩
    · rw [hregister, accepted_append]
      apply ih.register ha'
    · rw [hregister, accepted_append, accepted_register_false, accepted_nil, List.append_nil]
      apply ih
  | build h ht ih =>
    rw [accepted_append, accepted_build, accepted_nil, List.append_nil]
    apply ih.build ht

/-- Every answer tells whether the pattern is neither empty nor accepted before. -/
theorem accepted_iff (h : History calls a) {before : List (Call κ)} {pattern : String} {k : κ}
    {answer : Bool} (hcall : before ++ [.register pattern k answer] <+: calls) :
  answer = true ↔ pattern ≠ "" ∧ pattern ∉ (accepted before).map (·.1)
  := by
  induction h with
  | empty => simp at hcall
  | @register calls a h pattern' k' ih =>
    rcases List.prefix_concat_iff.mp hcall with heq | hcall
    · obtain ⟨rfl, hlast⟩ := List.append_inj' heq rfl
      simp only [List.cons.injEq, Call.register.injEq, and_true] at hlast
      obtain ⟨rfl, rfl, rfl⟩ := hlast
      apply h.reachable.register_snd_iff
    · apply ih hcall
  | build h ht ih =>
    rcases List.prefix_concat_iff.mp hcall with heq | hcall
    · obtain ⟨-, hlast⟩ := List.append_inj' heq rfl
      simp at hlast
    · apply ih hcall

/-- Without the registrations that were refused the calls make the same automaton. -/
theorem filter_isRefusal (h : History calls a) :
  History (calls.filter (!·.isRefusal)) a
  := by
  induction h with
  | empty => apply History.empty
  | @register calls a h pattern k ih =>
    rw [List.filter_append]
    cases hanswer : (a.register pattern k).2 with
    | true =>
      have := ih.register pattern k
      rwa [hanswer] at this
    | false =>
      rw [register_fst_of_refused hanswer]
      simpa [Call.isRefusal] using ih
  | build h ht ih =>
    rw [List.filter_append]
    apply ih.build ht

/-- An automaton is built when no pattern was accepted since its fallbacks were built. -/
theorem isSome_matcher?_iff (h : History calls a) :
  a.matcher?.isSome ↔ IsBuiltBy calls
  := by
  induction h with
  | empty => simp [Automaton.empty, matcher?, IsBuiltBy]
  | @register calls a h pattern k ih =>
    rw [isBuiltBy_concat_iff, ← ih]
    cases hanswer : (a.register pattern k).2 with
    | true => simp [matcher?_register_of_accepted hanswer]
    | false => simp [register_fst_of_refused hanswer]
  | build h ht ih => simp [isBuiltBy_concat_iff, matcher?]

/-- Whatever is registered and built, and in whatever order: a pattern is accepted when it is
neither empty nor accepted before, under whichever tag; a registration that is refused changes
nothing, neither the nodes nor whether the matcher is built; and the trie represents the
patterns accepted. -/
theorem represents_accepted (h : History calls a) :
  (∀ before pattern k answer, before ++ [.register pattern k answer] <+: calls →
      (answer = true ↔ pattern ≠ "" ∧ pattern ∉ (accepted before).map (·.1)))
    ∧ (∀ pattern k, (a.register pattern k).2 = false → (a.register pattern k).1 = a)
    ∧ History (calls.filter (!·.isRefusal)) a
    ∧ (a.matcher?.isSome ↔ IsBuiltBy calls)
    ∧ a.trie.Represents (accepted calls)
  := by
  refine ⟨?_, ?_, h.filter_isRefusal, h.isSome_matcher?_iff, h.reachable.represents⟩
  · intro before pattern k answer hcall
    apply h.accepted_iff hcall
  · intro pattern k hrefused
    apply register_fst_of_refused hrefused

/-! ### Patterns within patterns -/

/-- The trie of `ab` and then of `a`, where a node between gets a tag, and of `abc`, where a node
with a tag gets a child. -/
def nested : Trie Delimiter :=
  ⟨#[⟨[], none, [('a', 1)]⟩, ⟨['a'], some .continuation, [('b', 2)]⟩,
    ⟨['a', 'b'], some .opening, [('c', 3)]⟩, ⟨['a', 'b', 'c'], some .closing, []⟩]⟩

/-- Calls that make it, with two that are refused. -/
def nestedCalls : List (Call Delimiter) :=
  [.register "ab" .opening true, .build, .register "a" .continuation true,
    .register "ab" .closing false, .register "abc" .closing true, .build,
    .register "" .opening false]

theorem represents_accepted_nested :
  History nestedCalls (.built (.ofTrie nested))
    ∧ IsBuiltBy nestedCalls
    ∧ nested.Represents [("ab", .opening), ("a", .continuation), ("abc", .closing)]
  := by
  have h : History nestedCalls (.built (.ofTrie nested)) :=
    ((((((History.empty.register "ab" Delimiter.opening).build (.refl _)).register
      "a" .continuation).register "ab" .closing).register "abc" .closing).build
        (.refl nested)).register "" .opening
  obtain ⟨-, -, -, hbuilt, hrepresents⟩ := represents_accepted h
  exact ⟨h, hbuilt.mp rfl, hrepresents⟩

end History

end Automaton

end TemplateLexer
