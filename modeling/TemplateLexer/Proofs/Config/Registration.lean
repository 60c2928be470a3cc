import Mathlib.Data.List.Nodup
import TemplateLexer.Lexer
import TemplateLexer.Proofs.Automaton.Reachable

/-!
# Registration of delimiters

The delimiters of settings are registered one after another, until one of them is at fault: it is
empty, or the same as an earlier one.  The automaton finds an earlier delimiter by its path in the
trie, not by comparing strings; that this comes to the same is what `Config.register_eq_ok` and
`Config.register_eq_error` say.
-/

namespace TemplateLexer.Config

variable {config : Config} {before ds : List Delimiter} {d : Delimiter} {a : Automaton Kind}

/-! ### Delimiters as patterns -/

/-- The characters of a delimiter. -/
def spelling (config : Config) (d : Delimiter) : List Char :=
  (config.delimiter d).toList

/-- A delimiter as a pattern. -/
def pattern (config : Config) (d : Delimiter) : String × Kind :=
  (config.delimiter d, .delimiter d)

/-- The delimiters as patterns, in the order of their registration. -/
def patterns (config : Config) : List (String × Kind) :=
  Delimiter.all.map config.pattern

theorem mem_all (d : Delimiter) :
  d ∈ Delimiter.all
  := by
  cases d <;> decide

theorem mem_patterns_iff (s : String) (k : Kind) :
  (s, k) ∈ config.patterns ↔ ∃ d, k = .delimiter d ∧ config.delimiter d = s
  := by
  simp only [patterns, pattern, List.mem_map, Prod.mk.injEq, mem_all, true_and, eq_comm]
  constructor
  · rintro ⟨d, hs, hk⟩
    exact ⟨d, hk, hs⟩
  · rintro ⟨d, hk, hs⟩
    exact ⟨d, hs, hk⟩

/-! ### Faults -/

/-- What is wrong with the delimiter `d` when the delimiters `before` come before it: it is empty,
or one of these has the same value. -/
def fault? (config : Config) (before : List Delimiter) (d : Delimiter) : Option Error :=
  if config.delimiter d = "" then some (.emptyDelimiter d)
  else if config.delimiter d ∈ before.map config.delimiter then
    some (.duplicateDelimiter d (config.delimiter d))
  else none

/-- No delimiter is empty, and no two are the same. -/
structure IsSound (config : Config) (ds : List Delimiter) : Prop where
  ne_empty : ∀ d ∈ ds, config.delimiter d ≠ ""
  nodup : (ds.map config.delimiter).Nodup

/-- The error `e` is about the first delimiter at fault. -/
def IsFirstFault (config : Config) (ds : List Delimiter) (e : Error) : Prop :=
  ∃ before d later, ds = before ++ d :: later ∧ config.IsSound before
    ∧ config.fault? before d = some e

theorem fault?_eq_none_iff :
  config.fault? before d = none
    ↔ config.delimiter d ≠ "" ∧ config.delimiter d ∉ before.map config.delimiter
  := by
  rw [fault?]
  split_ifs <;> simp_all

theorem isSound_nil :
  config.IsSound []
  := ⟨by simp, by simp⟩

theorem isSound_concat_iff :
  config.IsSound (before ++ [d]) ↔ config.IsSound before ∧ config.fault? before d = none
  := by
  have hnodup : ((before ++ [d]).map config.delimiter).Nodup
      ↔ config.delimiter d ∉ before.map config.delimiter
        ∧ (before.map config.delimiter).Nodup := by
    rw [List.map_append, List.map_singleton, ← List.concat_eq_append, List.nodup_concat]
  rw [fault?_eq_none_iff]
  constructor
  · intro h
    obtain ⟨hmem, hbefore⟩ := hnodup.mp h.nodup
    refine ⟨⟨fun d' hd' => h.ne_empty d' (List.mem_append_left _ hd'), hbefore⟩, ?_, hmem⟩
    apply h.ne_empty d (List.mem_append_right _ (List.mem_singleton_self d))
  · rintro ⟨h, hne, hmem⟩
    constructor
    · intro d' hd'
      rcases List.mem_append.mp hd' with hd' | hd'
      · apply h.ne_empty d' hd'
      · rw [List.mem_singleton.mp hd']
        apply hne
    · apply hnodup.mpr ⟨hmem, h.nodup⟩

/-- Either no delimiter is at fault, or there is a first one. -/
theorem isSound_or_exists_isFirstFault (config : Config) (ds : List Delimiter) :
  config.IsSound ds ∨ ∃ e, config.IsFirstFault ds e
  := by
  induction ds using List.reverseRecOn with
  | nil =>
    left
    apply isSound_nil
  | append_singleton ds d ih =>
    rcases ih with hsound | ⟨e, before, d', later, rfl, hfirst⟩
    · cases hfault : config.fault? ds d with
      | none =>
        left
        apply isSound_concat_iff.mpr ⟨hsound, hfault⟩
      | some e =>
        right
        exact ⟨e, ds, d, [], rfl, hsound, hfault⟩
    · right
      exact ⟨e, before, d', later ++ [d], by simp, hfirst⟩

/-- The three delimiters are sound when none is empty and different ones have different values. -/
theorem isSound_all_iff :
  config.IsSound Delimiter.all
    ↔ (∀ d, config.delimiter d ≠ "") ∧ Function.Injective config.delimiter
  := by
  have hall : Delimiter.all.Nodup := by decide
  constructor
  · intro h
    constructor
    · intro d
      apply h.ne_empty d (mem_all d)
    · intro d d' hdd'
      apply List.inj_on_of_nodup_map h.nodup (mem_all d) (mem_all d') hdd'
  · rintro ⟨hne, hinj⟩
    constructor
    · intro d _
      apply hne d
    · apply hall.map hinj

/-! ### Registration -/

/-- A delimiter that has no fault is registered. -/
theorem register_eq_ok (h : Automaton.Reachable (before.map config.pattern) a)
    (hd : config.fault? before d = none) :
  ∃ a', config.register a d = .ok a'
    ∧ Automaton.Reachable ((before ++ [d]).map config.pattern) a'
  := by
  obtain ⟨hne, hmem⟩ := fault?_eq_none_iff.mp hd
  obtain ⟨t, ht⟩ : ∃ t, a.trie.register? (config.delimiter d).toList (.delimiter d) = some t := by
    refine ⟨_, (h.holds.register?_eq_some_iff _ _ _).mpr ⟨hne, ?_, rfl⟩⟩
    simpa [pattern] using hmem
  have ha' : a.register? (config.delimiter d) (.delimiter d) = some (.growing t) := by
    rw [Automaton.register?, ht]
    rfl
  use .growing t
  constructor
  · rw [register, ha', if_neg (by simpa using hne)]
  · rw [List.map_append]
    apply h.register ha'

/-- A delimiter that has a fault is refused for it. -/
theorem register_eq_error (h : Automaton.Reachable (before.map config.pattern) a) {e : Error}
    (hd : config.fault? before d = some e) :
  config.register a d = .error e
  := by
  rw [fault?] at hd
  rw [register]
  split_ifs at hd with hempty hmem
  · rw [if_pos (by simpa using hempty)]
    cases hd
    rfl
  · have hnone : a.register? (config.delimiter d) (.delimiter d) = none := by
      rw [Automaton.register?, Option.map_eq_none_iff, Option.eq_none_iff_forall_ne_some]
      intro t ht
      obtain ⟨-, hnew, -⟩ := (h.holds.register?_eq_some_iff _ _ _).mp ht
      apply hnew
      simpa [pattern] using hmem
    rw [if_neg (by simpa using hempty), hnone]
    cases hd
    rfl

/-- Sound delimiters are registered one after another. -/
theorem foldlM_register_of_isSound (h : config.IsSound ds) :
  ∃ a, ds.foldlM config.register Automaton.empty = .ok a
    ∧ Automaton.Reachable (ds.map config.pattern) a
  := by
  induction ds using List.reverseRecOn with
  | nil => exact ⟨_, rfl, .empty⟩
  | append_singleton ds d ih =>
    obtain ⟨hsound, hfault⟩ := isSound_concat_iff.mp h
    obtain ⟨a, hfold, ha⟩ := ih hsound
    obtain ⟨a', hregister, ha'⟩ := register_eq_ok ha hfault
    refine ⟨a', ?_, ha'⟩
    rw [List.foldlM_append, hfold]
    change [d].foldlM config.register a = .ok a'
    rw [List.foldlM_cons, hregister]
    rfl

/-- The first fault is the error. -/
theorem foldlM_register_of_isFirstFault {e : Error} (h : config.IsFirstFault ds e) :
  ds.foldlM config.register Automaton.empty = .error e
  := by
  obtain ⟨before, d, later, rfl, hsound, hfault⟩ := h
  obtain ⟨a, hfold, ha⟩ := foldlM_register_of_isSound hsound
  rw [List.foldlM_append, hfold]
  change (d :: later).foldlM config.register a = .error e
  rw [List.foldlM_cons, register_eq_error ha hfault]
  rfl

end TemplateLexer.Config
