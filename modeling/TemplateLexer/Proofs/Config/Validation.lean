import TemplateLexer.Proofs.Config.Automaton
import TemplateLexer.Proofs.Trie.Count

/-!
# Validation of settings

A lexer is made of settings exactly when no delimiter is empty and no two are the same; it does
not matter whether one is part of another.  Otherwise the error is about the first delimiter that
is at fault (`Lexer.ofConfig_eq_error_iff`).  The automaton of the lexer has a node for every start
of a delimiter and no others (`Lexer.IsBuiltFrom`).
-/

namespace TemplateLexer

namespace Lexer

open Trie

variable {config : Config}

/-- A lexer is made exactly of sound delimiters. -/
theorem exists_ofConfig_eq_ok_iff :
  (∃ l, ofConfig config = .ok l) ↔ config.IsSound Delimiter.all
  := by
  constructor
  · rintro ⟨l, hl⟩
    rcases config.isSound_or_exists_isFirstFault Delimiter.all with hsound | ⟨e, he⟩
    · exact hsound
    · rw [ofConfig, Config.automaton, Config.foldlM_register_of_isFirstFault he] at hl
      cases hl
  · intro h
    obtain ⟨a, hfold, -⟩ := Config.foldlM_register_of_isSound h
    rw [ofConfig, Config.automaton, hfold]
    exact ⟨_, rfl⟩

/-- What is reported of settings is the first fault of their delimiters. -/
theorem ofConfig_eq_error_iff (e : Error) :
  ofConfig config = .error e ↔ config.IsFirstFault Delimiter.all e
  := by
  have herror : ∀ e, config.IsFirstFault Delimiter.all e → ofConfig config = .error e := by
    intro e he
    rw [ofConfig, Config.automaton, Config.foldlM_register_of_isFirstFault he]
    rfl
  constructor
  · intro h
    rcases config.isSound_or_exists_isFirstFault Delimiter.all with hsound | ⟨e', he'⟩
    · obtain ⟨l, hl⟩ := exists_ofConfig_eq_ok_iff.mpr hsound
      cases h.symm.trans hl
    · cases h.symm.trans (herror e' he')
      apply he'
  · apply herror

/-- The lexer has the settings, and its automaton is built: it has a root and a node for every
different start of a delimiter, and three of its nodes are tagged, each where a delimiter ends
with that delimiter. -/
structure IsBuiltFrom (config : Config) (m : Matcher Kind) (l : Lexer) : Prop where
  eq_ofAutomaton : l = ofAutomaton (.built m) config.escape config.maxTextChunk
  size_eq : m.trie.size = (starts config.patterns).card + 1
  patternCount_eq : m.trie.patternCount = 3
  find?_eq : ∀ d, ∃ n, m.trie.find? (config.spelling d) = some n
    ∧ m.trie.path n = config.spelling d ∧ m.trie.tag? n = some (.delimiter d)

theorem exists_isBuiltFrom {l : Lexer} (h : ofConfig config = .ok l) :
  ∃ m, l.IsBuiltFrom config m
  := by
  obtain ⟨m, hm, rfl⟩ := Config.of_ofConfig_eq_ok h
  have hsound := exists_ofConfig_eq_ok_iff.mp ⟨_, h⟩
  have hnodup : (config.patterns.map (·.1)).Nodup := by
    rw [Config.patterns, List.map_map]
    apply hsound.nodup
  use m
  constructor
  · rfl
  · apply hm.holds.size_eq
  · apply hm.holds.patternCount_eq hnodup
  · intro d
    obtain ⟨n, hn, hpath⟩ := (hm.isPath_iff (config.spelling d)).mpr ⟨d, List.prefix_rfl⟩
    use n, hm.wellFormed.find?_eq_some_iff.mpr ⟨hn, hpath⟩, hpath
    apply (hm.tag?_eq_some_iff hn _).mpr ⟨d, rfl, hpath.symm⟩

/-- Settings are validated exactly: a lexer is made of them when no delimiter is empty and no two
are the same, and then recognises these; otherwise the error names the first delimiter, in the
order of the options, that is empty or the same as an earlier one. -/
theorem ofConfig_validates (config : Config) :
  ((∃ l, ofConfig config = .ok l)
      ↔ (∀ d, config.delimiter d ≠ "") ∧ Function.Injective config.delimiter)
    ∧ (∀ e, ofConfig config = .error e ↔ config.IsFirstFault Delimiter.all e)
    ∧ ∀ l, ofConfig config = .ok l → ∃ m, l.IsBuiltFrom config m
  := by
  refine ⟨?_, ofConfig_eq_error_iff, fun l hl => exists_isBuiltFrom hl⟩
  rw [exists_ofConfig_eq_ok_iff, Config.isSound_all_iff]

/-- Settings in which the second delimiter is the opening one doubled. -/
def prefixed : Config :=
  ⟨"\x7b", "\x7b\x7b", "\x7d", '\\', 0⟩

/-- The start of another delimiter is accepted: four nodes, three of them tagged. -/
theorem ofConfig_validates_prefixed :
  ∃ l m, ofConfig prefixed = .ok l ∧ l.IsBuiltFrom prefixed m ∧ m.trie.size = 4
  := by
  have hl : ofConfig prefixed = .ok _ := rfl
  obtain ⟨m, hm⟩ := (ofConfig_validates prefixed).2.2 _ hl
  refine ⟨_, m, hl, hm, ?_⟩
  rw [hm.size_eq]
  decide

/-- Of several faults the first one is reported. -/
example :
  ofConfig ⟨"a", "a", "", '\\', 0⟩ = .error (.duplicateDelimiter .continuation "a")
  := rfl

end Lexer

end TemplateLexer
