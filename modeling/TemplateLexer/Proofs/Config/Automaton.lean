import TemplateLexer.Proofs.Config.Registration

/-!
# The delimiters of accepted settings

The automaton of settings is reachable with the three delimiters as its patterns
(`Config.reachable_automaton`), so that its matcher recognises the delimiters and nothing else.
What is used of this further on is gathered in `Config.IsMatcher`.
-/

namespace TemplateLexer.Config

variable {config : Config}

theorem exists_of_bind_eq_ok {ε α β : Type} {x : Except ε α} {f : α → Except ε β} {b : β}
    (h : x >>= f = .ok b) :
  ∃ a, x = .ok a ∧ f a = .ok b
  := by
  cases x with
  | error e => cases h
  | ok a => exact ⟨a, rfl, h⟩

/-- The automaton of accepted settings is a matcher of the three delimiters, none of which is
empty. -/
theorem reachable_automaton {a : Automaton Kind} (h : config.automaton = .ok a) :
  (∃ m, a = .built m ∧ Automaton.Reachable config.patterns (.built m))
    ∧ ∀ d, config.delimiter d ≠ ""
  := by
  rw [automaton] at h
  rcases config.isSound_or_exists_isFirstFault Delimiter.all with hsound | ⟨e, he⟩
  · obtain ⟨b, hfold, hreachable⟩ := foldlM_register_of_isSound hsound
    rw [hfold] at h
    cases h
    refine ⟨⟨Matcher.ofTrie b.trie, rfl, hreachable.build (.refl b.trie)⟩, ?_⟩
    intro d
    apply hsound.ne_empty d (mem_all d)
  · rw [foldlM_register_of_isFirstFault he] at h
    cases h

/-! ### The matcher -/

/-- The matcher `m` recognises the delimiters, and none of them is empty. -/
structure IsMatcher (config : Config) (m : Matcher Kind) : Prop where
  holds : m.trie.Holds config.patterns
  spelling_ne_nil : ∀ d, config.spelling d ≠ []

/-- A lexer of accepted settings has a matcher of the delimiters, and the escape character and
the chunk size of the settings. -/
theorem of_ofConfig_eq_ok {l : Lexer} (h : Lexer.ofConfig config = .ok l) :
  ∃ m, config.IsMatcher m
    ∧ l = Lexer.ofAutomaton (.built m) config.escape config.maxTextChunk
  := by
  obtain ⟨a, ha, hl⟩ := exists_of_bind_eq_ok h
  cases hl
  obtain ⟨⟨m, rfl, hreachable⟩, hne⟩ := reachable_automaton ha
  have hspelling : ∀ d, config.spelling d ≠ [] := by
    intro d
    simpa [spelling] using hne d
  exact ⟨m, ⟨hreachable.holds, hspelling⟩, rfl⟩

namespace IsMatcher

variable {m : Matcher Kind} (h : config.IsMatcher m)
include h

theorem wellFormed :
  m.trie.WellFormed
  := h.holds.wellFormed

/-- A node is tagged with the delimiter that its path spells. -/
theorem tag?_eq_some_iff {n : Nat} (hn : n < m.trie.size) (k : Kind) :
  m.trie.tag? n = some k ↔ ∃ d, k = .delimiter d ∧ config.spelling d = m.trie.path n
  := by
  rw [h.holds.tag?_eq_some_iff n hn, mem_patterns_iff]
  simp only [spelling, String.ext_iff, String.toList_ofList]

theorem tag?_eq_none_iff {n : Nat} (hn : n < m.trie.size) :
  m.trie.tag? n = none ↔ ∀ d, config.spelling d ≠ m.trie.path n
  := by
  rw [Option.eq_none_iff_forall_ne_some]
  constructor
  · intro hnone d hd
    apply hnone (.delimiter d)
    apply (h.tag?_eq_some_iff hn _).mpr ⟨d, rfl, hd⟩
  · intro hne k hk
    obtain ⟨d, -, hd⟩ := (h.tag?_eq_some_iff hn k).mp hk
    apply hne d hd

/-- The paths are what the delimiters start with. -/
theorem isPath_iff (q : List Char) :
  m.trie.IsPath q ↔ ∃ d, q <+: config.spelling d
  := by
  rw [h.holds.isPath_iff]
  constructor
  · rintro (rfl | ⟨p, hp, hq⟩)
    · exact ⟨.opening, List.nil_prefix⟩
    · obtain ⟨d, -, hd⟩ := (mem_patterns_iff p.1 p.2).mp hp
      use d
      rwa [spelling, hd]
  · rintro ⟨d, hd⟩
    right
    use config.pattern d, (mem_patterns_iff _ _).mpr ⟨d, rfl, rfl⟩
    apply hd

/-- Different delimiters are spelled differently. -/
theorem spelling_injective :
  Function.Injective config.spelling
  := by
  intro d d' hdd'
  obtain ⟨n, hn, hpath⟩ := (h.isPath_iff (config.spelling d)).mpr ⟨d, List.prefix_rfl⟩
  have htag := (h.tag?_eq_some_iff hn (.delimiter d)).mpr ⟨d, rfl, hpath.symm⟩
  have htag' := (h.tag?_eq_some_iff hn (.delimiter d')).mpr ⟨d', rfl, hdd' ▸ hpath.symm⟩
  rw [htag] at htag'
  cases htag'
  rfl

/-- No delimiter ends at the root. -/
theorem tag?_root :
  m.trie.tag? Trie.root = none
  := by
  rw [h.tag?_eq_none_iff h.wellFormed.root_lt_size, h.wellFormed.path_root]
  apply h.spelling_ne_nil

/-- The path of the root contains no delimiter. -/
theorem not_infix_path_root (d : Delimiter) :
  ¬ config.spelling d <:+: m.trie.path Trie.root
  := by
  rw [h.wellFormed.path_root, List.infix_nil]
  apply h.spelling_ne_nil

end IsMatcher

end TemplateLexer.Config
