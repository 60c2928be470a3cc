import TemplateLexer.Proofs.Config.Automaton

/-!
# Reachable lexers

A lexer of settings is made by `Lexer.ofConfig`, bound to inputs by `reset` and asked for
tokens by `next`, in any order and also after errors.  None of this changes what it
recognises: a reachable lexer is still `IsConfigured`.  What a request in raw mode does to a lexer,
reachable or not, is one of the cases of `RawStep`.
-/

namespace TemplateLexer.Lexer

/-- The lexer is made from the settings, and then reset and asked for tokens any number of
times. -/
inductive Reachable (config : Config) : Lexer → Prop
  | new {l : Lexer} (h : ofConfig config = .ok l) : Reachable config l
  | reset {l : Lexer} (h : Reachable config l) (source : Source) :
      Reachable config (l.reset source).2
  | next {l : Lexer} (h : Reachable config l) (mode : Mode) : Reachable config (l.next mode).2

/-- The lexer recognises the delimiters of the settings with the matcher `m`. -/
structure IsConfigured (config : Config) (m : Matcher Kind) (l : Lexer) : Prop where
  isMatcher : config.IsMatcher m
  automaton_eq : l.automaton = .built m
  escape_eq : l.escape = config.escape
  maxTextChunk_eq : l.maxTextChunk = config.maxTextChunk

/-! ### What a request does -/

theorem cursor_next (l : Lexer) (mode : Mode) :
  (l.next mode).2.cursor = (l.produce mode).2.cursor
  := by
  rw [next]
  rcases l.produce mode with ⟨_ | _, _⟩ <;> rfl

/-- The ways in which a request in raw mode ends: with the delimiter that was pending, with a chunk,
with a failed read, or without a matcher. -/
inductive RawStep (l : Lexer) (r : Except Error Token × Lexer) : Prop
  | pending {k : Kind} (hpending : l.pending = some k)
      (h : r = (.ok (.empty k), { l with pending := none }))
  | chunk {m : Matcher Kind} {chunk : Chunk Kind} {cursor : Cursor} (hpending : l.pending = none)
      (hmatcher : l.automaton.matcher? = some m)
      (hchunk : l.cursor.nextChunk m l.escape l.maxTextChunk = (.ok chunk, cursor))
      (h : r = (.ok chunk.token, { l with cursor, pending := chunk.pending }))
  | failed {m : Matcher Kind} {e : IoError} {cursor : Cursor} (hpending : l.pending = none)
      (hmatcher : l.automaton.matcher? = some m)
      (hchunk : l.cursor.nextChunk m l.escape l.maxTextChunk = (.error e, cursor))
      (h : r = (.error (.io e), { l with cursor }))
  | unmatched {e : Error} {result : Except IoError Unit} {cursor : Cursor}
      (hpending : l.pending = none) (hmatcher : l.automaton.matcher? = none)
      (hadvance : l.cursor.advance = (result, cursor)) (he : e.mismatch? = none)
      (h : r = (.error e, { l with cursor }))

theorem rawStep (l : Lexer) :
  l.RawStep l.nextRaw
  := by
  rw [nextRaw]
  cases hpending : l.pending with
  | some k => exact .pending hpending rfl
  | none =>
    cases hmatcher : l.automaton.matcher? with
    | none =>
      dsimp only
      rcases hadvance : l.cursor.advance with ⟨e | _, cursor⟩
      · exact .unmatched hpending hmatcher hadvance rfl (by rw [hpending])
      · exact .unmatched hpending hmatcher hadvance rfl (by rw [hpending])
    | some m =>
      dsimp only
      rcases hchunk : l.cursor.nextChunk m l.escape l.maxTextChunk with ⟨e | chunk, cursor⟩
      · exact .failed hpending hmatcher hchunk (by rw [hpending])
      · exact .chunk hpending hmatcher hchunk rfl

/-- A request in raw mode leaves the cursor, advances it, or reads a chunk with it. -/
theorem cursor_nextRaw (l : Lexer) :
  l.nextRaw.2.cursor = l.cursor ∨ l.nextRaw.2.cursor = l.cursor.advance.2
    ∨ ∃ m : Matcher Kind, l.nextRaw.2.cursor = (l.cursor.nextChunk m l.escape l.maxTextChunk).2
  := by
  rcases l.rawStep with ⟨-, h⟩ | ⟨-, -, hchunk, h⟩ | ⟨-, -, hchunk, h⟩ | ⟨-, -, hadvance, -, h⟩
  · exact .inl (by rw [h])
  · exact .inr (.inr ⟨_, by rw [h, hchunk]⟩)
  · exact .inr (.inr ⟨_, by rw [h, hchunk]⟩)
  · exact .inr (.inl (by rw [h, hadvance]))

/-! ### What a request leaves as it is -/

/-- The lexers have the same settings. -/
structure SameSettings (l l' : Lexer) : Prop where
  automaton_eq : l'.automaton = l.automaton
  escape_eq : l'.escape = l.escape
  maxTextChunk_eq : l'.maxTextChunk = l.maxTextChunk

theorem SameSettings.trans {l l' l'' : Lexer} (h : SameSettings l l') (h' : SameSettings l' l'') :
  SameSettings l l''
  := by
  constructor
  · rw [h'.automaton_eq, h.automaton_eq]
  · rw [h'.escape_eq, h.escape_eq]
  · rw [h'.maxTextChunk_eq, h.maxTextChunk_eq]

theorem SameSettings.symm {l l' : Lexer} (h : SameSettings l l') :
  SameSettings l' l
  := ⟨h.automaton_eq.symm, h.escape_eq.symm, h.maxTextChunk_eq.symm⟩

section SameSettings

variable (l : Lexer)

theorem sameSettings_reset (source : Source) :
  SameSettings l (l.reset source).2
  := by
  rw [reset]
  rcases (Cursor.before source).advance with ⟨_ | _, cursor⟩ <;> exact ⟨rfl, rfl, rfl⟩

theorem sameSettings_nextRaw :
  SameSettings l l.nextRaw.2
  := by
  rcases l.rawStep with ⟨-, h⟩ | ⟨-, -, -, h⟩ | ⟨-, -, -, h⟩ | ⟨-, -, -, -, h⟩
  all_goals
    rw [h]
    exact ⟨rfl, rfl, rfl⟩

theorem sameSettings_next (mode : Mode) :
  SameSettings l (l.next mode).2
  := by
  have h : SameSettings l (l.produce mode).2 := by
    cases mode with
    | block => exact ⟨rfl, rfl, rfl⟩
    | raw => apply sameSettings_nextRaw
  rw [next]
  rcases hproduce : l.produce mode with ⟨_ | _, l'⟩ <;> rw [hproduce] at h
  · exact h
  · exact ⟨h.automaton_eq, h.escape_eq, h.maxTextChunk_eq⟩

end SameSettings

section IsConfigured

variable {config : Config} {m : Matcher Kind} {l l' : Lexer}

theorem IsConfigured.of_sameSettings (h : l.IsConfigured config m) (hl' : SameSettings l l') :
  l'.IsConfigured config m
  := by
  constructor
  · apply h.isMatcher
  · rw [hl'.automaton_eq, h.automaton_eq]
  · rw [hl'.escape_eq, h.escape_eq]
  · rw [hl'.maxTextChunk_eq, h.maxTextChunk_eq]

/-- A reachable lexer still has the settings that it was made from. -/
theorem Reachable.exists_isConfigured (h : Reachable config l) :
  ∃ m, l.IsConfigured config m
  := by
  induction h with
  | new h =>
    obtain ⟨m, hm, rfl⟩ := Config.of_ofConfig_eq_ok h
    exact ⟨m, hm, rfl, rfl, rfl⟩
  | reset h source ih =>
    obtain ⟨m, hm⟩ := ih
    use m
    apply hm.of_sameSettings (sameSettings_reset _ source)
  | next h mode ih =>
    obtain ⟨m, hm⟩ := ih
    use m
    apply hm.of_sameSettings (sameSettings_next _ mode)

/-- A reachable lexer still has the automaton of its settings. -/
theorem Reachable.automaton_eq_ok (h : Reachable config l) :
  config.automaton = .ok l.automaton
  := by
  induction h with
  | new h =>
    obtain ⟨a, ha, hl⟩ := Config.exists_of_bind_eq_ok h
    cases hl
    apply ha
  | reset h source ih => rw [(sameSettings_reset _ source).automaton_eq, ih]
  | next h mode ih => rw [(sameSettings_next _ mode).automaton_eq, ih]

end IsConfigured

end TemplateLexer.Lexer
