import TemplateLexer.Proofs.Lexer.Session
import TemplateLexer.Proofs.Raw.Contents

/-!
# Where the contents of tokens come from

No request makes a character up or uses one twice: a token and a delimiter that is then pending
have no other characters than the delimiter that was pending before and those taken from the cursor
(`Lexer.IsConfigured.exists_accounts_next`).  So the tokens of a session contain a character at most
as often as the source has delivered it (`Session.count_content_after`), with one exception: when
the first read of a source fails, the lexer stands on a NUL that the source never delivered, and
this may become part of a token.
-/

namespace TemplateLexer

/-! ### Requests -/

namespace Lexer

variable {config : Config} {m : Matcher Kind} {l : Lexer}

/-- The tokens that are found but not yet returned. -/
def owed (l : Lexer) : List Token :=
  l.pending.toList.map .empty

/-- A request takes the characters `cs`; the content of what it returns and of what is owed after it
is made of these and of the content owed before. -/
structure Accounts (config : Config) (l : Lexer) (step : Except Error Token × Lexer)
    (cs : List Char) : Prop where
  takes : l.cursor.Takes cs step.2.cursor
  content_subperm : ((step.1.toOption.toList ++ step.2.owed).flatMap (Token.content config)).Subperm
    (l.owed.flatMap (Token.content config) ++ cs)

theorem exists_accounts_nextBlock (config : Config) (l : Lexer) :
  ∃ cs, l.Accounts config l.nextBlock cs
  := by
  obtain ⟨cs, hcuts⟩ := l.cursor.exists_cuts_nextLexeme config l.escape
  have howed : l.nextBlock.2.owed = l.owed := rfl
  use cs, hcuts.takes
  rw [List.flatMap_append, howed]
  apply List.Subperm.trans _ List.perm_append_comm.subperm
  apply List.Subperm.append _ (List.Subperm.refl _)
  rcases hlexeme : l.cursor.nextLexeme l.escape with ⟨e | t, next⟩
  · rw [nextBlock, hlexeme]
    apply List.nil_subperm
  · have hcontent := hcuts.content_sublist t (congrArg Prod.fst hlexeme)
    rw [nextBlock, hlexeme]
    simpa [Except.toOption] using hcontent.subperm

theorem IsConfigured.exists_accounts_nextRaw (h : l.IsConfigured config m) :
  ∃ cs, l.Accounts config l.nextRaw cs
  := by
  have hmatcher : l.automaton.matcher? = some m := by rw [h.automaton_eq]; rfl
  rw [nextRaw, hmatcher]
  cases hpending : l.pending with
  | some k =>
    use [], .refl l.cursor
    rw [owed, owed, hpending, List.append_nil]
    rfl
  | none =>
    dsimp only
    obtain ⟨e | chunk, next, cs, hchunk, htakes, hcontent⟩ :=
      Cursor.exists_takes_nextChunk h.isMatcher l.cursor l.escape l.maxTextChunk
    · rw [hchunk]
      use cs, htakes
      apply List.nil_subperm
    · rw [hchunk]
      use cs, htakes
      rw [owed, owed, hpending]
      apply (hcontent chunk rfl).subperm

/-- A request returns and leaves pending only what was pending before or is taken by it. -/
theorem IsConfigured.exists_accounts_next (h : l.IsConfigured config m) (mode : Mode) :
  ∃ cs, l.Accounts config (l.next mode) cs
  := by
  obtain ⟨cs, haccounts⟩ : ∃ cs, l.Accounts config (l.produce mode) cs := by
    cases mode with
    | block => apply exists_accounts_nextBlock
    | raw => apply h.exists_accounts_nextRaw
  use cs
  rw [next]
  rcases hproduce : l.produce mode with ⟨e | t, next⟩ <;> rw [hproduce] at haccounts
  · exact haccounts
  · exact ⟨haccounts.takes, haccounts.content_subperm⟩

theorem owed_reset (l : Lexer) (source : Source) :
  (l.reset source).2.owed = []
  := by
  rw [owed, pending_reset]
  rfl

end Lexer

/-! ### Sources that fail at once -/

namespace Source

/-- The character that a lexer stands on after the first read of the source has failed, which the
source has not delivered. -/
def placeholder : Source → List Char
  | .failed _ :: _ => ['\x00']
  | _ => []

/-- What a lexer stands on after the first read and what its source delivers then is the placeholder
and all that the source has delivered. -/
theorem placeholder_append_delivered {source rest : Source}
    (h : rest <:+ (Cursor.before source).advance.2.source) :
  (Cursor.before source).advance.2.look.chars
      ++ (Cursor.before source).advance.2.source.delivered rest
    = source.placeholder ++ source.delivered rest
  := by
  cases source with
  | nil => rfl
  | cons d ds =>
    have hsuffix : rest <:+ ds := by cases d <;> exact h
    rw [delivered_trans (List.suffix_cons d ds) hsuffix, delivered_cons_self]
    cases d <;> rfl

end Source

/-! ### Sessions -/

namespace Session

variable {config : Config} {m : Matcher Kind} {l : Lexer}

/-- What the tokens of a session and those still owed contain was taken since the lexer was bound to
its source. -/
structure IsAccounted (config : Config) (m : Matcher Kind) (s : Session) (cs : List Char) :
    Prop where
  isConfigured : s.lexer.IsConfigured config m
  takes : (Cursor.before s.source).advance.2.Takes cs s.lexer.cursor
  content_subperm : ((s.tokens ++ s.lexer.owed).flatMap (Token.content config)).Subperm cs

theorem isAccounted_new (hm : config.IsMatcher m) :
  (new (.ofAutomaton (.built m) config.escape config.maxTextChunk)).IsAccounted config m []
  := by
  constructor
  · exact ⟨hm, rfl, rfl, rfl⟩
  · apply Cursor.Takes.refl
  · apply List.nil_subperm

theorem IsAccounted.exists_answer {s : Session} {cs : List Char} (h : s.IsAccounted config m cs)
    (r : Request) :
  ∃ ds, (s.answer r).IsAccounted config m ds
  := by
  cases r with
  | reset source =>
    use []
    constructor
    · apply h.isConfigured.of_sameSettings (Lexer.sameSettings_reset _ source)
    · rw [answer, Lexer.cursor_reset]
      apply Cursor.Takes.refl
    · rw [answer, Lexer.owed_reset]
      apply List.nil_subperm
  | next mode =>
    obtain ⟨ds, haccounts⟩ := h.isConfigured.exists_accounts_next mode
    use cs ++ ds
    constructor
    · apply h.isConfigured.of_sameSettings (Lexer.sameSettings_next _ mode)
    · apply h.takes.trans haccounts.takes
    · have hbefore := h.content_subperm
      have hnext := haccounts.content_subperm
      rw [List.flatMap_append] at hbefore
      rw [answer, List.append_assoc, List.flatMap_append]
      apply ((List.Subperm.refl _).append hnext).trans
      rw [← List.append_assoc]
      apply hbefore.append (List.Subperm.refl ds)

/-- The tokens contain what the source has delivered, but for the placeholder. -/
theorem IsAccounted.content_subperm_delivered {s : Session} {cs : List Char}
    (h : s.IsAccounted config m cs) :
  (s.tokens.flatMap (Token.content config)).Subperm (s.source.placeholder ++ s.delivered)
  := by
  have hcontent := h.content_subperm
  rw [List.flatMap_append] at hcontent
  have hchars := h.takes.chars_eq
  rw [Source.placeholder_append_delivered h.takes.suffix] at hchars
  rw [delivered, hchars]
  apply ((List.sublist_append_left _ _).subperm.trans hcontent).trans
  apply (List.sublist_append_left cs _).subperm

/-- Whatever a lexer was asked for, and whether or not it failed: no character occurs more often in
the tokens returned since it was bound to its source than the source has delivered it, except that a
NUL may occur once more when the first read of the source failed. -/
theorem count_content_after (h : Lexer.ofConfig config = .ok l) (requests : List Request)
    (c : Char) :
  let s := (new l).after requests
  (s.tokens.flatMap (Token.content config)).count c
    ≤ s.delivered.count c + s.source.placeholder.count c
  := by
  intro s
  obtain ⟨m, hm, rfl⟩ := Config.of_ofConfig_eq_ok h
  obtain ⟨cs, hs⟩ : ∃ cs, s.IsAccounted config m cs := by
    apply after_induction (P := fun s => ∃ cs, s.IsAccounted config m cs)
    · rintro s r ⟨cs, hs⟩
      apply hs.exists_answer r
    · exact ⟨[], isAccounted_new hm⟩
  have hcount := hs.content_subperm_delivered.count_le c
  rw [List.count_append] at hcount
  omega

/-- A failure between `&` and `b` loses nothing and makes nothing up: the unknown `&` is handed back
and returned as text after the delimiter that was pending. -/
theorem count_content_after_failure :
  ∃ l, Lexer.ofConfig .default = .ok l ∧
    let s := (new l).after [
      .reset [.char 'a', .char '\x7b', .char '&', .failed ⟨.other, "boom"⟩, .char 'b'],
      .next .raw, .next .block, .next .block, .next .raw, .next .raw]
    s.tokens = [.ofText ['a'], ⟨.unknown, "&"⟩, .empty (.delimiter .opening), .ofText ['&', 'b']]
      ∧ s.delivered = ['a', '\x7b', '&', 'b']
      ∧ ∀ c, (s.tokens.flatMap (Token.content .default)).count c
        ≤ s.delivered.count c + s.source.placeholder.count c
  := by
  refine ⟨_, rfl, by cbv, by cbv, ?_⟩
  intro c
  apply count_content_after (show Lexer.ofConfig .default = .ok _ from rfl)

/-- When the first read of a source fails, the text returned next starts with a NUL that the source
has not delivered. -/
theorem not_count_content_after_failed_reset :
  ∃ l, Lexer.ofConfig .default = .ok l ∧
    let s := (new l).after [.reset [.failed ⟨.other, "boom"⟩, .char 'a'], .next .raw]
    s.tokens = [.ofText ['\x00', 'a']] ∧ s.delivered = ['a']
      ∧ ¬ ∀ c, (s.tokens.flatMap (Token.content .default)).count c ≤ s.delivered.count c
  := by
  refine ⟨_, rfl, ?_⟩
  intro s
  have htokens : s.tokens = [.ofText ['\x00', 'a']] := by cbv
  have hdelivered : s.delivered = ['a'] := by cbv
  refine ⟨htokens, hdelivered, ?_⟩
  rw [htokens, hdelivered]
  intro hle
  exact absurd (hle '\x00') (by decide)

end Session

end TemplateLexer
