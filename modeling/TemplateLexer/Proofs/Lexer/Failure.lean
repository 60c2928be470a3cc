import TemplateLexer.Proofs.Cursor.Simulation
import TemplateLexer.Proofs.Lexer.Session

/-!
# Failed reads

A request fails with an input error exactly when one of its reads fails (`Lexer.exists_reads_next`).
The text collected for the request is lost then, but nothing else is: the current token and the
pending delimiter stay, and the cursor stands on the last character delivered with none handed back
(`Lexer.getLast?_delivered_after`).  So the lexer goes on like a new one that is bound to this
character and the rest of the source (`Lexer.goesOnLike`), but for a pending delimiter.
-/

namespace TemplateLexer

namespace Cursor

/-! ### Reads of a cursor -/

/-- Beyond a cursor the source has delivered some of `source`, without a failure. -/
structure ReadsOn (source : Source) (cursor cursor' : Cursor) : Prop where
  eq : cursor' = cursor
  exists_reads : ∃ ds : Source, source = ds ++ cursor.source ∧ ds.IsErrorFree

/-- The source has failed once with `e` after delivering some of `source`, and the cursor is still
on a character, with none handed back. -/
structure StopsAt (source : Source) (e : IoError) (cursor cursor' : Cursor) : Prop where
  eq : cursor' = cursor
  exists_reads : ∃ ds : Source, source = ds ++ .failed e :: cursor.source ∧ ds.IsErrorFree
  exists_look : ∃ c, cursor.look = .on c none

/-- Cursors read on until a read fails. -/
theorem isSimulation_readsOn (source : Source) :
  IsSimulation (ReadsOn source) (StopsAt source)
  := by
  constructor
  · rintro cursor _ ⟨rfl, -⟩
    rfl
  · rintro ⟨look, rest, position⟩ _ ⟨rfl, ds, hds, hfree⟩
    have hsnoc {d : Delivery} {rest : Source} (hd : ∀ e, d ≠ .failed e)
        (hrest : source = ds ++ d :: rest) :
        ∃ ds : Source, source = ds ++ rest ∧ ds.IsErrorFree := by
      refine ⟨ds ++ [d], by simp [hrest], ?_⟩
      intro e he
      rcases List.mem_append.mp he with he | he
      · apply hfree e he
      · apply hd e (List.mem_singleton.mp he).symm
    match look, rest with
    | .ended, _ => exact .done rfl rfl ⟨rfl, ds, hds, hfree⟩
    | .on _ (some _), _ => exact .done rfl rfl ⟨rfl, ds, hds, hfree⟩
    | .on _ none, [] => exact .done rfl rfl ⟨rfl, ds, hds, hfree⟩
    | .on _ none, .char _ :: _ => exact .done rfl rfl ⟨rfl, hsnoc (by simp) hds⟩
    | .on _ none, .ended :: _ => exact .done rfl rfl ⟨rfl, hsnoc (by simp) hds⟩
    | .on c none, .failed _ :: _ => exact .failed rfl rfl ⟨rfl, ⟨ds, hds, hfree⟩, c, rfl⟩
  · rintro cursor _ c ⟨rfl, hreads⟩
    exact ⟨rfl, by rwa [source_handBack]⟩

/-! ### The same input -/

/-- The cursors stand on the same and have the same source, if not the same position. -/
structure SameInput (cursor cursor' : Cursor) : Prop where
  look_eq : cursor'.look = cursor.look
  source_eq : cursor'.source = cursor.source

/-- The position of a cursor does not matter to its reads. -/
theorem isSimulation_sameInput :
  IsSimulation SameInput fun _ => SameInput
  := by
  constructor
  · intro cursor cursor' h
    apply h.look_eq
  · rintro ⟨look, source, position⟩ ⟨look', source', position'⟩ ⟨hlook, hsource⟩
    obtain rfl : look' = look := hlook
    obtain rfl : source' = source := hsource
    match look', source' with
    | .ended, _ => exact .done rfl rfl ⟨rfl, rfl⟩
    | .on _ (some _), _ => exact .done rfl rfl ⟨rfl, rfl⟩
    | .on _ none, [] => exact .done rfl rfl ⟨rfl, rfl⟩
    | .on _ none, .char _ :: _ => exact .done rfl rfl ⟨rfl, rfl⟩
    | .on _ none, .ended :: _ => exact .done rfl rfl ⟨rfl, rfl⟩
    | .on _ none, .failed _ :: _ => exact .failed rfl rfl ⟨rfl, rfl⟩
  · rintro ⟨look, source, position⟩ ⟨look', source', position'⟩ c ⟨hlook, hsource⟩
    obtain rfl : look' = look := hlook
    obtain rfl : source' = source := hsource
    cases look' <;> exact ⟨rfl, rfl⟩

end Cursor

namespace Lexer

variable {l l' : Lexer} {m : Matcher Kind}

/-! ### Requests in step -/

section InStep

variable {R : Cursor → Cursor → Prop} {Q : IoError → Cursor → Cursor → Prop}

/-- The results of two requests are the same, up to positions, and `R` holds of the cursors, or `Q`
after a failed read. -/
def InStep (R : Cursor → Cursor → Prop) (Q : IoError → Cursor → Cursor → Prop)
    (r r' : Except Error Token × Lexer) : Prop :=
  ReturnsAlike position (fun l l' => R l.cursor l'.cursor) (fun e l l' => Q e l.cursor l'.cursor)
    r r'

variable (h : Cursor.IsSimulation R Q) (hcursor : R l.cursor l'.cursor)
include h hcursor

theorem inStep_next_block (hescape : l'.escape = l.escape) :
  InStep R Q (l.next .block) (l'.next .block)
  := by
  rcases h.nextLexeme hcursor l.escape with
    ⟨hnext, hnext', hR⟩ | ⟨next, next', hnext, hnext', hR⟩ | ⟨hnext, hnext', hQ⟩
  · rw [← hescape] at hnext'
    exact .token (next_block_of_eq_ok hnext) (next_block_of_eq_ok hnext') hR
  · rw [← hescape] at hnext'
    exact .unterminated { l with cursor := next } { l' with cursor := next' }
      (next_block_of_eq_error hnext) (next_block_of_eq_error hnext') hR
  · rw [← hescape] at hnext'
    exact .failed (next_block_of_eq_error hnext) (next_block_of_eq_error hnext') hQ

theorem inStep_next_raw (hm : l.automaton = .built m) (hsettings : SameSettings l l')
    (hpending : l'.pending = l.pending) :
  InStep R Q (l.next .raw) (l'.next .raw) ∧ (l'.next .raw).2.pending = (l.next .raw).2.pending
  := by
  have hm' := hsettings.automaton_eq.trans hm
  cases hl : l.pending with
  | some k =>
    rw [next_raw_of_pending hl, next_raw_of_pending (hpending.trans hl)]
    exact ⟨.token rfl rfl hcursor, rfl⟩
  | none =>
    have hl' := hpending.trans hl
    rcases h.nextChunk hcursor m l.escape l.maxTextChunk with
      ⟨hnext, hnext', hR⟩ | ⟨hnext, hnext', hQ⟩
    · rw [← hsettings.escape_eq, ← hsettings.maxTextChunk_eq] at hnext'
      rw [next_raw_of_chunk hl hm hnext, next_raw_of_chunk hl' hm' hnext']
      exact ⟨.token rfl rfl hR, rfl⟩
    · rw [← hsettings.escape_eq, ← hsettings.maxTextChunk_eq] at hnext'
      rw [next_raw_of_eq_error hl hm hnext, next_raw_of_eq_error hl' hm' hnext']
      exact ⟨.failed rfl rfl hQ, hpending⟩

end InStep

/-! ### Requests that fail -/

/-- A request that fails moves the cursor and changes nothing else. -/
theorem next_of_error {mode : Mode} {e : Error} (h : (l.next mode).1 = .error e) :
  (l.next mode).2 = { l with cursor := (l.next mode).2.cursor }
  := by
  cases mode with
  | block =>
    rcases hnext : l.cursor.nextLexeme l.escape with ⟨_ | token, next⟩
    · rw [next_block_of_eq_error hnext]
    · rw [next_block_of_eq_ok hnext] at h
      cases h
  | raw =>
    rw [next, produce] at h ⊢
    rcases l.rawStep with ⟨-, hnext⟩ | ⟨-, -, -, hnext⟩ | ⟨-, -, -, hnext⟩ | ⟨-, -, -, -, hnext⟩
    · rw [hnext] at h
      cases h
    · rw [hnext] at h
      cases h
    · rw [hnext]
    · rw [hnext]

/-! ### Reads of a request -/

/-- A request fails with an input error exactly when one of its reads does, which is then its last:
it stands on a character and none is handed back. -/
theorem exists_reads_next (hm : l.automaton = .built m) (mode : Mode) :
  ∃ ds, l.cursor.source = ds ++ (l.next mode).2.cursor.source
    ∧ (∀ e, (l.next mode).1 = .error (.io e) ↔ .failed e ∈ ds)
    ∧ ∀ e, (l.next mode).1 = .error (.io e) → ∃ c, (l.next mode).2.cursor.look = .on c none
  := by
  have hsimulation := Cursor.isSimulation_readsOn l.cursor.source
  have hcursor : Cursor.ReadsOn l.cursor.source l.cursor l.cursor :=
    ⟨rfl, [], rfl, by simp [Source.IsErrorFree]⟩
  have hstep : InStep (Cursor.ReadsOn l.cursor.source) (Cursor.StopsAt l.cursor.source)
      (l.next mode) (l.next mode) := by
    cases mode with
    | block => apply inStep_next_block hsimulation hcursor rfl
    | raw => apply (inStep_next_raw hsimulation hcursor hm ⟨rfl, rfl, rfl⟩ rfl).1
  rcases hstep with ⟨hnext, -, -, ds, hds, hfree⟩ | ⟨_, _, hnext, -, -, ds, hds, hfree⟩
    | @⟨e, next, -, hnext, -, -, ⟨ds, hds, hfree⟩, c, hlook⟩
  · rw [hnext]
    exact ⟨ds, hds, fun e => iff_of_false (by simp) (hfree e), by simp⟩
  · rw [hnext]
    exact ⟨ds, hds, fun e => iff_of_false (by simp) (hfree e), by simp⟩
  · rw [hnext]
    have hmem (e' : IoError) : .failed e' ∈ ds ++ [.failed e] ↔ e' = e := by
      simp [hfree e']
    refine ⟨ds ++ [.failed e], by simpa using hds, ?_, fun _ _ => ⟨c, hlook⟩⟩
    intro e'
    rw [hmem, Except.error.injEq, Error.io.injEq, eq_comm]

/-! ### The character of the cursor -/

/-- A cursor with no character handed back, once on the first character of `source`, is on the last
one that `source` has delivered. -/
theorem getLast?_delivered {cursor next : Cursor} {source : Source} {c d : Char} {cs : List Char}
    (hcursor : cursor.look = .on d none) (hsource : source = .char d :: cursor.source)
    (h : cursor.Takes cs next) (hnext : next.look = .on c none) :
  (source.delivered next.source).getLast? = some c
  := by
  have hchars := h.chars_eq
  rw [hcursor, hnext] at hchars
  have hdelivered : source.delivered next.source = cs ++ [c] := by
    rw [hsource, Source.delivered_trans (List.suffix_cons _ _) h.suffix,
      Source.delivered_cons_self]
    exact hchars
  rw [hdelivered, List.getLast?_concat]

theorem exists_takes_after (l : Lexer) (modes : List Mode) :
  ∃ cs, l.cursor.Takes cs (l.after modes).cursor
  := by
  apply after_induction (P := fun l' => ∃ cs, l.cursor.Takes cs l'.cursor) _ ⟨[], .refl _⟩
  rintro l' mode ⟨cs, htakes⟩
  obtain ⟨ds, hnext⟩ := l'.exists_takes_next mode
  exact ⟨cs ++ ds, htakes.trans hnext⟩

theorem look_after_of_ended (h : l.cursor.look = .ended) (modes : List Mode) :
  (l.after modes).cursor.look = .ended
  := by
  apply after_induction (P := fun l => l.cursor.look = .ended) _ h
  intro l mode h
  rw [cursor_next_of_ended h, h]

/-- A lexer that was bound to `source`, and that is on a character with none handed back, is on the
last one that `source` has delivered. -/
theorem getLast?_delivered_after {source : Source} {hasData : Bool}
    (hreset : (l.reset source).1 = .ok hasData) (modes : List Mode) {c : Char}
    (hlook : ((l.reset source).2.after modes).cursor.look = .on c none) :
  (source.delivered ((l.reset source).2.after modes).cursor.source).getLast? = some c
  := by
  have hcursor := cursor_reset l source
  have hended (h : (l.reset source).2.cursor.look = .ended) : False := by
    rw [look_after_of_ended h] at hlook
    cases hlook
  match source with
  | [] => cases hended (congrArg _ hcursor)
  | .ended :: _ => cases hended (congrArg _ hcursor)
  | .failed e :: _ => cases hreset
  | .char d :: source =>
    obtain ⟨cs, htakes⟩ := exists_takes_after (l.reset (.char d :: source)).2 modes
    rw [hcursor] at htakes
    apply getLast?_delivered rfl rfl htakes hlook

/-! ### Going on -/

/-- In requests in the given modes a lexer goes on like `l'`: the results are the same, up to
positions, and so is the input that is left.  But the first request in raw mode returns `kept`, if
that is a delimiter, and leaves the input as it is. -/
def GoesOnLike : Option Kind → Lexer → Lexer → List Mode → Prop
  | _, _, _, [] => True
  | some k, l, l', .raw :: modes =>
    (l.next .raw).1 = .ok (.empty k) ∧ l.cursor.SameInput (l.next .raw).2.cursor
      ∧ GoesOnLike none (l.next .raw).2 l' modes
  | kept, l, l', mode :: modes =>
    InStep Cursor.SameInput (fun _ => Cursor.SameInput) (l.next mode) (l'.next mode)
      ∧ GoesOnLike kept (l.next mode).2 (l'.next mode).2 modes

/-- The inputs left by requests in step are the same whether or not these fail. -/
theorem InStep.sameInput {r r' : Except Error Token × Lexer}
    (h : InStep Cursor.SameInput (fun _ => Cursor.SameInput) r r') :
  r.2.cursor.SameInput r'.2.cursor
  := by
  rcases h with ⟨rfl, rfl, hR⟩ | ⟨_, _, rfl, rfl, hR⟩ | ⟨rfl, rfl, hQ⟩
  · exact hR
  · exact hR
  · exact hQ

theorem SameSettings.next (h : SameSettings l l') (mode : Mode) :
  SameSettings (l.next mode).2 (l'.next mode).2
  := by
  apply (sameSettings_next l mode).symm.trans
  apply h.trans (sameSettings_next l' mode)

theorem goesOnLike_block_iff {kept : Option Kind} {modes : List Mode} :
  GoesOnLike kept l l' (.block :: modes)
    ↔ InStep Cursor.SameInput (fun _ => Cursor.SameInput) (l.next .block) (l'.next .block)
      ∧ GoesOnLike kept (l.next .block).2 (l'.next .block).2 modes
  := by
  cases kept <;> exact Iff.rfl

/-- Lexers of the same settings and input go on alike, when they have the same delimiter pending or
when the first one keeps a delimiter that it has pending and the other has none. -/
theorem goesOnLike_of_elim (hm : l.automaton = .built m) (hsettings : SameSettings l l')
    (hinput : l.cursor.SameInput l'.cursor) {kept : Option Kind}
    (hkept : kept.elim (l'.pending = l.pending) fun k => l.pending = some k ∧ l'.pending = none)
    (modes : List Mode) :
  GoesOnLike kept l l' modes
  := by
  induction modes generalizing l l' kept with
  | nil => cases kept <;> trivial
  | cons mode modes ih =>
    have hm' := (sameSettings_next l mode).automaton_eq.trans hm
    cases mode with
    | block =>
      have hstep := inStep_next_block Cursor.isSimulation_sameInput hinput hsettings.escape_eq
      rw [goesOnLike_block_iff]
      refine ⟨hstep, ih hm' (hsettings.next .block) hstep.sameInput ?_⟩
      rwa [pending_next_block, pending_next_block]
    | raw =>
      cases kept with
      | none =>
        obtain ⟨hstep, hpending⟩ :=
          inStep_next_raw Cursor.isSimulation_sameInput hinput hm hsettings hkept
        exact ⟨hstep, ih hm' (hsettings.next .raw) hstep.sameInput hpending⟩
      | some k =>
        -- `l` returns what it has kept, while the other lexer is not asked
        obtain ⟨hl, hl'⟩ := hkept
        have hsettings' := (sameSettings_next l .raw).symm.trans hsettings
        rw [next_raw_of_pending hl] at hm' hsettings'
        rw [GoesOnLike, next_raw_of_pending hl]
        exact ⟨rfl, ⟨rfl, rfl⟩, ih hm' hsettings' hinput hl'⟩

/-- A lexer goes on like one of the same settings and input that has nothing pending, but for what
it has pending itself. -/
theorem goesOnLike (hm : l.automaton = .built m) (hsettings : SameSettings l l')
    (hinput : l.cursor.SameInput l'.cursor) (hpending : l'.pending = none) (modes : List Mode) :
  GoesOnLike l.pending l l' modes
  := by
  apply goesOnLike_of_elim hm hsettings hinput
  cases l.pending with
  | none => exact hpending
  | some k => exact ⟨rfl, hpending⟩

/-- A new lexer with the settings of `l`, bound to the character `c` and then to what the source of
`l` still holds. -/
def resume (l : Lexer) (c : Char) : Lexer :=
  ((ofAutomaton l.automaton l.escape l.maxTextChunk).reset (.char c :: l.cursor.source)).2

/-- A lexer on a character with none handed back goes on like a new one that is bound to this
character and the rest of the source. -/
theorem goesOnLike_resume (hm : l.automaton = .built m) {c : Char}
    (hlook : l.cursor.look = .on c none) (modes : List Mode) :
  GoesOnLike l.pending l (l.resume c) modes
  := by
  have hsettings : SameSettings l (l.resume c) := ⟨rfl, rfl, rfl⟩
  have hinput : l.cursor.SameInput (l.resume c).cursor := ⟨hlook.symm, rfl⟩
  apply goesOnLike hm hsettings hinput rfl

/-! ### Requests that read nothing -/

/-- The lexer whose source holds `source` instead. -/
def withSource (l : Lexer) (source : Source) : Lexer :=
  { l with cursor := { l.cursor with source } }

/-- A request reads nothing: whatever the source holds, the result is the same and the source is
left as it is. -/
def ReadsNothing (l : Lexer) (mode : Mode) : Prop :=
  ∀ source, (l.withSource source).next mode = (l.next mode).map id (·.withSource source)

theorem readsNothing_of_pending {k : Kind} (h : l.pending = some k) :
  l.ReadsNothing .raw
  := by
  intro source
  have h' : (l.withSource source).pending = some k := h
  rw [next_raw_of_pending h, next_raw_of_pending h']
  rfl

theorem readsNothing_of_ended (hm : l.automaton = .built m) (h : l.cursor.look = .ended)
    (mode : Mode) :
  l.ReadsNothing mode
  := by
  intro source
  have h' : (l.withSource source).cursor.look = .ended := h
  cases mode with
  | block =>
    rw [next_block_of_eq_ok (Cursor.nextLexeme_of_ended h _),
      next_block_of_eq_ok (Cursor.nextLexeme_of_ended h' _)]
    rfl
  | raw =>
    cases hpending : l.pending with
    | some k => apply readsNothing_of_pending hpending
    | none =>
      have hpending' : (l.withSource source).pending = none := hpending
      rw [next_raw_of_chunk hpending hm (Cursor.nextChunk_of_ended h m _ _),
        next_raw_of_chunk hpending' hm (Cursor.nextChunk_of_ended h' m _ _)]
      rfl

/-! ### Failures of a bound lexer -/

/-- What a failed read leaves of the lexer `l`, bound to `source`: the current token, the pending
delimiter, and a cursor on the last character delivered, from where `l'` goes on like a new
lexer. -/
structure LeavesOff (source : Source) (l l' : Lexer) : Prop where
  current_eq : l'.current = l.current
  pending_eq : l'.pending = l.pending
  exists_last : ∃ c, l'.cursor.look = .on c none
    ∧ (source.delivered l'.cursor.source).getLast? = some c
    ∧ ∀ later, GoesOnLike l'.pending l' (l'.resume c) later

/-- After any requests since a lexer was bound to `source`, a request fails with an input error
exactly when one of its reads does, and then it leaves off there.  A request that returns what is
pending, or is made at the end of the input, reads nothing. -/
theorem next_of_failed_read (hm : l.automaton = .built m) {source : Source} {hasData : Bool}
    (hreset : (l.reset source).1 = .ok hasData) (modes : List Mode) (mode : Mode) :
  let l' := (l.reset source).2.after modes
  (∃ reads, l'.cursor.source = reads ++ (l'.next mode).2.cursor.source
      ∧ ∀ e, (l'.next mode).1 = .error (.io e) ↔ .failed e ∈ reads)
    ∧ (∀ e, (l'.next mode).1 = .error (.io e) → LeavesOff source l' (l'.next mode).2)
    ∧ (mode = .raw ∧ l'.pending.isSome ∨ l'.cursor.isEnded → l'.ReadsNothing mode)
  := by
  intro l'
  have hsettings := (sameSettings_reset l source).trans (sameSettings_after _ modes)
  have hm' : l'.automaton = .built m := hsettings.automaton_eq.trans hm
  obtain ⟨reads, hreads, hfailed, hlook⟩ := exists_reads_next hm' mode
  refine ⟨⟨reads, hreads, hfailed⟩, ?_, ?_⟩
  · intro e he
    have hnext := next_of_error he
    obtain ⟨c, hc⟩ := hlook e he
    refine ⟨?_, ?_, c, hc, ?_, ?_⟩
    · rw [hnext]
    · rw [hnext]
    · rw [← after_concat] at hc ⊢
      apply getLast?_delivered_after hreset _ hc
    · apply goesOnLike_resume ((sameSettings_next l' mode).automaton_eq.trans hm') hc
  · rintro (⟨rfl, hpending⟩ | hended)
    · obtain ⟨k, hk⟩ := Option.isSome_iff_exists.mp hpending
      apply readsNothing_of_pending hk
    · apply readsNothing_of_ended hm' (of_decide_eq_true hended)

/-- A read fails in the symbol after a pair of braces.  The braces are still pending, and the `x`
before the failure is the character of the cursor. -/
theorem next_of_failed_read_braces :
  ∃ l m, ofConfig braces = .ok l ∧ l.automaton = .built m ∧
    let source := Source.ofString "a\x7b\x7bx" ++ .failed ⟨.other, "lost"⟩ :: Source.ofString "y"
    let l' := (l.reset source).2.after [.raw]
    ((l.reset source).1 = .ok true ∧ (l'.next .block).1 = .error (.io ⟨.other, "lost"⟩))
      ∧ (l'.next .block).2.pending = some (.delimiter .opening)
      ∧ (l'.next .block).2.cursor.look = .on 'x' none
      ∧ LeavesOff source l' (l'.next .block).2
  := by
  refine ⟨_, _, rfl, rfl, ⟨rfl, by cbv⟩, by cbv, by cbv, ?_⟩
  apply (next_of_failed_read rfl rfl [.raw] .block).2.1
  cbv

end Lexer

end TemplateLexer
