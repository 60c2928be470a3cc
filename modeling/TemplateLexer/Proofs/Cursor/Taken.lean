import Mathlib.Data.List.Basic
import TemplateLexer.Cursor.Scan

/-!
# Characters taken

A cursor takes the characters of its lookahead and those that its source delivers one after
another, whatever ends and failures come in between.  `Cursor.Takes` says which characters are
taken on the way from one cursor to another: with the lookahead afterwards they are the lookahead
before and what the source delivers on the way, and the position counts what it delivers.  What
the step of a scan keeps holds of the characters that the scan takes (`Cursor.takes_scan`).
-/

namespace TemplateLexer

/-! ### Deliveries -/

namespace Source

/-- The characters that `source` has delivered when `rest` is left of it. -/
def delivered (source rest : Source) : List Char :=
  (source.take (source.length - rest.length)).filterMap Delivery.char?

theorem delivered_append (ds rest : Source) :
  delivered (ds ++ rest) rest = ds.filterMap Delivery.char?
  := by
  simp [delivered]

@[simp]
theorem delivered_self (source : Source) :
  delivered source source = []
  := delivered_append [] source

theorem delivered_cons_self (d : Delivery) (source : Source) :
  delivered (d :: source) source = d.char?.toList
  := by
  rw [← List.singleton_append, delivered_append]
  cases d <;> rfl

theorem delivered_trans {a b c : Source} (hab : b <:+ a) (hbc : c <:+ b) :
  delivered a c = delivered a b ++ delivered b c
  := by
  obtain ⟨ds, rfl⟩ := hab
  obtain ⟨ds', rfl⟩ := hbc
  rw [delivered_append, delivered_append, ← List.append_assoc, delivered_append,
    List.filterMap_append]

end Source

/-- The characters of the lookahead. -/
def Lookahead.chars : Lookahead → List Char
  | ended => []
  | on c handedBack => c :: handedBack.toList

theorem Position.advanceAll_append (p : Position) (cs ds : List Char) :
  p.advanceAll (cs ++ ds) = (p.advanceAll cs).advanceAll ds
  := List.foldl_append

/-- What a verdict on the character `c` keeps: the relation `R` between the state and the
characters taken. -/
def Verdict.Keeps {σ : Type} (R : σ → List Char → Prop) (cs : List Char) (c : Char) :
    Verdict σ → Prop
  | leave s => R s cs
  | take s => R s (cs ++ [c])
  | finish s => R s (cs ++ [c])

namespace Cursor

/-! ### Taking -/

/-- The characters `cs` are taken on the way from a cursor to the next one. -/
structure Takes (cursor : Cursor) (cs : List Char) (next : Cursor) : Prop where
  suffix : next.source <:+ cursor.source
  chars_eq : cursor.look.chars ++ cursor.source.delivered next.source = cs ++ next.look.chars
  position_eq : next.position = cursor.position.advanceAll (cursor.source.delivered next.source)

variable {cursor next last : Cursor} {cs ds : List Char} {c : Char}

theorem Takes.refl (cursor : Cursor) :
  cursor.Takes [] cursor
  := by
  constructor
  · apply List.suffix_rfl
  · simp
  · simp [Position.advanceAll]

theorem Takes.trans (h : cursor.Takes cs next) (h' : next.Takes ds last) :
  cursor.Takes (cs ++ ds) last
  := by
  have hdelivered := Source.delivered_trans h.suffix h'.suffix
  constructor
  · apply h'.suffix.trans h.suffix
  · rw [hdelivered, ← List.append_assoc, h.chars_eq, List.append_assoc, h'.chars_eq,
      List.append_assoc]
  · rw [hdelivered, Position.advanceAll_append, ← h.position_eq, h'.position_eq]

/-- A cursor that advances takes the character that it stood on. -/
theorem takes_of_advance_eq_ok {handedBack : Option Char} (hlook : cursor.look = .on c handedBack)
    (h : cursor.advance = (.ok (), next)) :
  cursor.Takes [c] next
  := by
  obtain ⟨look, source, position⟩ := cursor
  obtain rfl : look = .on c handedBack := hlook
  match handedBack, source with
  | some d, source =>
    cases h
    exact ⟨List.suffix_rfl, by simp [Lookahead.chars], by simp [Position.advanceAll]⟩
  | none, [] =>
    cases h
    exact ⟨List.suffix_rfl, by simp [Lookahead.chars], by simp [Position.advanceAll]⟩
  | none, .char d :: source =>
    cases h
    refine ⟨List.suffix_cons _ _, ?_, ?_⟩ <;> rw [Source.delivered_cons_self] <;> rfl
  | none, .ended :: source =>
    cases h
    refine ⟨List.suffix_cons _ _, ?_, ?_⟩ <;> rw [Source.delivered_cons_self] <;> rfl
  | none, .failed e :: source => cases h

/-- A cursor that fails to advance takes nothing. -/
theorem takes_of_advance_eq_error {e : IoError} (h : cursor.advance = (.error e, next)) :
  cursor.Takes [] next ∧ next.position = cursor.position
  := by
  obtain ⟨look, source, position⟩ := cursor
  match look, source with
  | .ended, _ => cases h
  | .on _ (some _), _ => cases h
  | .on _ none, [] => cases h
  | .on _ none, .char _ :: _ => cases h
  | .on _ none, .ended :: _ => cases h
  | .on d none, .failed e :: source =>
    cases h
    refine ⟨⟨List.suffix_cons _ _, ?_, ?_⟩, rfl⟩ <;> rw [Source.delivered_cons_self] <;> rfl

/-- A cursor that advances leaves the other remaining characters. -/
theorem remaining_of_advance_eq_ok (h : cursor.advance = (.ok (), next)) :
  next.remaining = cursor.remaining.tail
  := by
  obtain ⟨look, source, position⟩ := cursor
  match look, source with
  | .ended, _ => cases h; rfl
  | .on _ (some _), _ => cases h; rfl
  | .on _ none, [] => cases h; rfl
  | .on _ none, .char _ :: _ => cases h; rfl
  | .on _ none, .ended :: _ => cases h; rfl
  | .on _ none, .failed _ :: _ => cases h

theorem exists_takes_advance (cursor : Cursor) :
  ∃ cs, cursor.Takes cs cursor.advance.2
  := by
  cases hlook : cursor.look with
  | ended =>
    use []
    have hadvance : cursor.advance.2 = cursor := by rw [advance, hlook]
    rw [hadvance]
    apply Takes.refl
  | on c handedBack =>
    rcases hadvance : cursor.advance with ⟨e | _, next⟩
    · exact ⟨[], (takes_of_advance_eq_error hadvance).1⟩
    · exact ⟨[c], takes_of_advance_eq_ok hlook hadvance⟩

/-! ### Scanning -/

/-- What every step keeps holds of the characters that a scan takes, and of its result if the
source does not fail. -/
theorem takes_scan {σ : Type} {step : σ → Char → Verdict σ} {R : σ → List Char → Prop}
    (hstep : ∀ s cs, R s cs → ∀ c, (step s c).Keeps R cs c) {s : σ} (h : R s cs)
    (cursor : Cursor) :
  ∃ ds, cursor.Takes ds (cursor.scan step s).2
    ∧ ∀ s', (cursor.scan step s).1 = .ok s' → R s' (cs ++ ds)
  := by
  fun_induction scan step s cursor generalizing cs with
  | case1 s cursor hlook =>
    use [], .refl cursor
    rintro _ ⟨⟩
    simpa using h
  | case2 s cursor c handedBack hlook s' hleave =>
    have hkeeps := hstep s cs h c
    rw [hleave] at hkeeps
    use [], .refl cursor
    rintro _ ⟨⟩
    rw [List.append_nil]
    exact hkeeps
  | case3 s cursor c handedBack hlook s' htake e next hadvance =>
    use [], (takes_of_advance_eq_error hadvance).1
    rintro _ ⟨⟩
  | case4 s cursor c handedBack hlook s' htake next hadvance ih =>
    have hkeeps := hstep s cs h c
    rw [htake] at hkeeps
    obtain ⟨ds, htakes, hresult⟩ := ih hkeeps
    use [c] ++ ds, (takes_of_advance_eq_ok hlook hadvance).trans htakes
    intro s'' hs''
    rw [← List.append_assoc]
    apply hresult s'' hs''
  | case5 s cursor c handedBack hlook s' hfinish e next hadvance =>
    use [], (takes_of_advance_eq_error hadvance).1
    rintro _ ⟨⟩
  | case6 s cursor c handedBack hlook s' hfinish next hadvance =>
    have hkeeps := hstep s cs h c
    rw [hfinish] at hkeeps
    use [c], takes_of_advance_eq_ok hlook hadvance
    rintro _ ⟨⟩
    exact hkeeps

/-- A scan with its result, the cursor after it and the characters taken. -/
theorem exists_takes_scan_of_keeps {σ : Type} {step : σ → Char → Verdict σ}
    {R : σ → List Char → Prop} (hstep : ∀ s cs, R s cs → ∀ c, (step s c).Keeps R cs c) {s : σ}
    (h : R s []) (cursor : Cursor) :
  ∃ result next cs, cursor.scan step s = (result, next) ∧ cursor.Takes cs next
    ∧ ∀ s', result = .ok s' → R s' cs
  := by
  obtain ⟨cs, htakes, hresult⟩ := takes_scan hstep h cursor
  exact ⟨_, _, cs, rfl, htakes, hresult⟩

/-- Whatever a scan looks for, it takes characters. -/
theorem exists_takes_scan {σ : Type} (step : σ → Char → Verdict σ) (s : σ) (cursor : Cursor) :
  ∃ result next cs, cursor.scan step s = (result, next) ∧ cursor.Takes cs next
  := by
  have hkeeps : ∀ s cs, True → ∀ c, (step s c).Keeps (fun _ _ => True) cs c := by
    intro s cs _ c
    cases step s c <;> trivial
  obtain ⟨result, next, cs, hscan, htakes, -⟩ :=
    exists_takes_scan_of_keeps (s := s) hkeeps trivial cursor
  exact ⟨result, next, cs, hscan, htakes⟩

/-- Whether or not its source can fail, a scan that does not fail is a scan of the remaining
characters. -/
theorem run_of_scan_eq_ok {σ : Type} {step : σ → Char → Verdict σ} {s s' : σ}
    (h : cursor.scan step s = (.ok s', next)) :
  Verdict.run step s cursor.remaining = (s', next.remaining)
  := by
  fun_induction scan step s cursor with
  | case1 s cursor hlook =>
    cases h
    rw [remaining, hlook, Verdict.run]
  | case2 s cursor c handedBack hlook s₁ hleave =>
    cases h
    rw [remaining_of_look hlook, Verdict.run, hleave]
  | case3 s cursor c handedBack hlook s₁ htake e next' hadvance => cases h
  | case4 s cursor c handedBack hlook s₁ htake next' hadvance ih =>
    rw [remaining_of_look hlook, ← remaining_of_advance_eq_ok hadvance, Verdict.run, htake]
    apply ih h
  | case5 s cursor c handedBack hlook s₁ hfinish e next' hadvance => cases h
  | case6 s cursor c handedBack hlook s₁ hfinish next' hadvance =>
    cases h
    rw [remaining_of_look hlook, ← remaining_of_advance_eq_ok hadvance, Verdict.run, hfinish]

end Cursor

end TemplateLexer
