import TemplateLexer.Cursor

/-!
# Scanning

`Cursor.scan` reads characters as long as a step function wants them.  For every character
the step gives its `Verdict`: the character stays under the cursor and the scan is over,
it is taken and the scan goes on, or it is taken and the scan is over.  The scan is also
over at the end of the input, and when the source fails.

`run` is the same on a list of characters: it gives the last state and the characters that
were not taken.
-/

namespace TemplateLexer

variable {σ : Type}

/-- What a scan does with the character under the cursor, and its next state. -/
inductive Verdict (σ : Type) where
  /-- Leave the character and stop. -/
  | leave (s : σ)
  /-- Take the character and go on. -/
  | take (s : σ)
  /-- Take the character and stop. -/
  | finish (s : σ)
  deriving DecidableEq, Repr

/-- The state after scanning the characters `cs`, and those of them that are left. -/
def Verdict.run (step : σ → Char → Verdict σ) (s : σ) : List Char → σ × List Char
  | [] => (s, [])
  | c :: cs =>
    match step s c with
    | .leave s => (s, c :: cs)
    | .take s => run step s cs
    | .finish s => (s, cs)

namespace Cursor

/-- The state after scanning from the cursor on, and the cursor after the characters
taken. -/
def scan (step : σ → Char → Verdict σ) (s : σ) (cursor : Cursor) :
    Except IoError σ × Cursor :=
  match _hlook : cursor.look with
  | .ended => (.ok s, cursor)
  | .on c _ =>
    match step s c with
    | .leave s => (.ok s, cursor)
    | .take s =>
      match _hadvance : cursor.advance with
      | (.error e, cursor) => (.error e, cursor)
      | (.ok (), next) => scan step s next
    | .finish s =>
      match cursor.advance with
      | (.error e, cursor) => (.error e, cursor)
      | (.ok (), cursor) => (.ok s, cursor)
termination_by cursor.size
decreasing_by exact size_lt_of_advance_eq (by simp [_hlook]) _hadvance

theorem scan_of_ended (step : σ → Char → Verdict σ) (s : σ) {cursor : Cursor}
    (h : cursor.look = .ended) :
  scan step s cursor = (.ok s, cursor)
  := by
  rw [scan]
  split
  case h_1 => rfl
  case h_2 hlook =>
    rw [h] at hlook
    cases hlook

theorem scan_of_on (step : σ → Char → Verdict σ) (s : σ) {cursor : Cursor} {c : Char}
    {handedBack : Option Char} (h : cursor.look = .on c handedBack) :
  scan step s cursor =
    match step s c with
    | .leave s => (.ok s, cursor)
    | .take s =>
      match cursor.advance with
      | (.error e, cursor) => (.error e, cursor)
      | (.ok (), next) => scan step s next
    | .finish s =>
      match cursor.advance with
      | (.error e, cursor) => (.error e, cursor)
      | (.ok (), cursor) => (.ok s, cursor)
  := by
  rw [scan]
  split
  case h_1 hlook =>
    rw [h] at hlook
    cases hlook
  case h_2 hlook =>
    rw [h] at hlook
    cases hlook
    cases step s c with
    | leave s => rfl
    | take s =>
      dsimp only
      split
      case h_1 hadvance => rw [hadvance]
      case h_2 hadvance => rw [hadvance]
    | finish s => rfl

/-- Over a source that does not fail, scanning from a cursor on is scanning the remaining
input. -/
theorem scan_of_isErrorFree (step : σ → Char → Verdict σ) (s : σ) {cursor : Cursor}
    (h : cursor.source.IsErrorFree) :
  (scan step s cursor).1 = .ok (Verdict.run step s cursor.remaining).1
    ∧ (scan step s cursor).2.source.IsErrorFree
    ∧ (scan step s cursor).2.remaining = (Verdict.run step s cursor.remaining).2
  := by
  fun_induction scan step s cursor with
  | case1 s cursor hlook => simp [remaining, hlook, Verdict.run, h]
  | case2 s cursor c handedBack hlook s' hstep =>
    simp [remaining, hlook, Verdict.run, hstep, h]
  | case3 s cursor c handedBack hlook s' hstep e next hadvance =>
    have := (advance_of_isErrorFree h).1
    simp [hadvance] at this
  | case4 s cursor c handedBack hlook s' hstep next hadvance ih =>
    obtain ⟨-, hfree, hremaining⟩ := advance_of_isErrorFree h
    simp only [hadvance] at hfree hremaining
    rw [remaining_of_look hlook, ← hremaining, Verdict.run, hstep]
    apply ih hfree
  | case5 s cursor c handedBack hlook s' hstep e next hadvance =>
    have := (advance_of_isErrorFree h).1
    simp [hadvance] at this
  | case6 s cursor c handedBack hlook s' hstep next hadvance =>
    obtain ⟨-, hfree, hremaining⟩ := advance_of_isErrorFree h
    simp only [hadvance] at hfree hremaining
    rw [remaining_of_look hlook, ← hremaining, Verdict.run, hstep]
    exact ⟨rfl, hfree, rfl⟩

end Cursor

end TemplateLexer
