import TemplateLexer.Proofs.Raw.Scan

/-!
# Escaped characters

An escaped character cuts raw text in two (`Matcher.pieces_append_escaped`).  What stands before
it is read as if the text ended there, so that a delimiter in progress becomes text; what stands
after it is read as if the text began there; and the character itself is text, whatever it is.
-/

namespace TemplateLexer

open Trie

/-- The pieces of letters on both sides of an escaped one are those of the letters before it, its
character, and the pieces of the letters after it, read from the root on. -/
theorem Matcher.pieces_append_escaped {κ : Type} (m : Matcher κ) (n : Nat) (ls : List Letter)
    (c : Char) (ls' : List Letter) :
  m.pieces n (ls ++ .escaped c :: ls') = m.pieces n ls ++ .char c :: m.pieces root ls'
  := by
  induction ls generalizing n with
  | nil => rfl
  | cons l ls ih =>
    cases l with
    | escaped d =>
      rw [List.cons_append, pieces, pieces, ih, List.append_assoc, List.cons_append]
    | plain d =>
      rw [List.cons_append, pieces, pieces, List.append_assoc]
      congr 1
      cases m.trie.tag? (m.move n d).1 with
      | none => apply ih
      | some k => apply congrArg _ (ih root)

namespace Lexer

variable {config : Config} {l : Lexer}

/-- An escaped character cuts a raw scan in two: the scan returns what scans of the texts before
and after it return, with the character as a text in between, up to where texts are split. -/
theorem Reachable.merge_scan_escaped (h : Reachable config l) {u : String}
    (hu : IsPaired config.escape u.toList) (c : Char) (v : String) :
  ∃ tokens before after : List Token,
    l.scan (u ++ String.ofList [config.escape, c] ++ v) = (tokens ++ [Token.endOfInput]).map .ok
      ∧ l.scan u = (before ++ [Token.endOfInput]).map .ok
      ∧ l.scan v = (after ++ [Token.endOfInput]).map .ok
      ∧ Token.merge tokens = Token.merge (before ++ .ofText [c] :: after)
  := by
  obtain ⟨m, hm⟩ := h.exists_isConfigured
  obtain ⟨tokens, hscan, hraw, hpieces⟩ := hm.scan (u ++ String.ofList [config.escape, c] ++ v)
  obtain ⟨before, hbefore, hrawBefore, hpiecesBefore⟩ := hm.scan u
  obtain ⟨after, hafter, hrawAfter, hpiecesAfter⟩ := hm.scan v
  use tokens, before, after, hscan, hbefore, hafter
  have hparts : ∀ t ∈ before ++ Token.ofText [c] :: after, t.IsRaw := by
    intro t ht
    rcases List.mem_append.mp ht with ht | ht
    · apply hrawBefore t ht
    · rcases List.mem_cons.mp ht with rfl | ht
      · exact .inl ⟨[c], List.cons_ne_nil c [], rfl⟩
      · apply hrawAfter t ht
  have hletters : letters config.escape (u ++ String.ofList [config.escape, c] ++ v).toList
      = letters config.escape u.toList ++ .escaped c :: letters config.escape v.toList := by
    rw [String.toList_append, String.toList_append, String.toList_ofList, List.append_assoc,
      letters_append hu]
    apply congrArg _ letters_escape_cons
  rw [Token.merge_eq_ofPieces hraw, Token.merge_eq_ofPieces hparts, hpieces, hletters,
    Matcher.pieces_append_escaped, List.flatMap_append, List.flatMap_cons, hpiecesBefore,
    Token.pieces_ofText, hpiecesAfter]
  rfl

/-- In `xa\bb` the escaped `b` does not complete `ab`, and the `a` before it is kept. -/
theorem merge_scan_escaped_nested :
  ∃ l, ofConfig nested = .ok l ∧ IsPaired nested.escape "xa".toList ∧
    ∃ tokens before after : List Token,
      l.scan ("xa" ++ String.ofList [nested.escape, 'b'] ++ "b")
          = (tokens ++ [Token.endOfInput]).map .ok
        ∧ l.scan "xa" = (before ++ [Token.endOfInput]).map .ok
        ∧ l.scan "b" = (after ++ [Token.endOfInput]).map .ok
        ∧ Token.merge tokens = Token.merge (before ++ .ofText ['b'] :: after)
  := by
  obtain ⟨l, hl⟩ : ∃ l, ofConfig nested = .ok l := ⟨_, rfl⟩
  have hpaired : IsPaired nested.escape "xa".toList := by decide
  use l, hl, hpaired
  apply Reachable.merge_scan_escaped (.new hl) hpaired

end Lexer

end TemplateLexer
