import Mathlib.Data.List.Chain
import TemplateLexer.Token

/-!
# Pieces of raw text

Where raw text is cut into several tokens does not matter for what it says.  `Token.pieces`
takes a token apart into its characters, or leaves the delimiter that it is; `Token.merge`
joins adjacent texts.  What tokens merge to depends only on their pieces, by
`Token.merge_eq_ofPieces`.
-/

namespace TemplateLexer

variable {κ : Type}

/-- A piece of raw text. -/
inductive Piece (κ : Type) where
  /-- A character of text. -/
  | char (c : Char)
  /-- A delimiter with its tag. -/
  | tag (k : κ)
  deriving DecidableEq, Repr

namespace Token

/-- The token of the text `cs`. -/
def ofText (cs : List Char) : Token :=
  ⟨.text, String.ofList cs⟩

/-- The text token of `cs`, if there is any text. -/
def ofText? (cs : List Char) : List Token :=
  if cs.isEmpty then [] else [ofText cs]

/-- A token of raw text is a text that is not empty, or a delimiter without a text. -/
def IsRaw (t : Token) : Prop :=
  (∃ cs ≠ [], t = ofText cs) ∨ ∃ d, t = .empty (.delimiter d)

/-- The pieces of a token: the characters of a text, or a delimiter. -/
def pieces (t : Token) : List (Piece Kind) :=
  if t.kind = .text then t.text.toList.map .char else [.tag t.kind]

/-- A token before other tokens, joined to the first of them if both are texts. -/
def join (t : Token) : List Token → List Token
  | [] => [t]
  | t' :: ts =>
    if t.kind = .text ∧ t'.kind = .text then ⟨.text, t.text ++ t'.text⟩ :: ts
    else t :: t' :: ts

/-- The tokens with adjacent texts joined. -/
def merge (ts : List Token) : List Token :=
  ts.foldr join []

end Token

/-- A piece as a token of its own. -/
def Piece.token : Piece Kind → Token
  | char c => .ofText [c]
  | tag k => .empty k

namespace Token

/-- The tokens with the given pieces, adjacent characters in one text. -/
def ofPieces (ps : List (Piece Kind)) : List Token :=
  merge (ps.map Piece.token)

@[simp]
theorem pieces_ofText (cs : List Char) :
  (ofText cs).pieces = cs.map .char
  := by
  simp [pieces, ofText]

@[simp]
theorem pieces_empty_delimiter (d : Delimiter) :
  (empty (.delimiter d)).pieces = [.tag (.delimiter d)]
  := rfl

/-! ### Merging -/

theorem join_ofText_join (cs ds : List Char) (ts : List Token) :
  join (ofText cs) (join (ofText ds) ts) = join (ofText (cs ++ ds)) ts
  := by
  cases ts with
  | nil => simp [join, ofText]
  | cons t ts => by_cases h : t.kind = .text <;> simp [join, ofText, h, String.append_assoc]

theorem join_of_ne_text {t : Token} (h : t.kind ≠ .text) (ts : List Token) :
  join t ts = t :: ts
  := by
  cases ts with
  | nil => rfl
  | cons t' ts => simp [join, h]

/-- Joining a text is joining its characters one after another. -/
theorem foldr_join_char {cs : List Char} (h : cs ≠ []) (ts : List Token) :
  ((cs.map Piece.char).map Piece.token).foldr join ts = join (ofText cs) ts
  := by
  induction cs with
  | nil => contradiction
  | cons c cs ih =>
    cases cs with
    | nil => rfl
    | cons d cs =>
      rw [List.map_cons, List.map_cons, List.foldr_cons, ih (by simp), Piece.token,
        join_ofText_join, List.singleton_append]

/-- What tokens merge to depends only on their pieces. -/
theorem merge_eq_ofPieces {ts : List Token} (h : ∀ t ∈ ts, t.IsRaw) :
  merge ts = ofPieces (ts.flatMap pieces)
  := by
  induction ts with
  | nil => rfl
  | cons t ts ih =>
    rw [List.forall_mem_cons] at h
    rw [merge, ofPieces, merge] at ih ⊢
    rw [List.foldr_cons, ih h.2, List.flatMap_cons, List.map_append, List.foldr_append]
    rcases h.1 with ⟨cs, hcs, rfl⟩ | ⟨d, rfl⟩
    · rw [pieces_ofText, foldr_join_char hcs]
    · rfl

/-- Nothing is joined to the end of the input. -/
theorem merge_append_endOfInput (ts : List Token) :
  merge (ts ++ [endOfInput]) = merge ts ++ [endOfInput]
  := by
  rw [merge, merge]
  induction ts with
  | nil => rfl
  | cons t ts ih =>
    rw [List.cons_append, List.foldr_cons, List.foldr_cons, ih]
    cases ts.foldr join [] with
    | nil => simp [join, endOfInput, empty]
    | cons t' ts =>
      rw [List.cons_append, join, join]
      split <;> rfl

/-- Merging changes where texts are split, and no piece. -/
theorem flatMap_pieces_join (t : Token) (ts : List Token) :
  (join t ts).flatMap pieces = t.pieces ++ ts.flatMap pieces
  := by
  cases ts with
  | nil => rfl
  | cons t' ts =>
    rw [join]
    split
    case isTrue h => simp [pieces, h.1, h.2]
    case isFalse h => rfl

theorem flatMap_pieces_merge (ts : List Token) :
  (merge ts).flatMap pieces = ts.flatMap pieces
  := by
  rw [merge]
  induction ts with
  | nil => rfl
  | cons t ts ih => rw [List.foldr_cons, flatMap_pieces_join, ih, List.flatMap_cons]

/-- Tokens of raw text, with nothing left to be merged. -/
structure IsMerged (ts : List Token) : Prop where
  isRaw : ∀ t ∈ ts, t.IsRaw
  isChain : ts.IsChain fun t t' => ¬ (t.kind = .text ∧ t'.kind = .text)

theorem IsMerged.merge_eq {ts : List Token} (h : IsMerged ts) :
  merge ts = ts
  := by
  have hchain := h.isChain
  clear h
  rw [merge]
  induction ts with
  | nil => rfl
  | cons t ts ih =>
    rw [List.isChain_cons] at hchain
    rw [List.foldr_cons, ih hchain.2]
    cases ts with
    | nil => rfl
    | cons t' ts => apply if_neg (hchain.1 t' rfl)

/-- Merged tokens are what other tokens merge to exactly when these have their pieces. -/
theorem IsMerged.merge_eq_iff {ts ts' : List Token} (h : IsMerged ts) (hraw : ∀ t ∈ ts', t.IsRaw) :
  merge ts' = ts ↔ ts'.flatMap pieces = ts.flatMap pieces
  := by
  constructor
  · rintro rfl
    symm
    apply flatMap_pieces_merge
  · intro hpieces
    rw [← h.merge_eq, merge_eq_ofPieces hraw, merge_eq_ofPieces h.isRaw, hpieces]

theorem ofPieces_delimiter_cons (d : Delimiter) (ps : List (Piece Kind)) :
  ofPieces (.tag (.delimiter d) :: ps) = empty (.delimiter d) :: ofPieces ps
  := by
  apply join_of_ne_text
  simp [Piece.token, empty]

theorem ofPieces_map_char (cs : List Char) :
  ofPieces (cs.map .char) = ofText? cs
  := by
  cases cs with
  | nil => rfl
  | cons c cs =>
    rw [ofPieces, merge, foldr_join_char (List.cons_ne_nil c cs)]
    rfl

theorem ofPieces_map_char_append (cs : List Char) (d : Delimiter) (ps : List (Piece Kind)) :
  ofPieces (cs.map .char ++ .tag (.delimiter d) :: ps)
    = ofText? cs ++ empty (.delimiter d) :: ofPieces ps
  := by
  cases cs with
  | nil => apply ofPieces_delimiter_cons
  | cons c cs =>
    rw [ofPieces, merge, List.map_append, List.foldr_append,
      foldr_join_char (List.cons_ne_nil c cs)]
    change join (ofText (c :: cs)) (ofPieces (.tag (.delimiter d) :: ps)) = _
    rw [ofPieces_delimiter_cons]
    rfl

end Token

end TemplateLexer
