import TemplateLexer.Proofs.Reader.Utf8

/-!
# Well-formed bytes

Bytes are well-formed UTF-8 where they are the encodings of characters one after another, in the
ranges that the standard allows (`Reader.IsCharacter`).  A reader takes the longest start of its
bytes that is well-formed, character by character, and then reports the end of the input or a
failure, according to whether there are more bytes (`Reader.Yields.exists_readMany`).
-/

namespace TemplateLexer.Reader

/-! ### The bytes of a character -/

/-- The byte `b` can follow the first one of a character. -/
def IsTail (b : UInt8) : Prop :=
  0x80 ≤ b.toNat ∧ b.toNat ≤ 0xbf

/-- The bytes encode one character. -/
inductive IsCharacter : List UInt8 → Prop
  | one {a : UInt8} (ha : a.toNat ≤ 0x7f) : IsCharacter [a]
  /-- The first bytes `0xc0` and `0xc1` would be overlong. -/
  | two {a b : UInt8} (ha : 0xc2 ≤ a.toNat ∧ a.toNat ≤ 0xdf) (hb : IsTail b) : IsCharacter [a, b]
  /-- Less than `0xa0` after `0xe0` would be overlong, and more than `0x9f` after `0xed` would be a
  surrogate. -/
  | three {a b c : UInt8} (ha : 0xe0 ≤ a.toNat ∧ a.toNat ≤ 0xef) (hb : IsTail b) (hc : IsTail c)
      (hlow : a.toNat = 0xe0 → 0xa0 ≤ b.toNat) (hhigh : a.toNat = 0xed → b.toNat ≤ 0x9f) :
      IsCharacter [a, b, c]
  /-- Less than `0x90` after `0xf0` would be overlong, and more than `0x8f` after `0xf4` would be
  above the last character. -/
  | four {a b c d : UInt8} (ha : 0xf0 ≤ a.toNat ∧ a.toNat ≤ 0xf4) (hb : IsTail b) (hc : IsTail c)
      (hd : IsTail d) (hlow : a.toNat = 0xf0 → 0x90 ≤ b.toNat)
      (hhigh : a.toNat = 0xf4 → b.toNat ≤ 0x8f) : IsCharacter [a, b, c, d]

theorem isTail_ofNat (n : Nat) :
  IsTail (UInt8.ofNat (n % 0x40 + 0x80))
  := by
  rw [IsTail, UInt8.toNat_ofNat']
  omega

theorem ofNat_eq {n : Nat} {b : UInt8} (h : n = b.toNat) :
  UInt8.ofNat n = b
  := by
  rw [h, UInt8.ofNat_toNat]

/-- The value of a character is below the surrogates or above them, and at most `0x10ffff`. -/
theorem exists_val_toNat_eq_iff {v : Nat} :
  (∃ c : Char, c.val.toNat = v) ↔ v < 0xd800 ∨ 0xdfff < v ∧ v < 0x110000
  := by
  constructor
  · rintro ⟨c, rfl⟩
    apply c.valid
  · intro h
    use Char.ofNatAux v h
    rfl

theorem isCharacter_utf8EncodeChar (c : Char) :
  IsCharacter (String.utf8EncodeChar c)
  := by
  have hvalid := exists_val_toNat_eq_iff.mp ⟨c, rfl⟩
  rw [String.utf8EncodeChar]
  generalize c.val.toNat = v at hvalid
  -- one case for each number of bytes, as in the definition of the encoding
  split
  · apply IsCharacter.one
    rw [UInt8.toNat_ofNat']
    omega
  split
  · apply IsCharacter.two
    · rw [UInt8.toNat_ofNat']
      omega
    · apply isTail_ofNat
  split
  · apply IsCharacter.three
    · rw [UInt8.toNat_ofNat']
      omega
    · apply isTail_ofNat
    · apply isTail_ofNat
    · rw [UInt8.toNat_ofNat', UInt8.toNat_ofNat']
      omega
    · rw [UInt8.toNat_ofNat', UInt8.toNat_ofNat']
      omega
  · apply IsCharacter.four
    · rw [UInt8.toNat_ofNat']
      omega
    · apply isTail_ofNat
    · apply isTail_ofNat
    · apply isTail_ofNat
    · rw [UInt8.toNat_ofNat', UInt8.toNat_ofNat']
      omega
    · rw [UInt8.toNat_ofNat', UInt8.toNat_ofNat']
      omega

/-- The bytes of a character are those in the ranges of the standard. -/
theorem isCharacter_iff {bs : List UInt8} :
  IsCharacter bs ↔ ∃ c, String.utf8EncodeChar c = bs
  := by
  constructor
  · intro h
    cases h with
    | @one a ha =>
      obtain ⟨c, hc⟩ := exists_val_toNat_eq_iff.mpr (show a.toNat < 0xd800 ∨ _ by omega)
      use c
      rw [String.utf8EncodeChar, hc, if_pos ha, UInt8.ofNat_toNat]
    | @two a b ha hb =>
      rw [IsTail] at hb
      obtain ⟨c, hc⟩ := exists_val_toNat_eq_iff.mpr
        (show (a.toNat - 0xc0) * 0x40 + (b.toNat - 0x80) < 0xd800 ∨ _ by omega)
      use c
      rw [String.utf8EncodeChar, hc, if_neg (by omega), if_pos (by omega)]
      simp only [List.cons.injEq, and_true]
      exact ⟨ofNat_eq (by omega), ofNat_eq (by omega)⟩
    | @three a b c ha hb hc hlow hhigh =>
      rw [IsTail] at hb hc
      obtain ⟨x, hx⟩ := exists_val_toNat_eq_iff.mpr
        (show (a.toNat - 0xe0) * 0x1000 + (b.toNat - 0x80) * 0x40 + (c.toNat - 0x80) < 0xd800 ∨ _
          by omega)
      use x
      rw [String.utf8EncodeChar, hx, if_neg (by omega), if_neg (by omega), if_pos (by omega)]
      simp only [List.cons.injEq, and_true]
      exact ⟨ofNat_eq (by omega), ofNat_eq (by omega), ofNat_eq (by omega)⟩
    | @four a b c d ha hb hc hd hlow hhigh =>
      rw [IsTail] at hb hc hd
      obtain ⟨x, hx⟩ := exists_val_toNat_eq_iff.mpr
        (show (a.toNat - 0xf0) * 0x40000 + (b.toNat - 0x80) * 0x1000 + (c.toNat - 0x80) * 0x40
          + (d.toNat - 0x80) < 0xd800 ∨ _ by omega)
      use x
      rw [String.utf8EncodeChar, hx, if_neg (by omega), if_neg (by omega), if_neg (by omega)]
      simp only [List.cons.injEq, and_true]
      exact ⟨ofNat_eq (by omega), ofNat_eq (by omega), ofNat_eq (by omega), ofNat_eq (by omega)⟩
  · rintro ⟨c, rfl⟩
    apply isCharacter_utf8EncodeChar

/-! ### Well-formed bytes -/

/-- The bytes are those of characters one after another. -/
inductive IsWellFormed : List UInt8 → Prop
  | nil : IsWellFormed []
  | append {bs bs' : List UInt8} (h : IsCharacter bs) (h' : IsWellFormed bs') :
      IsWellFormed (bs ++ bs')

theorem isWellFormed_iff {bs : List UInt8} :
  IsWellFormed bs ↔ ∃ cs, encode cs = bs
  := by
  constructor
  · intro h
    induction h with
    | nil => exact ⟨[], rfl⟩
    | append h h' ih =>
      obtain ⟨c, rfl⟩ := isCharacter_iff.mp h
      obtain ⟨cs, rfl⟩ := ih
      use c :: cs
      rw [encode_cons]
  · rintro ⟨cs, rfl⟩
    induction cs with
    | nil => apply IsWellFormed.nil
    | cons c cs ih =>
      rw [encode_cons]
      apply IsWellFormed.append (isCharacter_utf8EncodeChar c) ih

/-- The bytes `p` are the longest start of `bs` that is well-formed. -/
structure IsLongestWellFormed (bs p : List UInt8) : Prop where
  isPrefix : p <+: bs
  isWellFormed : IsWellFormed p
  length_le : ∀ q, q <+: bs → IsWellFormed q → q.length ≤ p.length

/-- No character starts with the first of the bytes. -/
def StartsNone (bs : List UInt8) : Prop :=
  ∀ c, ¬ String.utf8EncodeChar c <+: bs

/-- All bytes are characters and then bytes with which no character starts. -/
theorem exists_eq_encode_append (bs : List UInt8) :
  ∃ cs bs', bs = encode cs ++ bs' ∧ StartsNone bs'
  := by
  induction hlength : bs.length using Nat.strongRecOn generalizing bs with
  | ind n ih =>
    by_cases hnone : StartsNone bs
    · exact ⟨[], bs, rfl, hnone⟩
    · obtain ⟨c, bs', rfl⟩ := not_forall_not.mp hnone
      have hpos : 0 < (String.utf8EncodeChar c).length :=
        List.length_pos_iff.mpr String.utf8EncodeChar_ne_nil
      rw [List.length_append] at hlength
      obtain ⟨cs, bs'', rfl, hnone'⟩ := ih bs'.length (by omega) bs' rfl
      use c :: cs, bs''
      rw [encode_cons, List.append_assoc]
      exact ⟨rfl, hnone'⟩

/-- Characters are a longest start where no character starts after them. -/
theorem isLongestWellFormed_encode (cs : List Char) {bs : List UInt8} (h : StartsNone bs) :
  IsLongestWellFormed (encode cs ++ bs) (encode cs)
  := by
  constructor
  · apply List.prefix_append
  · apply isWellFormed_iff.mpr ⟨cs, rfl⟩
  · intro q hq hwellFormed
    obtain ⟨ds, rfl⟩ := isWellFormed_iff.mp hwellFormed
    clear hwellFormed
    induction ds generalizing cs with
    | nil => apply Nat.zero_le
    | cons d ds ih =>
      rw [encode_cons] at hq
      have hd := (List.prefix_append _ _).trans hq
      cases cs with
      | nil => exact absurd hd (h d)
      | cons c cs =>
        rw [encode_cons, List.append_assoc] at hq hd
        -- the bytes tell which character comes first
        have hdecode := (decode_eq_char_iff _ d).mpr hd
        rw [(decode_eq_char_iff _ c).mpr (List.prefix_append _ _)] at hdecode
        cases hdecode
        rw [List.prefix_append_right_inj] at hq
        rw [encode_cons, encode_cons, List.length_append, List.length_append]
        apply Nat.add_le_add_left (ih cs hq)

/-! ### Reading -/

/-- What cannot be decoded is malformed. -/
theorem decode_of_startsNone {bs bs' : List UInt8} (h : StartsNone bs') (hbs : bs <+: bs') :
  decode bs = .failed malformed
  := by
  rw [decode]
  cases hdecode : bs.toByteArray.utf8DecodeChar? 0 with
  | none => rfl
  | some c =>
    have hchar : decode bs = .char c := by rw [decode, hdecode]
    exact absurd (((decode_eq_char_iff bs c).mp hchar).trans hbs) (h c)

/-- The end of the input among the bytes of a character is a failure. -/
theorem Yields.readBytes_of_length_lt {r : Reader} {bs : List UInt8} (h : r.Yields bs) {n : Nat}
    (hn : bs.length < n) :
  (r.readBytes n).1 = .error malformed
  := by
  induction n generalizing r bs with
  | zero => cases hn
  | succ n ih =>
    obtain ⟨r', hbyte, h'⟩ := h.readByte
    cases bs with
    | nil =>
      rw [Reader.readBytes, hbyte]
      rfl
    | cons b bs =>
      rw [List.length_cons, Nat.succ_lt_succ_iff] at hn
      have hrest := ih h' hn
      rw [Reader.readBytes, hbyte]
      dsimp only [List.head?_cons]
      rcases hread : r'.readBytes n with ⟨e | bs', r''⟩
      · rw [hread] at hrest
        exact hrest
      · rw [hread] at hrest
        cases hrest

/-- Where no character starts a reader fails, or reports the end of the input when that is why. -/
theorem Yields.read_of_startsNone {r : Reader} {bs : List UInt8} (h : r.Yields bs)
    (hnone : StartsNone bs) :
  r.read.1 = if bs = [] then .ended else .failed malformed
  := by
  obtain ⟨r', hbyte, h'⟩ := h.readByte
  rw [Reader.read, hbyte]
  cases bs with
  | nil => rfl
  | cons b bs =>
    rw [if_neg (List.cons_ne_nil b bs)]
    dsimp only [List.head?_cons]
    cases hfollowers : followers? b with
    | none => rfl
    | some n =>
      dsimp only
      by_cases hlength : bs.length < n
      · have hshort := h'.readBytes_of_length_lt hlength
        rcases hread : r'.readBytes n with ⟨e | bs', r''⟩
        · rw [hread] at hshort
          cases hshort
          rfl
        · rw [hread] at hshort
          cases hshort
      · have htake : (bs.take n).length = n := by
          rw [List.length_take]
          omega
        rw [List.tail_cons, ← List.take_append_drop n bs] at h'
        obtain ⟨r'', hread, -⟩ := h'.readBytes
        rw [htake] at hread
        rw [hread]
        apply decode_of_startsNone hnone
        rw [List.cons_prefix_cons]
        exact ⟨rfl, List.take_prefix n bs⟩

/-- Characters are read one after another, whatever follows them. -/
theorem Yields.readMany_of_append {r : Reader} {cs : List Char} {bs : List UInt8}
    (h : r.Yields (encode cs ++ bs)) :
  ∃ r', r.readMany cs.length = (cs.map .char, r') ∧ r'.Yields bs
  := by
  induction cs generalizing r with
  | nil => exact ⟨r, rfl, h⟩
  | cons c cs ih =>
    rw [encode_cons, List.append_assoc] at h
    obtain ⟨r', hread, h'⟩ := h.read_of_append
    obtain ⟨r'', hmany, h''⟩ := ih h'
    use r''
    constructor
    · rw [List.length_cons, Reader.readMany, hread]
      dsimp only
      rw [hmany]
      rfl
    · apply h''

/-- A reader of the bytes `bs`, in any buffers, answers with the characters of the longest start
of `bs` that is well-formed, and each takes just the bytes that encode it.  The next answer is the
end of the input when these are all the bytes, and otherwise a failure for malformed bytes. -/
theorem Yields.exists_readMany {r : Reader} {bs : List UInt8} (h : r.Yields bs) :
  ∃ cs, IsLongestWellFormed bs (encode cs)
    ∧ (∀ n ≤ cs.length, (r.readMany n).1 = (cs.take n).map .char
      ∧ encode (cs.take n) ++ (r.readMany n).2.rest = bs)
    ∧ (r.readMany cs.length).2.read.1
      = if encode cs = bs then .ended else .failed malformed
  := by
  obtain ⟨cs, bs', rfl, hnone⟩ := exists_eq_encode_append bs
  use cs, isLongestWellFormed_encode cs hnone
  constructor
  · intro n hn
    have hsplit : encode cs ++ bs' = encode (cs.take n) ++ (encode (cs.drop n) ++ bs') := by
      rw [← List.append_assoc, ← encode_append, List.take_append_drop]
    have hlength : (cs.take n).length = n := by
      rw [List.length_take]
      omega
    rw [hsplit] at h ⊢
    obtain ⟨r', hread, h'⟩ := h.readMany_of_append
    rw [hlength] at hread
    rw [hread, h'.rest_eq]
    exact ⟨rfl, rfl⟩
  · obtain ⟨r', hread, h'⟩ := h.readMany_of_append
    rw [hread, h'.read_of_startsNone hnone]
    simp

/-- A reader of `é`, the bytes of a surrogate and `x`, cut within `é` and within the surrogate. -/
def surrogate : Reader :=
  ofScript [.bytes [0xc3], .bytes [0xa9, 0xed], .bytes [0xa0, 0x80, 0x78]]

/-- The surrogate is no character: after `é` the reader fails. -/
theorem exists_readMany_surrogate :
  surrogate.Yields [0xc3, 0xa9, 0xed, 0xa0, 0x80, 0x78]
    ∧ (surrogate.readMany 2).1 = [.char 'é', .failed malformed]
    ∧ ∃ cs, IsLongestWellFormed [0xc3, 0xa9, 0xed, 0xa0, 0x80, 0x78] (encode cs)
      ∧ (∀ n ≤ cs.length, (surrogate.readMany n).1 = (cs.take n).map .char
        ∧ encode (cs.take n) ++ (surrogate.readMany n).2.rest
          = [0xc3, 0xa9, 0xed, 0xa0, 0x80, 0x78])
      ∧ (surrogate.readMany cs.length).2.read.1
        = if encode cs = [0xc3, 0xa9, 0xed, 0xa0, 0x80, 0x78] then .ended else .failed malformed
  := by
  have hyields : surrogate.Yields [0xc3, 0xa9, 0xed, 0xa0, 0x80, 0x78] := ⟨by decide, by decide⟩
  use hyields, rfl
  apply hyields.exists_readMany

end TemplateLexer.Reader
