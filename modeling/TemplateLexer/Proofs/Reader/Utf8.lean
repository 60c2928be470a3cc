import Mathlib.Tactic.Common
import TemplateLexer.Proofs.Lexer.Trim
import TemplateLexer.Reader

/-!
# Readers of UTF-8

A reader yields the characters that its bytes encode, wherever their encodings are cut into
buffers and however often a filling is interrupted (`Reader.Yields.trim_deliveries`).  An
interruption before a buffer is used up is one between its two parts.  A lexer therefore reads the
same from the reader as from the string of these characters (`Reader.Yields.run_reset`).
-/

namespace TemplateLexer

/-! ### Steady fillings -/

/-- Whether a filling brings bytes or is only interrupted, so that it neither ends the input nor
fails for good. -/
def Fill.IsSteady : Fill → Prop
  | .bytes bs => bs ≠ []
  | .failed e => e.kind = .interrupted

instance Fill.decidableIsSteady : DecidablePred Fill.IsSteady
  | .bytes bs => inferInstanceAs (Decidable (bs ≠ []))
  | .failed e => inferInstanceAs (Decidable (e.kind = .interrupted))

namespace Reader

/-- The reader holds the bytes `bs`, all of which can be read. -/
structure Yields (r : Reader) (bs : List UInt8) : Prop where
  isSteady : ∀ fill ∈ r.script, fill.IsSteady
  rest_eq : r.rest = bs

/-! ### Encoded characters -/

/-- The bytes that encode the characters `cs`. -/
def encode (cs : List Char) : List UInt8 :=
  cs.flatMap String.utf8EncodeChar

theorem encode_cons (c : Char) (cs : List Char) :
  encode (c :: cs) = String.utf8EncodeChar c ++ encode cs
  := List.flatMap_cons

theorem encode_append (cs cs' : List Char) :
  encode (cs ++ cs') = encode cs ++ encode cs'
  := List.flatMap_append

theorem encode_toList (s : String) :
  encode s.toList = s.toUTF8.data.toList
  := by
  rw [String.toUTF8_eq_toByteArray, ← @String.ofList_toList s, String.toByteArray_ofList,
    String.toList_ofList, List.utf8Encode, List.toList_data_toByteArray, encode]

theorem followers?_ofNat {n : Nat} (h : n < 256) :
  followers? (UInt8.ofNat n) =
    if n ≤ 0x7f then some 0
    else if 0xc2 ≤ n ∧ n ≤ 0xdf then some 1
    else if 0xe0 ≤ n ∧ n ≤ 0xef then some 2
    else if 0xf0 ≤ n ∧ n ≤ 0xf4 then some 3
    else none
  := by
  have htoNat : (UInt8.ofNat n).toNat = n := UInt8.toNat_ofNat_of_lt h
  simp only [followers?, UInt8.le_iff_toNat_le, htoNat]
  rfl

/-- The first byte of a character tells how many bytes follow it. -/
theorem exists_utf8EncodeChar_eq (c : Char) :
  ∃ b bs, String.utf8EncodeChar c = b :: bs ∧ followers? b = some bs.length
  := by
  have hvalid : c.val.toNat < 0x110000 := by
    have := c.valid
    rw [UInt32.isValidChar, Nat.isValidChar] at this
    omega
  rw [String.utf8EncodeChar]
  generalize c.val.toNat = v at hvalid
  -- one case for each number of bytes, as in the definition of the encoding
  split
  · refine ⟨_, _, rfl, ?_⟩
    rw [followers?_ofNat (by omega), if_pos (by omega)]
    rfl
  split
  · refine ⟨_, _, rfl, ?_⟩
    rw [followers?_ofNat (by omega), if_neg (by omega), if_pos (by omega)]
    rfl
  split
  · refine ⟨_, _, rfl, ?_⟩
    rw [followers?_ofNat (by omega), if_neg (by omega), if_neg (by omega), if_pos (by omega)]
    rfl
  · refine ⟨_, _, rfl, ?_⟩
    rw [followers?_ofNat (by omega), if_neg (by omega), if_neg (by omega), if_neg (by omega),
      if_pos (by omega)]
    rfl

/-- Bytes are decoded to the character whose encoding they start with. -/
theorem decode_eq_char_iff (bs : List UInt8) (c : Char) :
  decode bs = .char c ↔ String.utf8EncodeChar c <+: bs
  := by
  constructor
  · intro h
    rw [decode] at h
    cases hdecode : bs.toByteArray.utf8DecodeChar? 0 with
    | none =>
      rw [hdecode] at h
      cases h
    | some d =>
      rw [hdecode] at h
      cases h
      obtain ⟨more, hmore⟩ := ByteArray.exists_of_utf8DecodeChar?_eq_some hdecode
      use more.data.toList
      have hlist := congrArg (·.data.toList) hmore
      simpa using hlist.symm
  · rintro ⟨more, rfl⟩
    rw [decode, List.toByteArray_append, ByteArray.utf8DecodeChar?_utf8EncodeChar_append]

theorem encode_eq_nil_iff {cs : List Char} :
  encode cs = [] ↔ cs = []
  := by
  cases cs with
  | nil => simp [encode]
  | cons c cs =>
    obtain ⟨b, bs, hencode, -⟩ := exists_utf8EncodeChar_eq c
    simp [encode, hencode]

/-! ### Reading bytes -/

/-- An interrupted filling makes no difference to the byte that is read. -/
theorem Yields.refill {script : List Fill} {bs : List UInt8} (h : Yields ⟨[], script⟩ bs) :
  ∃ r', Reader.refill script = (.ok bs.head?, r') ∧ r'.Yields bs.tail
  := by
  obtain ⟨hsteady, rfl⟩ := h
  fun_induction Reader.refill script with
  | case1 => exact ⟨_, rfl, hsteady, rfl⟩
  | case2 script =>
    obtain ⟨hfirst, -⟩ := List.forall_mem_cons.mp hsteady
    exact absurd rfl hfirst
  | case3 b bs script =>
    obtain ⟨-, hlater⟩ := List.forall_mem_cons.mp hsteady
    exact ⟨_, rfl, hlater, rfl⟩
  | case4 e script hinterrupted ih =>
    obtain ⟨-, hlater⟩ := List.forall_mem_cons.mp hsteady
    apply ih hlater
  | case5 e script hinterrupted =>
    obtain ⟨hfirst, -⟩ := List.forall_mem_cons.mp hsteady
    exact absurd hfirst hinterrupted

theorem Yields.readByte {r : Reader} {bs : List UInt8} (h : r.Yields bs) :
  ∃ r', r.readByte = (.ok bs.head?, r') ∧ r'.Yields bs.tail
  := by
  obtain ⟨buffer, script⟩ := r
  cases buffer with
  | nil => apply h.refill
  | cons b buffer =>
    obtain ⟨hsteady, rfl⟩ := h
    exact ⟨⟨buffer, script⟩, rfl, hsteady, rfl⟩

theorem Yields.readBytes {r : Reader} {bs bs' : List UInt8} (h : r.Yields (bs ++ bs')) :
  ∃ r', r.readBytes bs.length = (.ok bs, r') ∧ r'.Yields bs'
  := by
  induction bs generalizing r with
  | nil => exact ⟨r, rfl, h⟩
  | cons b bs ih =>
    obtain ⟨r', hbyte, h'⟩ := h.readByte
    obtain ⟨r'', hbytes, h''⟩ := ih h'
    use r''
    constructor
    · rw [List.length_cons, Reader.readBytes, hbyte]
      dsimp only [List.head?_cons, List.cons_append]
      rw [hbytes]
    · apply h''

/-! ### Reading characters -/

theorem Yields.read_of_nil {r : Reader} (h : r.Yields (encode [])) :
  ∃ r', r.read = (.ended, r') ∧ r'.Yields (encode [])
  := by
  obtain ⟨r', hbyte, h'⟩ := h.readByte
  use r'
  constructor
  · rw [Reader.read, hbyte]
    rfl
  · apply h'

/-- The bytes of a character are read as that character, whatever follows them. -/
theorem Yields.read_of_append {r : Reader} {c : Char} {bs : List UInt8}
    (h : r.Yields (String.utf8EncodeChar c ++ bs)) :
  ∃ r', r.read = (.char c, r') ∧ r'.Yields bs
  := by
  obtain ⟨b, followers, hencode, hfollowers⟩ := exists_utf8EncodeChar_eq c
  rw [hencode] at h
  obtain ⟨r', hbyte, h'⟩ := h.readByte
  obtain ⟨r'', hbytes, h''⟩ := Yields.readBytes h'
  use r''
  constructor
  · rw [Reader.read, hbyte]
    dsimp only [List.head?_cons, List.cons_append]
    rw [hfollowers]
    dsimp only
    rw [hbytes]
    dsimp only
    rw [← hencode, (decode_eq_char_iff _ c).mpr List.prefix_rfl]
  · apply h''

theorem Yields.read_of_cons {r : Reader} {c : Char} {cs : List Char}
    (h : r.Yields (encode (c :: cs))) :
  ∃ r', r.read = (.char c, r') ∧ r'.Yields (encode cs)
  := by
  rw [encode_cons] at h
  apply h.read_of_append

/-! ### The source of a reader -/

theorem read_deliveries (r : Reader) :
  r.deliveries.read = r.read.map id deliveries
  := by
  rw [deliveries]
  split
  case isTrue hexhausted =>
    obtain ⟨buffer, script⟩ := r
    rw [isExhausted, Bool.and_eq_true, List.isEmpty_iff, List.isEmpty_iff] at hexhausted
    obtain ⟨rfl, rfl⟩ := hexhausted
    have hread : read ⟨[], []⟩ = (.ended, ⟨[], []⟩) := rfl
    rw [hread, Prod.map, deliveries]
    rfl
  case isFalse => rfl

/-- The source of a reader gives the answers of the reader. -/
theorem readMany_deliveries (n : Nat) (r : Reader) :
  r.deliveries.readMany n = (r.readMany n).map id deliveries
  := by
  induction n generalizing r with
  | zero => rfl
  | succ n ih =>
    rw [Source.readMany, read_deliveries]
    dsimp only [Prod.map]
    rw [ih]
    rfl

/-- A reader yields the characters that its bytes encode, and nothing else before its end. -/
theorem Yields.trim_deliveries {r : Reader} {cs : List Char} (h : r.Yields (encode cs)) :
  r.deliveries.trim = Source.ofChars cs
  := by
  fun_induction deliveries r generalizing cs with
  | case1 r hexhausted =>
    rw [isExhausted, Bool.and_eq_true, List.isEmpty_iff, List.isEmpty_iff] at hexhausted
    have hrest := h.rest_eq
    rw [rest, hexhausted.1, hexhausted.2, eq_comm, List.flatMap_nil, List.append_nil,
      encode_eq_nil_iff] at hrest
    rw [hrest]
    rfl
  | case2 r hexhausted answer =>
    rename_i ih
    cases cs with
    | nil =>
      obtain ⟨r', hread, h'⟩ := h.read_of_nil
      dsimp only [answer] at ih ⊢
      rw [hread] at ih ⊢
      rw [Source.trim, if_pos ⟨rfl, ih h'⟩]
      rfl
    | cons c cs =>
      obtain ⟨r', hread, h'⟩ := h.read_of_cons
      dsimp only [answer] at ih ⊢
      rw [hread] at ih ⊢
      rw [Source.trim_cons_of_ne Delivery.noConfusion, ih h']
      rfl

/-- The first answers of a reader are the characters that its bytes encode, and ends after
them. -/
theorem Yields.readMany {r : Reader} {cs : List Char} (h : r.Yields (encode cs)) (n : Nat) :
  (r.readMany n).1 = ((Source.ofChars cs).readMany n).1
  := by
  rw [← h.trim_deliveries, Source.readMany_trim, readMany_deliveries]
  rfl

/-! ### Lexers over readers -/

/-- Over a reader that yields the bytes of `s` a lexer has the same results, and the same
positions, as over `s` itself. -/
theorem Yields.run_reset {r : Reader} {s : String} (h : r.Yields s.toUTF8.data.toList)
    (l : Lexer) (modes : List Mode) :
  let onReader := l.reset r.deliveries
  let onString := l.reset (.ofString s)
  onReader.1 = onString.1 ∧ onReader.2.position = onString.2.position
    ∧ (onReader.2.run modes).map (Prod.map id Lexer.position)
      = (onString.2.run modes).map (Prod.map id Lexer.position)
  := by
  rw [← encode_toList] at h
  have hreset : l.reset (.ofString s) = (l.reset r.deliveries).map id Lexer.trim := by
    rw [← Lexer.reset_trim, h.trim_deliveries]
    rfl
  rw [hreset]
  refine ⟨rfl, rfl, ?_⟩
  rw [Prod.map, Lexer.run_trim, List.map_map]
  rfl

/-- A reader of `é|ß` that cuts both `é` and `ß` in two and is interrupted within `é`. -/
def interrupted : Reader :=
  ofScript [.bytes [0xc3], .failed ⟨.interrupted, ""⟩, .bytes [0xa9, 0x7c, 0xc3], .bytes [0x9f]]

/-- Neither the cuts nor the interruption leave a trace in three requests. -/
theorem run_reset_interrupted :
  ∃ l, Lexer.ofConfig .default = .ok l ∧ interrupted.Yields "é|ß".toUTF8.data.toList ∧
    let onReader := l.reset interrupted.deliveries
    let onString := l.reset (.ofString "é|ß")
    onReader.1 = onString.1 ∧ onReader.2.position = onString.2.position
      ∧ (onReader.2.run [.raw, .raw, .block]).map (Prod.map id Lexer.position)
        = (onString.2.run [.raw, .raw, .block]).map (Prod.map id Lexer.position)
  := by
  obtain ⟨l, hl⟩ : ∃ l, Lexer.ofConfig .default = .ok l := ⟨_, rfl⟩
  have hyields : interrupted.Yields "é|ß".toUTF8.data.toList := ⟨by decide, by decide⟩
  use l, hl, hyields
  apply Yields.run_reset hyields

end Reader

end TemplateLexer
