import TemplateLexer.Source

/-!
# Readers of bytes

A `Reader` holds bytes in a buffer that is filled from a script: each filling is a list of
bytes, where the empty list reports the end of the input once, or a failure.  `read`
decodes one character as UTF-8, and `deliveries` is the source of all characters that
the reader yields.

An interrupted filling is tried again.  The first byte of a character decides how many
bytes follow it; these are taken before they are checked, so that a failure or the end
of the input among them loses the bytes already taken.
-/

namespace TemplateLexer

/-- The answer to one request for more bytes. -/
inductive Fill where
  /-- A new buffer; an empty one reports the end of the input. -/
  | bytes (bs : List UInt8)
  /-- The request failed. -/
  | failed (e : IoError)
  deriving DecidableEq, Repr

/-- A buffer of bytes and the answers to later requests for more. -/
structure Reader where
  buffer : List UInt8
  script : List Fill
  deriving DecidableEq, Repr

namespace Reader

/-- The reader whose buffer is still to be filled from `script`. -/
def ofScript (script : List Fill) : Reader :=
  ⟨[], script⟩

/-- The reader of `bs`, all in one buffer. -/
def ofBytes (bs : List UInt8) : Reader :=
  ofScript [.bytes bs]

/-! ### Bytes -/

/-- The next byte by way of a new buffer; none at the end of the input.  Interrupted
requests are repeated. -/
def refill : List Fill → Except IoError (Option UInt8) × Reader
  | [] => (.ok none, ⟨[], []⟩)
  | .bytes [] :: script => (.ok none, ⟨[], script⟩)
  | .bytes (b :: bs) :: script => (.ok (some b), ⟨bs, script⟩)
  | .failed e :: script =>
    if e.kind = .interrupted then refill script else (.error e, ⟨[], script⟩)

/-- The next byte; none at the end of the input. -/
def readByte (r : Reader) : Except IoError (Option UInt8) × Reader :=
  match r.buffer with
  | b :: bs => (.ok (some b), { r with buffer := bs })
  | [] => refill r.script

/-- The bytes left: the rest of the buffer and those of the script, without failures. -/
def rest (r : Reader) : List UInt8 :=
  r.buffer ++ r.script.flatMap fun
    | .bytes bs => bs
    | .failed _ => []

/-! ### Characters -/

/-- The failure for bytes that are not UTF-8. -/
def malformed : IoError :=
  ⟨.invalidData, "stream did not contain valid UTF-8"⟩

/-- The number of bytes that follow a first byte of the given value; none for a value
with which no character starts. -/
def followers? (b : UInt8) : Option Nat :=
  if b ≤ 0x7f then some 0
  else if 0xc2 ≤ b ∧ b ≤ 0xdf then some 1
  else if 0xe0 ≤ b ∧ b ≤ 0xef then some 2
  else if 0xf0 ≤ b ∧ b ≤ 0xf4 then some 3
  else none

/-- The next `n` bytes; the end of the input among them is a failure. -/
def readBytes : Nat → Reader → Except IoError (List UInt8) × Reader
  | 0, r => (.ok [], r)
  | n + 1, r =>
    match r.readByte with
    | (.error e, r) => (.error e, r)
    | (.ok none, r) => (.error malformed, r)
    | (.ok (some b), r) =>
      match readBytes n r with
      | (.error e, r) => (.error e, r)
      | (.ok bs, r) => (.ok (b :: bs), r)

/-- The character that `bs` encodes. -/
def decode (bs : List UInt8) : Delivery :=
  match bs.toByteArray.utf8DecodeChar? 0 with
  | some c => .char c
  | none => .failed malformed

/-- The next character. -/
def read (r : Reader) : Delivery × Reader :=
  match r.readByte with
  | (.error e, r) => (.failed e, r)
  | (.ok none, r) => (.ended, r)
  | (.ok (some b), r) =>
    match followers? b with
    | none => (.failed malformed, r)
    | some n =>
      match r.readBytes n with
      | (.error e, r) => (.failed e, r)
      | (.ok bs, r) => (decode (b :: bs), r)

/-- The next `n` answers of the reader, and the reader after them. -/
def readMany : Nat → Reader → List Delivery × Reader
  | 0, r => ([], r)
  | n + 1, r =>
    let (d, r) := r.read
    let (ds, r) := readMany n r
    (d :: ds, r)

/-! ### The source of a reader -/

/-- Whether the reader holds neither bytes nor answers to requests. -/
def isExhausted (r : Reader) : Bool :=
  r.buffer.isEmpty && r.script.isEmpty

/-- The bytes left and the requests left, counted. -/
def size (r : Reader) : Nat :=
  r.rest.length + r.script.length

theorem size_cons (fill : Fill) (script : List Fill) :
  size ⟨[], fill :: script⟩ = (rest ⟨[], [fill]⟩).length + size ⟨[], script⟩ + 1
  := by
  simp only [size, rest, List.flatMap_cons, List.flatMap_nil, List.length_append,
    List.length_cons, List.length_nil]
  omega

theorem size_refill_le (script : List Fill) :
  (refill script).2.size ≤ size ⟨[], script⟩
  := by
  fun_induction refill script with
  | case1 => exact Nat.le_refl _
  | case2 script => dsimp only; rw [size_cons]; omega
  | case3 b bs script =>
    simp only [size, rest, List.flatMap_cons, List.length_append, List.length_cons,
      List.length_nil]
    omega
  | case4 e script _ ih => rw [size_cons]; omega
  | case5 e script _ => dsimp only; rw [size_cons]; omega

theorem size_refill_lt {script : List Fill} (h : script ≠ []) :
  (refill script).2.size < size ⟨[], script⟩
  := by
  match script with
  | .bytes [] :: script => rw [refill, size_cons]; dsimp only; omega
  | .bytes (b :: bs) :: script =>
    simp only [refill, size, rest, List.flatMap_cons, List.length_append, List.length_cons,
      List.length_nil]
    omega
  | .failed e :: script =>
    have := size_refill_le script
    rw [refill, size_cons]
    split
    · omega
    · dsimp only; omega

theorem size_readByte_le (r : Reader) :
  r.readByte.2.size ≤ r.size
  := by
  obtain ⟨buffer, script⟩ := r
  cases buffer with
  | nil => apply size_refill_le
  | cons b bs => simp [readByte, size, rest]

theorem size_readByte_lt {r : Reader} (h : r.isExhausted = false) :
  r.readByte.2.size < r.size
  := by
  obtain ⟨buffer, script⟩ := r
  cases buffer with
  | nil =>
    apply size_refill_lt
    rintro rfl
    simp [isExhausted] at h
  | cons b bs => simp [readByte, size, rest]

theorem size_readBytes_le (n : Nat) (r : Reader) :
  (r.readBytes n).2.size ≤ r.size
  := by
  induction n generalizing r with
  | zero => simp [readBytes]
  | succ n ih =>
    have hbyte := size_readByte_le r
    rw [readBytes]
    rcases hr : r.readByte with ⟨_ | _ | b, r'⟩ <;> rw [hr] at hbyte
    · exact hbyte
    · exact hbyte
    · have hbytes := ih r'
      rcases hs : r'.readBytes n with ⟨_ | bs, r''⟩ <;> rw [hs] at hbytes
      · simpa only [hs] using Nat.le_trans hbytes hbyte
      · simpa only [hs] using Nat.le_trans hbytes hbyte

/-- Reading from a reader that still holds something takes something from it. -/
theorem size_read_lt {r : Reader} (h : r.isExhausted = false) :
  r.read.2.size < r.size
  := by
  have hbyte := size_readByte_lt h
  rw [read]
  rcases hr : r.readByte with ⟨_ | _ | b, r'⟩ <;> rw [hr] at hbyte
  · exact hbyte
  · exact hbyte
  · rcases hn : followers? b with _ | n
    · simpa only [hn] using hbyte
    · have hbytes := size_readBytes_le n r'
      rcases hs : r'.readBytes n with ⟨_ | bs, r''⟩ <;> rw [hs] at hbytes
      · simpa only [hn, hs] using Nat.lt_of_le_of_lt hbytes hbyte
      · simpa only [hn, hs] using Nat.lt_of_le_of_lt hbytes hbyte

/-- The source of the characters that the reader yields: its answers until it holds
nothing more. -/
def deliveries (r : Reader) : Source :=
  if r.isExhausted then []
  else
    let answer := r.read
    answer.1 :: answer.2.deliveries
termination_by r.size
decreasing_by exact size_read_lt (Bool.eq_false_iff.2 ‹_›)

end Reader

end TemplateLexer
