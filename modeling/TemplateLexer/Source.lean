/-!
# Sources of characters

A `Source` is what a supply of characters answers to one request after another.  Each
`Delivery` is a character, the end of the input, or a failure; after the last delivery
the source has ended.  Neither an end nor a failure has to be the last delivery.
-/

namespace TemplateLexer

/-! ### Failures -/

/-- The kind of a failed read. -/
inductive IoError.Kind where
  | invalidData
  | unexpectedEnd
  | brokenPipe
  | timedOut
  | wouldBlock
  | interrupted
  | other
  deriving DecidableEq, Repr

/-- A failed read. -/
structure IoError where
  kind : IoError.Kind
  message : String
  deriving DecidableEq, Repr

/-- All kinds of failures. -/
def IoError.Kind.all : List IoError.Kind :=
  [invalidData, unexpectedEnd, brokenPipe, timedOut, wouldBlock, interrupted, other]

/-- The name of a kind of failure. -/
def IoError.Kind.name : IoError.Kind → String
  | invalidData => "InvalidData"
  | unexpectedEnd => "UnexpectedEof"
  | brokenPipe => "BrokenPipe"
  | timedOut => "TimedOut"
  | wouldBlock => "WouldBlock"
  | interrupted => "Interrupted"
  | other => "Other"

/-- The kind of failure with the given name, if any. -/
def IoError.Kind.ofName? (s : String) : Option IoError.Kind :=
  all.find? (·.name = s)

/-! ### Deliveries -/

/-- The answer to one request for a character. -/
inductive Delivery where
  /-- The next character of the input. -/
  | char (c : Char)
  /-- The input has ended. -/
  | ended
  /-- The request failed. -/
  | failed (e : IoError)
  deriving DecidableEq, Repr

/-- The character of a delivery, if it is one. -/
def Delivery.char? : Delivery → Option Char
  | char c => some c
  | _ => none

/-- The deliveries that a supply of characters still holds. -/
abbrev Source := List Delivery

namespace Source

/-- The source that delivers the characters `cs`. -/
def ofChars (cs : List Char) : Source :=
  cs.map .char

/-- The source that delivers the characters of `s`. -/
def ofString (s : String) : Source :=
  ofChars s.toList

/-- The answer to the next request, and what the source holds after it. -/
def read : Source → Delivery × Source
  | [] => (.ended, [])
  | d :: source => (d, source)

/-- The next `n` answers, and what the source holds after them. -/
def readMany : Nat → Source → List Delivery × Source
  | 0, source => ([], source)
  | n + 1, source =>
    let (d, source) := source.read
    let (ds, source) := readMany n source
    (d :: ds, source)

/-- The characters that the source delivers before anything else. -/
def leading : Source → List Char
  | .char c :: source => c :: leading source
  | _ => []

/-- No request to the source fails. -/
def IsErrorFree (source : Source) : Prop :=
  ∀ e, .failed e ∉ source

@[simp]
theorem leading_ofChars (cs : List Char) :
  leading (ofChars cs) = cs
  := by
  induction cs with
  | nil => rfl
  | cons c cs ih => simpa [ofChars, leading] using ih

@[simp]
theorem isErrorFree_ofChars (cs : List Char) :
  IsErrorFree (ofChars cs)
  := by
  simp [IsErrorFree, ofChars]

@[simp]
theorem leading_ofString (s : String) :
  leading (ofString s) = s.toList
  := leading_ofChars s.toList

@[simp]
theorem isErrorFree_ofString (s : String) :
  IsErrorFree (ofString s)
  := isErrorFree_ofChars s.toList

end Source

end TemplateLexer
