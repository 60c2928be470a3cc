import TemplateLexer.Position
import TemplateLexer.Source
import TemplateLexer.Token

/-!
# Errors

`Error` lists what can go wrong while settings are checked, a mode is named or a token is
read.  `Error.message` is the wording, `Error.code` and `Error.help?` are the code and the
advice of the diagnostic, and `Error.report` is the message with the position it refers to.
-/

namespace TemplateLexer

/-- A reason for not producing a result. -/
inductive Error where
  /-- A read failed. -/
  | io (e : IoError)
  /-- The value of a delimiter option is that of an earlier one. -/
  | duplicateDelimiter (d : Delimiter) (value : String)
  /-- The value of a delimiter option is empty. -/
  | emptyDelimiter (d : Delimiter)
  /-- The input ended inside a quoted string. -/
  | unterminatedString (p : Position)
  /-- The name of a mode is not known. -/
  | unknownMode (value : String)
  /-- A matcher was asked for before it was built. -/
  | matcherMissing
  deriving DecidableEq, Repr

/-- What was found at a position in place of what was expected. -/
structure Mismatch where
  position : Position
  found : String
  expected : String
  deriving DecidableEq, Repr

/-- A message and the position that it refers to. -/
structure Report where
  message : String
  position : Position
  deriving DecidableEq, Repr

/-- The words for a mismatch. -/
def Mismatch.message (m : Mismatch) : String :=
  m.expected ++ " expected at " ++ m.found

namespace Error

/-- The mismatch between input and expectation, for the errors that are one.  The name of a
mode has no position in the input. -/
def mismatch? : Error → Option Mismatch
  | unterminatedString p => some ⟨p, "<eof>", "end of string"⟩
  | unknownMode value => some ⟨⟨0, 0⟩, value, "block or raw text"⟩
  | _ => none

/-- The wording of an error. -/
def message (e : Error) : String :=
  match e with
  | io e => e.message
  | duplicateDelimiter d value =>
    "invalid `" ++ d.option ++ "` option `" ++ value ++ "`: block delimiter used twice"
  | emptyDelimiter d => "invalid `" ++ d.option ++ "` option: block delimiter is empty"
  | matcherMissing => "`build_fallbacks` must run before matching"
  | unterminatedString _ | unknownMode _ => (e.mismatch?.map Mismatch.message).getD ""

/-- The diagnostic code of an error; a missing matcher is a mistake of the caller and has
none. -/
def code? : Error → Option String
  | io _ => some "blocklex::io_error"
  | duplicateDelimiter _ _ => some "blocklex::duplicate_delimiter"
  | emptyDelimiter _ => some "blocklex::empty_delimiter"
  | unterminatedString _ | unknownMode _ => some "blocklex::parse"
  | matcherMissing => none

/-- The advice that goes with an error, if there is any. -/
def help? : Error → Option String
  | duplicateDelimiter _ _ =>
    some "`blockBegin`, `blockContinue` and `blockEnd` must all be different"
  | _ => none

/-- The message of an error with its position; line and column are zero for an error that
has no position in the input. -/
def report (e : Error) : Report :=
  ⟨e.message, (e.mismatch?.map Mismatch.position).getD ⟨0, 0⟩⟩

end Error

end TemplateLexer
