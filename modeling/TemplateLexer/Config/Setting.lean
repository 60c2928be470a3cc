import TemplateLexer.Config

/-!
# Settings as data

A `Setting` is a value of a settings file.  `Config.ofSetting?` reads settings from a
table: a missing entry has its default value, an unknown entry is ignored, and a value of
the wrong form makes the table unreadable.  `Config.toSetting` writes all entries, and
`Config.ofSetting?_toSetting` says that settings read back as they were written.
-/

namespace TemplateLexer

/-- A value of a settings file. -/
inductive Setting where
  /-- A text. -/
  | text (s : String)
  /-- A natural number. -/
  | natural (n : Nat)
  /-- A table of named values. -/
  | table (entries : List (String × Setting))
  /-- A value of another form, none of which is the value of any option. -/
  | other
  deriving Inhabited

namespace Setting

/-- The value as a text. -/
def text? : Setting → Option String
  | text s => some s
  | _ => none

/-- The value as a text of one character. -/
def char? : Setting → Option Char
  | text s =>
    match s.toList with
    | [c] => some c
    | _ => none
  | _ => none

/-- The sizes that can be set are those of at most 64 bits, which are below this number. -/
def sizeBound : Nat := 0x10000000000000000

/-- The value as a size. -/
def size? : Setting → Option Nat
  | natural n => if n < sizeBound then some n else none
  | _ => none

theorem size?_natural {n : Nat} (h : n < sizeBound) :
  size? (natural n) = some n
  := if_pos h

/-- The entry called `name`, read by `read?`, with the value `default` when there is no such
entry. -/
def entry? {α : Type} (entries : List (String × Setting)) (name : String)
    (read? : Setting → Option α) (default : α) : Option α :=
  match entries.lookup name with
  | some value => read? value
  | none => some default

end Setting

namespace Config

/-- The settings in a table. -/
def ofSetting? : Setting → Option Config
  | .table entries => do
    let blockBegin ← Setting.entry? entries "blockBegin" Setting.text? default.blockBegin
    let blockContinue ←
      Setting.entry? entries "blockContinue" Setting.text? default.blockContinue
    let blockEnd ← Setting.entry? entries "blockEnd" Setting.text? default.blockEnd
    let escape ← Setting.entry? entries "escape" Setting.char? default.escape
    let maxTextChunk ←
      Setting.entry? entries "maxTextChunk" Setting.size? default.maxTextChunk
    some { blockBegin, blockContinue, blockEnd, escape, maxTextChunk }
  | _ => none

/-- The table of all settings. -/
def toSetting (config : Config) : Setting :=
  .table [
    ("blockBegin", .text config.blockBegin),
    ("blockContinue", .text config.blockContinue),
    ("blockEnd", .text config.blockEnd),
    ("escape", .text (String.singleton config.escape)),
    ("maxTextChunk", .natural config.maxTextChunk)]

/-- Settings read back as they were written. -/
theorem ofSetting?_toSetting {config : Config} (h : config.maxTextChunk < Setting.sizeBound) :
  ofSetting? config.toSetting = some config
  := by
  simp [toSetting, ofSetting?, Setting.entry?, List.lookup_cons, Setting.text?,
    Setting.char?, Setting.size?_natural h]

end Config

end TemplateLexer
