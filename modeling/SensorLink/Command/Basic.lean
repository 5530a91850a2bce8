import SensorLink.Limits

/-! Commands to the modem: texts of at most `Limits.command` bytes, written part by part. Inside quotes a
    backslash stands before `"`, `,` and the backslash itself. -/

namespace SensorLink

structure Command where
  text : String
  fits : text.utf8ByteSize ≤ Limits.command
  deriving DecidableEq

namespace Command

def empty : Command := ⟨"", by decide⟩

def ofText? (text : String) : Option Command :=
  if h : text.utf8ByteSize ≤ Limits.command then some ⟨text, h⟩ else none

/-- A command after something was written to it, and whether all of that fitted. -/
abbrev Written := Command × Bool

/-- Goes on writing, unless something did not fit. -/
def Written.andThen (written : Written) (write : Command → Written) : Written :=
  match written with
  | (command, true) => write command
  | (command, false) => (command, false)

def push (command : Command) (c : Char) : Written :=
  if h : command.text.utf8ByteSize + c.utf8Size ≤ Limits.command then
    (⟨command.text.push c, by simpa [String.utf8ByteSize_push] using h⟩, true)
  else (command, false)

/-- Writes one item after the other, until something does not fit. -/
def each {α : Type} (write : Command → α → Written) (command : Command) : List α → Written
  | [] => (command, true)
  | item :: items => (write command item).andThen fun command => command.each write items

/-- Writes characters until one does not fit, and tells whether all of them did. -/
def append (command : Command) (cs : List Char) : Written := command.each push cs

/-- Writes a character of a value in quotes. -/
def pushEscaped (command : Command) (c : Char) : Written :=
  if c = '"' ∨ c = ',' ∨ c = '\\' then (command.push '\\').andThen fun command => command.push c
  else command.push c

/-- Writes a value in quotes. -/
def appendQuoted (command : Command) (value : String) : Written :=
  (command.push '"').andThen fun command =>
    (command.each pushEscaped value.toList).andThen fun command => command.push '"'

/-- How the modem reports that a command is done. -/
def acknowledged : String := "OK"

inductive Part where
  | plain (text : String)
  | quoted (value : String)
  | number (n : Nat)

def appendPart (command : Command) : Part → Written
  | .plain text => command.append text.toList
  | .quoted value => command.appendQuoted value
  | .number n => command.append (Nat.toDigits 10 n)

def ofParts? (parts : List Part) : Option Command :=
  match empty.each appendPart parts with
  | (command, true) => some command
  | (_, false) => none

/-! ### The text of a part -/

/-- What one character of a quoted value is written as. -/
def escape (c : Char) : List Char := if c = '"' ∨ c = ',' ∨ c = '\\' then ['\\', c] else [c]

def quote (value : List Char) : List Char := '"' :: (value.flatMap escape ++ ['"'])

def Part.chars : Part → List Char
  | .plain text => text.toList
  | .quoted value => quote value.toList
  | .number n => Nat.toDigits 10 n

end Command
end SensorLink
