/-
Texts as they are displayed. In columns they are padded to a width, counted in characters. In
descriptions they stand in double quotes, with quotes, backslashes and all that cannot be printed
for itself escaped. On a terminal, characters that would make it do something are written as
escapes, and of a text with several lines the first one is shown.
-/
import SyntaxWalk.Text.Classes

namespace SyntaxWalk.Text

/-! ## Columns -/

/-- A character, `count` times. -/
def fill (c : Char) (count : Nat) : String := String.ofList (List.replicate count c)

/-- A text at the left of a column; one that is too wide stays as it is. -/
def padRight (c : Char) (width : Nat) (text : String) : String :=
  text ++ fill c (width - text.length)

/-- A text at the right of a column; one that is too wide stays as it is. -/
def padLeft (c : Char) (width : Nat) (text : String) : String :=
  fill c (width - text.length) ++ text

/-! ## Code points -/

/-- Hexadecimal digits of a number, at least `width` of them. -/
def hexDigits (width : Nat) (n : Nat) : String :=
  padLeft '0' width (String.ofList (Nat.toDigits 16 n))

/-- The escape of a character by its code point. -/
def codePoint (c : Char) : String := "\\u\x7b" ++ hexDigits 1 c.toNat ++ "\x7d"

/-! ## Quotes -/

/-- A character inside quotes. -/
def quoteChar (c : Char) : String :=
  match c with
  | '"' => "\\\""
  | '\\' => "\\\\"
  | '\n' => "\\n"
  | '\t' => "\\t"
  | '\r' => "\\r"
  | '\x00' => "\\0"
  | c => if isPrintable c then c.toString else codePoint c

/-- A text in quotes. -/
def quote (text : String) : String :=
  text.foldl (fun out c => out ++ quoteChar c) "\"" ++ "\""

/-- Texts in brackets. -/
def bracket (items : List String) : String := "[" ++ ", ".intercalate items ++ "]"

/-- Quoted texts in brackets. -/
def quoteAll (texts : List String) : String := bracket (texts.map quote)

/-! ## Terminals -/

/-- Whether a character can start a command to a terminal, or make it sound, go back, clear the page
or delete, among those of one byte. -/
def isCommand (c : Char) : Bool :=
  c = '\x1b' || c = '\x07' || c = '\x08' || c = '\x0c' || c = '\x7f'

/-- A character as it is shown. Of the control characters beyond ASCII every one is escaped. -/
def showChar (c : Char) : String :=
  if isCommand c then "\\x" ++ hexDigits 2 c.toNat
  else if 0x80 ≤ c.toNat && c.toNat ≤ 0x9F then codePoint c
  else c.toString

/-- The first line of a text. It ends before a line feed, with which a carriage return in front of
it goes too; the same holds for the end of the text, where a line feed follows when it is shown. -/
def firstLine (text : List Char) : List Char :=
  let line := text.takeWhile (· ≠ '\n')
  if line.getLast? = some '\r' then line.dropLast else line

/-- The first line of a text, as it is shown. -/
def shown (text : String) : String :=
  (firstLine text.toList).foldl (fun out c => out ++ showChar c) ""

end SyntaxWalk.Text
