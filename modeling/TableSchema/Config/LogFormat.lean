import TableSchema.Text.Case
import TableSchema.Text.Word

/-! Forms of log messages. A form is usable if it names at least one attribute of a message: a
name in parentheses behind a percent sign, then perhaps flags, a width and a precision, and a
letter that says how the attribute is written. An empty form stands for a usable one. -/

namespace TableSchema.Config

open Text

def afterSize : List Char → List Char
  | '*' :: rest => rest
  | text => text.dropWhile isDigit

def afterPrecision : List Char → List Char
  | '.' :: rest => if (afterSize rest).length < rest.length then afterSize rest else '.' :: rest
  | text => text

def namesAttribute : List Char → Bool
  | '%' :: '(' :: rest =>
      let name := rest.takeWhile isWord
      match rest.dropWhile isWord with
      | ')' :: rest =>
          let afterFlags := rest.dropWhile fun flag => flag ∈ ['#', '0', '+', ' ', '-']
          match afterPrecision (afterSize afterFlags) with
          | letter :: _ => !name.isEmpty && "diouxefgcrsa%".toList.contains (fold letter)
          | [] => false
      | _ => false
  | _ => false

def mentionsAttribute : List Char → Bool
  | [] => false
  | character :: rest => namesAttribute (character :: rest) || mentionsAttribute rest

def isUsableLogFormat (format : String) : Bool :=
  format.isEmpty || mentionsAttribute format.toList

def badLogFormatMessage (format : String) : String := s!"Invalid format '{format}' for '%' style"

example : isUsableLogFormat "%(message)-5.2s" = true ∧ isUsableLogFormat "plain" = false := by
  decide +kernel

end TableSchema.Config
