import TableSchema.Text.Word

/-! Identifiers. A plain name is written as it is; any other name stands between double quotes,
with each double quote in it doubled. -/

namespace TableSchema.Sql

open Text

/-- Whether a text is a plain name: a letter or another numeral than a decimal digit, then word
characters and dollar signs. -/
def isPlainName : List Char → Bool
  | [] => false
  | first :: rest => isNameStart first && rest.all isNamePart

def doubleQuotes : List Char → List Char
  | [] => []
  | character :: rest =>
      if character = '"' then '"' :: '"' :: doubleQuotes rest else character :: doubleQuotes rest

/-- A text with every pair of double quotes made one, from left to right. -/
def collapseQuotes : List Char → List Char
  | [] => []
  | '"' :: '"' :: rest => '"' :: collapseQuotes rest
  | character :: rest => character :: collapseQuotes rest

/-- The name that an identifier writes. A text that does not stand between double quotes is its
own name. -/
def unquote : List Char → List Char
  | '"' :: rest =>
      if rest.getLast? = some '"' then collapseQuotes rest.dropLast else '"' :: rest
  | text => text

def quote (name : List Char) : List Char :=
  if isPlainName name then name else '"' :: doubleQuotes name ++ ['"']

example : quote "a\"b".toList = "\"a\"\"b\"".toList := by decide

example : unquote "\"a\"\"b\"".toList = "a\"b".toList := by decide

/-- A lone double quote is no pair of delimiters. -/
example : unquote ['"'] = ['"'] := by decide

theorem collapseQuotes_doubleQuotes (name : List Char) :
    collapseQuotes (doubleQuotes name) = name := by
  induction name with
  | nil => rfl
  | cons character rest induction =>
      by_cases equal : character = '"'
      · simp [doubleQuotes, collapseQuotes, equal, induction]
      · simp only [doubleQuotes, equal, if_false]
        rw [collapseQuotes.eq_3 _ _ (fun _ same _ => equal same), induction]

theorem unquote_quote (name : List Char) : unquote (quote name) = name := by
  unfold quote
  split
  · rename_i plain
    cases name with
    | nil => rfl
    | cons first rest =>
        have noQuote : first ≠ '"' := by
          rintro rfl
          have refused : isNameStart '"' = false := by decide
          simp [isPlainName, refused] at plain
        exact unquote.eq_2 _ fun _ equation => noQuote (List.cons.inj equation).1
  · simp [unquote, collapseQuotes_doubleQuotes]

end TableSchema.Sql
