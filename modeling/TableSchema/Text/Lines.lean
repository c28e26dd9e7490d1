/-! Lines of a text. Inside the library a line ends with a line feed; texts that come from
outside may end their lines in other ways and are brought to this form when they are read. -/

namespace TableSchema.Text

def newlines (text : List Char) : Nat := text.count '\n'

/-- The number of the line that holds the character at `position`; lines count from one. -/
def lineAt (text : List Char) (position : Nat) : Nat := newlines (text.take position) + 1

/-- The first character stands on the first line, and a line feed ends its own line. -/
example : lineAt ['a', '\n', 'b'] 0 = 1 ∧ lineAt ['a', '\n', 'b'] 2 = 2 := by decide

/-- The place that a signed position means: a negative one counts from the end of a text of
`length` characters, and none lies before its start. -/
def placeOf (length : Nat) (position : Int) : Nat :=
  if position < 0 then (length + position).toNat else position.toNat

example : placeOf 5 (-2) = 3 ∧ placeOf 5 (-9) = 0 ∧ placeOf 5 4 = 4 := by decide

/-- A text with every way to end a line (a carriage return, a line feed, or one right after
the other) written as one line feed. -/
def unifyLineEnds : List Char → List Char
  | [] => []
  | '\r' :: '\n' :: rest => '\n' :: unifyLineEnds rest
  | '\r' :: rest => '\n' :: unifyLineEnds rest
  | character :: rest => character :: unifyLineEnds rest

example : unifyLineEnds ['a', '\r', '\n', '\r', 'b'] = ['a', '\n', '\n', 'b'] := by decide

theorem not_mem_unifyLineEnds (text : List Char) : '\r' ∉ unifyLineEnds text := by
  fun_induction unifyLineEnds text with
  | case1 => simp
  | case2 _ induction | case3 _ _ induction => simpa using induction
  | case4 character rest _ other induction =>
      simp only [List.mem_cons, not_or]
      exact ⟨fun same => other same.symm, induction⟩

end TableSchema.Text
