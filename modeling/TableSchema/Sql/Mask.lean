import TableSchema.Sql.Segment

/-! Masking. A masked text is as long as the text that it is made from and has the same lines,
but blanks in the place of what must not be read as structure. So places found in the masked
text are places in the text itself. -/

namespace TableSchema.Sql

/-- A blank in the place of a character; line feeds stay. -/
def hide (character : Char) : Char := if character = '\n' then '\n' else ' '

/-- A text hidden but for its first and its last character, which stay visible as delimiters.
A single character is hidden. -/
def hideInside : List Char → List Char
  | [] => []
  | [character] => [hide character]
  | first :: rest => first :: (rest.dropLast.map hide ++ rest.getLast?.toList)

example : hideInside "'a,b'".toList = "'   '".toList := by decide

namespace Segment

/-- A segment as structure is read: comments hidden, and literals inside their delimiters. -/
def masked : Segment → List Char
  | .code character => [character]
  | .region kind text => if kind.isComment then text.map hide else hideInside text

def stripped : Segment → List Char
  | .code character => [character]
  | .region kind text => if kind.isComment then text.map hide else text

end Segment

def mask (text : List Char) : List Char := (segments text).flatMap Segment.masked

def stripComments (text : List Char) : List Char := (segments text).flatMap Segment.stripped

example : mask "a '(' -- ,".toList = "a ' '     ".toList := by decide

/-! ## Lengths -/

theorem length_hideInside (text : List Char) : (hideInside text).length = text.length := by
  match text with
  | [] => rfl
  | [_] => rfl
  | first :: second :: rest => simp [hideInside, List.getLast?_cons]

namespace Segment

theorem length_masked (segment : Segment) : segment.masked.length = segment.text.length := by
  cases segment with
  | code => rfl
  | region kind text =>
      simp only [masked]
      split
      · exact List.length_map ..
      · exact length_hideInside text

theorem length_stripped (segment : Segment) : segment.stripped.length = segment.text.length := by
  cases segment with
  | code => rfl
  | region kind text =>
      simp only [stripped]
      split
      · exact List.length_map ..
      · rfl

end Segment

/-- Whatever is put in the place of segments, a text of the same lengths has the same length. -/
theorem length_flatMap_segments (shown : Segment → List Char)
    (same : ∀ segment, (shown segment).length = segment.text.length) (text : List Char) :
    ((segments text).flatMap shown).length = text.length := by
  rw [List.length_flatMap, List.map_congr_left fun segment _ => same segment,
    ← List.length_flatMap, text_segments]

theorem length_mask (text : List Char) : (mask text).length = text.length :=
  length_flatMap_segments _ Segment.length_masked text

theorem length_stripComments (text : List Char) :
    (stripComments text).length = text.length :=
  length_flatMap_segments _ Segment.length_stripped text

end TableSchema.Sql
