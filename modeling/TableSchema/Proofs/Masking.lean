import Mathlib.Logic.Basic
import TableSchema.Proofs.Segments

/-! # What a mask shows

A mask shows nothing of a closed region but its delimiters. So a character of the mask that is
neither a blank nor a delimiter is code, and the segments can be divided there.
-/

namespace TableSchema.Sql

open Text

def maskOf (segments : List Segment) : List Char := segments.flatMap Segment.masked

def strippedOf (segments : List Segment) : List Char := segments.flatMap Segment.stripped

@[simp] theorem maskOf_nil : maskOf [] = [] := rfl

@[simp] theorem maskOf_cons (segment : Segment) (segments : List Segment) :
    maskOf (segment :: segments) = segment.masked ++ maskOf segments := rfl

@[simp] theorem maskOf_append (first second : List Segment) :
    maskOf (first ++ second) = maskOf first ++ maskOf second := List.flatMap_append

@[simp] theorem strippedOf_nil : strippedOf [] = [] := rfl

@[simp] theorem strippedOf_cons (segment : Segment) (segments : List Segment) :
    strippedOf (segment :: segments) = segment.stripped ++ strippedOf segments := rfl

@[simp] theorem strippedOf_append (first second : List Segment) :
    strippedOf (first ++ second) = strippedOf first ++ strippedOf second := List.flatMap_append

@[simp] theorem length_maskOf (segments : List Segment) :
    (maskOf segments).length = (textOf segments).length := by
  induction segments with
  | nil => rfl
  | cons segment segments induction => simp [induction, segment.length_masked]

theorem maskOf_eq_nil_iff {segments : List Segment} :
    maskOf segments = [] ↔ textOf segments = [] := by
  rw [← List.length_eq_zero_iff, length_maskOf, List.length_eq_zero_iff]

@[simp] theorem length_strippedOf (segments : List Segment) :
    (strippedOf segments).length = (textOf segments).length := by
  induction segments with
  | nil => rfl
  | cons segment segments induction => simp [induction, segment.length_stripped]

@[simp] theorem Segment.masked_code (character : Char) :
    (Segment.code character).masked = [character] := rfl

@[simp] theorem Segment.stripped_code (character : Char) :
    (Segment.code character).stripped = [character] := rfl

@[simp] theorem maskOf_map_code (text : List Char) : maskOf (text.map .code) = text := by
  simp [maskOf, List.flatMap_map, Segment.masked]

@[simp] theorem strippedOf_map_code (text : List Char) : strippedOf (text.map .code) = text := by
  simp [strippedOf, List.flatMap_map, Segment.stripped]

/-! ## Regions in a mask -/

def regionMarks : List Char := [' ', '\n', '\'', '"', '$']

theorem hide_mem_regionMarks (character : Char) : hide character ∈ regionMarks := by
  unfold hide
  split <;> decide

theorem isBlank_hide (character : Char) : isBlank (hide character) = true := by
  unfold hide
  split <;> decide

theorem allBlank_map_hide (text : List Char) : AllBlank (text.map hide) := by
  intro character member
  rcases List.mem_map.mp member with ⟨original, _, rfl⟩
  exact isBlank_hide original

theorem delimiter_mem_regionMarks {character : Char} (delimiter : character ∈ ['\'', '"', '$']) :
    character ∈ regionMarks := by
  simp only [List.mem_cons, List.not_mem_nil, or_false] at delimiter
  rcases delimiter with rfl | rfl | rfl <;> decide

theorem visible_of_delimiter {delimiter : Char} (marked : delimiter ∈ ['\'', '"', '$']) :
    isBlank delimiter = false := by
  simp only [List.mem_cons, List.not_mem_nil, or_false] at marked
  rcases marked with rfl | rfl | rfl <;> decide

theorem opening_of_literal {behind : Behind} {kind : RegionKind} {whole text after : List Char}
    (found : regionAt? behind whole = some (kind, text, after)) (literal : kind.isComment = false) :
    ∃ delimiter rest, delimiter ∈ ['\'', '"', '$'] ∧ text = delimiter :: rest := by
  cases startsRegion_of_regionAt? found with
  | lineComment rest region =>
      cases region
      cases literal
  | blockComment rest region =>
      rcases opening_of_closedRegion region with ⟨rfl, _⟩
      cases literal
  | string rest region =>
      rcases opening_of_closedRegion region with ⟨_, inside, rfl⟩
      exact ⟨'\'', inside, by simp, rfl⟩
  | quotedIdentifier rest region =>
      rcases opening_of_closedRegion region with ⟨_, inside, rfl⟩
      exact ⟨'"', inside, by simp, rfl⟩
  | dollarString _ _ region =>
      rcases opening_of_closedRegion region with ⟨_, inside, rfl⟩
      exact ⟨'$', _, by simp, rfl⟩

theorem hideInside_of_delimited (first last : Char) (inside : List Char) :
    hideInside (first :: (inside ++ [last])) = first :: (inside.map hide ++ [last]) := by
  rw [hideInside]
  · rw [List.dropLast_concat, List.getLast?_concat]
    rfl
  · simp

theorem getElem?_hideInside (text : List Char) (place : Nat) :
    (hideInside text)[place]? =
      if 1 < text.length ∧ (place = 0 ∨ place + 1 = text.length) then text[place]?
      else text[place]?.map hide := by
  rcases text with _ | ⟨first, rest⟩
  · simp [hideInside]
  · rcases List.eq_nil_or_concat rest with rfl | ⟨inside, last, rfl⟩
    · cases place <;> simp [hideInside]
    · rw [List.concat_eq_append, hideInside_of_delimited]
      cases place with
      | zero => simp
      | succ place =>
          have atEnd : 1 < (first :: (inside ++ [last])).length ∧
              (place + 1 = 0 ∨ place + 1 + 1 = (first :: (inside ++ [last])).length) ↔
                place = inside.length := by
            simp
          rw [if_congr atEnd rfl rfl, List.getElem?_cons_succ, List.getElem?_cons_succ]
          rcases Nat.lt_trichotomy place inside.length with early | rfl | late
          · rw [if_neg (Nat.ne_of_lt early), List.getElem?_append_left (by simpa using early),
              List.getElem?_append_left early, List.getElem?_map]
          · simp
          · rw [if_neg (Nat.ne_of_gt late), List.getElem?_eq_none (by simp; omega),
              List.getElem?_eq_none (by simp; omega)]
            rfl

theorem mem_regionMarks_of_mem_hidden {text : List Char} {character : Char}
    (member : character ∈ text.map hide) : character ∈ regionMarks := by
  rcases List.mem_map.mp member with ⟨original, _, rfl⟩
  exact hide_mem_regionMarks original

/-- The mask of a closed region shows nothing that could be structure. -/
theorem mem_regionMarks_of_closed {behind : Behind} {kind : RegionKind} {text after : List Char}
    (closed : ClosedRegion behind kind text after) {character : Char}
    (member : character ∈ (Segment.region kind text).masked) : character ∈ regionMarks := by
  cases comment : kind.isComment with
  | true =>
      simp only [Segment.masked, comment, if_true] at member
      exact mem_regionMarks_of_mem_hidden member
  | false =>
      rcases closed.delimited comment with ⟨delimiter, inside, marked, rfl⟩
      simp only [Segment.masked, comment, Bool.false_eq_true, if_false,
        hideInside_of_delimited] at member
      rcases List.mem_cons.mp member with rfl | member
      · exact delimiter_mem_regionMarks marked
      · rcases List.mem_append.mp member with hidden | last
        · exact mem_regionMarks_of_mem_hidden hidden
        · rw [List.mem_singleton.mp last]
          exact delimiter_mem_regionMarks marked

/-- Of a region that is never closed, the mask may show the last character. -/
theorem mem_regionMarks_of_inner {behind : Behind} {kind : RegionKind} {text after : List Char}
    (stands : (Segment.region kind text).StandsAt behind after) {character : Char}
    (member : character ∈ (Segment.region kind text).masked.dropLast) :
    character ∈ regionMarks := by
  cases comment : kind.isComment with
  | true =>
      simp only [Segment.masked, comment, if_true] at member
      exact mem_regionMarks_of_mem_hidden (List.dropLast_subset _ member)
  | false =>
      rcases opening_of_literal stands comment with ⟨delimiter, tail, marked, rfl⟩
      simp only [Segment.masked, comment, Bool.false_eq_true, if_false] at member
      rcases List.eq_nil_or_concat tail with rfl | ⟨inside, last, rfl⟩
      · simp [hideInside] at member
      · rw [List.concat_eq_append, hideInside_of_delimited, ← List.cons_append,
          List.dropLast_concat] at member
        rcases List.mem_cons.mp member with rfl | hidden
        · exact delimiter_mem_regionMarks marked
        · exact mem_regionMarks_of_mem_hidden hidden

/-- Where a mask shows anything else than blanks and delimiters, there is code, and the segments
before it and behind it make up the mask on either side. -/
theorem exists_code_of_maskOf {behind : Behind} {segments : List Segment} {after : List Char}
    (reads : Reads behind segments after) {before rest : List Char} {character : Char}
    (masked : maskOf segments = before ++ character :: rest)
    (structural : character ∉ regionMarks) (inner : rest ≠ [] ∨ after ≠ []) :
    ∃ first second, segments = first ++ .code character :: second ∧
      maskOf first = before ∧ maskOf second = rest := by
  induction segments generalizing behind before with
  | nil => simp at masked
  | cons segment segments induction =>
      rw [maskOf_cons] at masked
      have later (left : List Char) (split : before = segment.masked ++ left)
          (tail : maskOf segments = left ++ character :: rest) :
          ∃ first second, segment :: segments = first ++ .code character :: second ∧
            maskOf first = before ∧ maskOf second = rest := by
        rcases induction reads.2 tail with ⟨first, second, rfl, rfl, same⟩
        exact ⟨segment :: first, second, rfl, split.symm, same⟩
      rcases List.append_eq_append_iff.mp masked with ⟨left, split, tail⟩ | ⟨left, here, split⟩
      · exact later left split tail
      · cases left with
        | nil => exact later [] (by simpa using here.symm) (by simpa using split.symm)
        | cons first left =>
            rcases List.cons.inj split with ⟨rfl, rfl⟩
            cases segment with
            | code other =>
                cases before with
                | nil =>
                    rw [Segment.masked_code, List.nil_append] at here
                    cases here
                    exact ⟨[], segments, rfl, rfl, rfl⟩
                | cons _ before => simp at here
            | region kind text =>
                refine absurd ?_ structural
                by_cases nothing : left = []
                · subst nothing
                  have more : textOf segments ++ after ≠ [] := by
                    rcases inner with shown | more
                    · have shown : maskOf segments ≠ [] := shown
                      exact List.append_ne_nil_of_left_ne_nil (mt maskOf_eq_nil_iff.mpr shown) _
                    · exact List.append_ne_nil_of_right_ne_nil _ more
                  exact mem_regionMarks_of_closed (reads.1.closed more) (here ▸ by simp)
                · apply mem_regionMarks_of_inner reads.1
                  rw [here, List.dropLast_append_of_ne_nil (by simp),
                    List.dropLast_cons_of_ne_nil nothing]
                  simp

end TableSchema.Sql
