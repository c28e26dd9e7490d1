import TableSchema.Proofs.Hiding

/-! # What can be seen of a text

A mask, and a text without its comments, show each character as it is or show a blank. So whatever
can be seen in them stands in the text, and what is left when comments are hidden is no comment.
-/

namespace TableSchema.Sql

open Text

theorem isBlank_of_hidden {character : Char} (hidden : character ∈ [' ', '\n']) :
    isBlank character = true := by
  have blanks : ∀ blank ∈ [' ', '\n'], isBlank blank = true :=
    List.all_iff_forall_prop.mp (by decide)
  exact blanks character hidden

theorem not_blank_of_visible {shown : Option Char} {character : Char}
    (here : shown = some character) (visible : isBlank character = false) :
    ¬ ∃ blank ∈ [' ', '\n'], shown = some blank := by
  rintro ⟨blank, listed, same⟩
  cases here.symm.trans same
  rw [isBlank_of_hidden listed] at visible
  cases visible

theorem Segment.hidden_of_stripped (segment : Segment) (place : Nat) :
    segment.stripped[place]? = segment.text[place]? ∨
      ∃ blank ∈ [' ', '\n'], segment.stripped[place]? = some blank := by
  rcases segment.getElem?_stripped place with shown | ⟨blank, listed, masked⟩
  · exact .inl shown
  · cases segment with
    | code character => exact .inl rfl
    | region kind text =>
        cases comment : kind.isComment with
        | false => exact .inl (by rw [Segment.stripped_of_literal comment, Segment.text_region])
        | true =>
            rw [Segment.masked, if_pos comment] at masked
            exact .inr ⟨blank, listed, by rw [Segment.stripped_of_comment comment, masked]⟩

section

variable {segments : List Segment} {place : Nat} {character : Char}

theorem getElem?_of_strippedOf (shown : (strippedOf segments)[place]? = some character)
    (visible : isBlank character = false) : (textOf segments)[place]? = some character := by
  have inText := (getElem?_flatMap Segment.length_stripped Segment.length_stripped
    Segment.hidden_of_stripped segments place).resolve_right (not_blank_of_visible shown visible)
  exact inText.symm.trans shown

theorem slice_of_visible {start stop : Nat}
    (visible : ∀ character ∈ slice (maskOf segments) start stop, isBlank character = false) :
    slice (textOf segments) start stop = slice (maskOf segments) start stop ∧
      slice (strippedOf segments) start stop = slice (maskOf segments) start stop := by
  have apart : ∀ character ∈ slice (maskOf segments) start stop, character ∉ [' ', '\n'] := by
    intro character member hidden
    cases (visible character member).symm.trans (isBlank_of_hidden hidden)
  have masked := slice_flatMap_of_visible Segment.length_masked Segment.getElem?_masked apart
  have stripped := slice_flatMap_of_visible Segment.length_stripped Segment.getElem?_stripped apart
  exact ⟨masked.symm, stripped.trans masked.symm⟩

end

theorem getElem?_of_stripComments {text : List Char} {place : Nat} {character : Char}
    (shown : (stripComments text)[place]? = some character) (visible : isBlank character = false) :
    text[place]? = some character ∧
      ∀ region ∈ scan text, region.kind.isComment = true → ¬ region.Covers place := by
  have inText := getElem?_of_strippedOf shown visible
  rw [textOf, text_segments] at inText
  refine ⟨inText, fun region member comment covers => ?_⟩
  rcases exists_token member covers with ⟨token, _, here⟩
  have hidden := here _ Segment.length_stripped
  rw [Segment.stripped_of_comment comment] at hidden
  have blank := allBlank_map_hide token character (List.mem_of_getElem? (hidden.symm.trans shown))
  rw [blank] at visible
  cases visible

end TableSchema.Sql
