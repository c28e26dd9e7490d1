import TableSchema.Proofs.Pieces
import TableSchema.Sql.Identifier

/-! # Self-contained texts

A text of code and closed literals can be put between separators: whatever stands around it, it is
cut, masked and stripped as it is alone.
-/

namespace TableSchema.Sql

open Text

/-- The text is code and literals that are closed in it. -/
def SelfContained (text : List Char) : Prop := Legible (segments text)

/-- A character of code that no region takes in or looks back at. -/
def IsSeparator (character : Char) : Prop := character ∈ ['(', ')', ',', ';', ' ', '\n']

instance (character : Char) : Decidable (IsSeparator character) :=
  inferInstanceAs (Decidable (_ ∈ _))

theorem IsSeparator.inert {character : Char} (separates : IsSeparator character) :
    isInert character = true := by
  have all : ∀ other ∈ ['(', ')', ',', ';', ' ', '\n'], isInert other = true :=
    List.all_iff_forall_prop.mp (by decide)
  exact all character separates

theorem IsSeparator.isWord_eq_false {character : Char} (separates : IsSeparator character) :
    isWord character = false := by
  have inert := separates.inert
  simp only [isInert, Bool.and_eq_true, Bool.not_eq_true'] at inert
  exact inert.1

def openers : List Char := ['-', '/', '\'', '"', '$']

theorem regionAt?_eq_none {character : Char} (free : character ∉ openers) (behind : Behind)
    (rest : List Char) : regionAt? behind (character :: rest) = none := by
  simp only [openers, List.mem_cons, List.not_mem_nil, or_false, not_or] at free
  rcases free with ⟨dash, slash, quote, double, dollar⟩
  unfold regionAt?
  split <;> simp_all

theorem IsSeparator.not_mem_openers {character : Char} (separates : IsSeparator character) :
    character ∉ openers := by
  have all : ∀ other ∈ ['(', ')', ',', ';', ' ', '\n'], other ∉ openers :=
    List.all_iff_forall_prop.mp (by decide)
  exact all character separates

theorem not_mem_openers_of_isBlank {character : Char} (blank : isBlank character = true) :
    character ∉ openers :=
  not_mem_of_holds blank (by decide)

theorem not_mem_openers_of_isWord {character : Char} (word : isWord character = true) :
    character ∉ openers :=
  not_mem_of_holds word (by decide)

/-! ## Putting texts together -/

namespace SelfContained

theorem nil : SelfContained [] := Legible.nil

theorem textOf_segments (text : List Char) : textOf (segments text) = text := text_segments text

theorem reads_append_separator {first second : List Char} {separator : Char} {after : List Char}
    (contained : SelfContained first) (separates : IsSeparator separator)
    (reads : Reads .start (segments second) after) :
    Reads .start (segments first ++ .code separator :: segments second) after := by
  rw [reads_append]
  constructor
  · apply contained.reads.alone Behind.start_fresh
    · exact quiet_cons separates.inert _
    · intro kind text last
      refine ⟨by simp, Quiet.mayEndBefore (quiet_cons separates.inert _) ?_⟩
      rintro rfl
      cases contained.uncommented _ text (List.mem_of_getLast? last)
  · refine ⟨regionAt?_eq_none separates.not_mem_openers _ _, ?_⟩
    apply reads.congr
    exact Behind.start_fresh.agrees (Behind.push_fresh _ separates.isWord_eq_false)

theorem segments_append {first : List Char} (contained : SelfContained first) {separator : Char}
    (separates : IsSeparator separator) (second : List Char) :
    segments (first ++ separator :: second) =
      segments first ++ .code separator :: segments second := by
  have cut := segments_textOf (contained.reads_append_separator separates (reads_segments second))
  rwa [textOf_append, textOf_cons, textOf_segments, textOf_segments] at cut

theorem append {first second : List Char} (contained : SelfContained first) {separator : Char}
    (separates : IsSeparator separator) (contained' : SelfContained second) :
    SelfContained (first ++ separator :: second) := by
  rw [SelfContained, contained.segments_append separates]
  refine ⟨contained.reads_append_separator separates contained'.reads, fun kind text member => ?_⟩
  rcases List.mem_append.mp member with member | member
  · exact contained.uncommented kind text member
  · rcases List.mem_cons.mp member with equal | member
    · cases equal
    · exact contained'.uncommented kind text member

theorem mask_append {first : List Char} (contained : SelfContained first) {separator : Char}
    (separates : IsSeparator separator) (second : List Char) :
    mask (first ++ separator :: second) = mask first ++ separator :: mask second := by
  rw [mask, contained.segments_append separates]
  exact maskOf_append ..

theorem stripComments_eq {text : List Char} (contained : SelfContained text) :
    stripComments text = text := by
  have same := Legible.strippedOf_eq contained
  rwa [textOf_segments] at same

theorem cons {separator : Char} (separates : IsSeparator separator) {text : List Char}
    (contained : SelfContained text) : SelfContained (separator :: text) :=
  nil.append separates contained

theorem mask_cons {separator : Char} (separates : IsSeparator separator) (text : List Char) :
    mask (separator :: text) = separator :: mask text :=
  nil.mask_append separates text

/-! ## Texts without regions -/

theorem reads_codes {text : List Char} (free : ∀ character ∈ text, character ∉ openers)
    (behind : Behind) (after : List Char) : Reads behind (text.map .code) after := by
  induction text generalizing behind with
  | nil => trivial
  | cons character text induction =>
      refine ⟨regionAt?_eq_none (free character (List.mem_cons_self ..)) _ _, ?_⟩
      exact induction (fun other member => free other (List.mem_cons_of_mem _ member)) _

theorem segments_of_free {text : List Char} (free : ∀ character ∈ text, character ∉ openers) :
    segments text = text.map .code := by
  have cut := segments_textOf (reads_codes free .start [])
  rwa [textOf_map_code] at cut

theorem of_free {text : List Char} (free : ∀ character ∈ text, character ∉ openers) :
    SelfContained text := by
  rw [SelfContained, segments_of_free free]
  refine ⟨reads_codes free _ _, fun kind text member => ?_⟩
  simp at member

theorem mask_of_free {text : List Char} (free : ∀ character ∈ text, character ∉ openers) :
    mask text = text := by
  rw [mask, segments_of_free free]
  exact maskOf_map_code text

theorem regionsFrom_map_code (start : Nat) (text : List Char) :
    regionsFrom start (text.map .code) = [] := by
  induction text generalizing start with
  | nil => rfl
  | cons character text induction => exact induction (start + 1)

theorem scan_of_free {text : List Char} (free : ∀ character ∈ text, character ∉ openers) :
    scan text = [] := by
  rw [scan, segments_of_free free, regionsFrom_map_code]

/-! ## Texts by their scans -/

theorem of_scan {text : List Char}
    (closed : ∀ region ∈ scan text, region.kind.isLiteral = true ∧ region.stop < text.length) :
    SelfContained text := by
  have listed {front back : List Segment} {kind : RegionKind} {inside : List Char}
      (cut : segments text = front ++ .region kind inside :: back) :
      ⟨kind, (textOf front).length, (textOf front).length + inside.length⟩ ∈ scan text := by
    rw [scan, cut, regionsFrom_append, Nat.zero_add]
    exact List.mem_append_right _ (List.mem_cons_self ..)
  constructor
  · apply (reads_segments text).followedBy (quiet_cons (by decide) [])
    intro kind inside last
    rcases List.getLast?_eq_some_iff.mp last with ⟨front, cut⟩
    have stops := (closed _ (listed cut)).2
    have whole := congrArg List.length (textOf_segments text)
    rw [cut, textOf_append, List.length_append] at whole
    simp only [textOf_cons, Segment.text_region, textOf_nil, List.append_nil] at whole stops
    omega
  · intro kind inside member
    rcases List.append_of_mem member with ⟨front, back, cut⟩
    have literal := (closed _ (listed cut)).1
    simpa [RegionKind.isLiteral] using literal

end SelfContained

end TableSchema.Sql
