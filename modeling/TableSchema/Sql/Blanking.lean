import TableSchema.Sql.Mask

/-! Blanking of chosen regions, one character after the other. The regions may be any spans, not
only those of a scan: they may overlap, run backwards or start below zero, where indices count from
the end of the text. -/

namespace TableSchema.Sql

/-- A span of indices with a kind. It is empty if it stops before it starts. -/
structure Span where
  kind : RegionKind
  start : Int
  stop : Int
  deriving DecidableEq, Repr

namespace Span

def ofRegion (region : Region) : Span := ⟨region.kind, region.start, region.stop⟩

/-- The span that is blanked when delimiters are kept: a literal of at least two characters
keeps its first and its last one. -/
def withoutDelimiters (span : Span) : Span :=
  if span.kind.isLiteral ∧ 2 ≤ span.stop - span.start then
    { span with start := span.start + 1, stop := span.stop - 1 }
  else span

end Span

/-- The place in a text of `length` characters that an index means: below zero it counts from the
end. -/
def placeAt? (length : Nat) (index : Int) : Option Nat :=
  let place := if index < 0 then index + length else index
  if 0 ≤ place ∧ place < length then some place.toNat else none

example : placeAt? 3 (-1) = some 2 ∧ placeAt? 3 3 = none := by decide

inductive BlankFault where
  | outOfRange
  deriving DecidableEq

def BlankFault.message : BlankFault → String
  | .outOfRange => "list index out of range"

def hideAt (text : List Char) (index : Int) : Except BlankFault (List Char) :=
  match placeAt? text.length index with
  | some place => .ok (text.modify place hide)
  | none => .error .outOfRange

def hideRun (start : Int) : (count : Nat) → List Char → Except BlankFault (List Char)
  | 0, text => .ok text
  | count + 1, text => do hideRun (start + 1) count (← hideAt text start)

def blankSpan (text : List Char) (span : Span) : Except BlankFault (List Char) :=
  hideRun span.start (span.stop - span.start).toNat text

/-- Hide the characters of all spans of the given kinds, one span after the other; with
`keepDelimiters`, the first and last character of each literal stay. -/
def blank (text : List Char) (spans : List Span) (kinds : List RegionKind)
    (keepDelimiters : Bool) : Except BlankFault (List Char) :=
  let chosen := spans.filter (kinds.contains ·.kind)
  (if keepDelimiters then chosen.map Span.withoutDelimiters else chosen).foldlM blankSpan text

example : (blank "a'b'".toList [⟨.string, 1, 4⟩] [.string] true).toOption =
    some "a' '".toList := by decide

end TableSchema.Sql
