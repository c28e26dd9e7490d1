import TableSchema.Sql.Region

/-! Scanning of SQL text. A text is cut from left to right into segments: regions, and the single
characters of code between them. -/

namespace TableSchema.Sql

inductive Segment where
  | code (character : Char)
  | region (kind : RegionKind) (text : List Char)
  deriving DecidableEq, Repr

namespace Segment

def text : Segment → List Char
  | .code character => [character]
  | .region _ text => text

def isLineComment : Segment → Bool
  | .region .lineComment _ => true
  | _ => false

end Segment

def segmentsAfter (behind : Behind) : (skip : Nat) → List Char → List Segment
  | _, [] => []
  | skip + 1, character :: rest => segmentsAfter (behind.push character) skip rest
  | 0, character :: rest =>
      match regionAt? behind (character :: rest) with
      | some (kind, text, _) =>
          .region kind text :: segmentsAfter (behind.push character) (text.length - 1) rest
      | none => .code character :: segmentsAfter (behind.push character) 0 rest

def segments (text : List Char) : List Segment := segmentsAfter .start 0 text

example : segments "a--b\n".toList =
    [.code 'a', .region .lineComment "--b".toList, .code '\n'] := by decide

/-- A comment opened inside a string is part of the string. -/
example : segments "'--'x".toList = [.region .string "'--'".toList, .code 'x'] := by decide

theorem text_segmentsAfter (behind : Behind) (skip : Nat) (text : List Char) :
    (segmentsAfter behind skip text).flatMap Segment.text = text.drop skip := by
  fun_induction segmentsAfter behind skip text with
  | case1 => simp
  | case2 behind skip character rest induction => simpa using induction
  | case3 behind character rest kind text after found induction =>
      have whole := append_of_regionAt? found
      have nonempty := ne_nil_of_regionAt? found
      obtain ⟨first, more, rfl⟩ := List.exists_cons_of_ne_nil nonempty
      obtain ⟨rfl, rfl⟩ := List.cons.inj whole
      simpa [Segment.text] using induction
  | case4 behind character rest _ induction => simp [Segment.text, induction]

theorem text_segments (text : List Char) : (segments text).flatMap Segment.text = text :=
  text_segmentsAfter .start 0 text

/-! ## Places of regions -/

def regionsFrom (start : Nat) : List Segment → List Region
  | [] => []
  | .code _ :: rest => regionsFrom (start + 1) rest
  | .region kind text :: rest =>
      ⟨kind, start, start + text.length⟩ :: regionsFrom (start + text.length) rest

def scan (text : List Char) : List Region := regionsFrom 0 (segments text)

example : scan "x 'a''b' /* /* */ */".toList =
    [⟨.string, 2, 8⟩, ⟨.blockComment, 9, 20⟩] := by decide

end TableSchema.Sql
