import TableSchema.Text.Word

/-! Regions of SQL text: comments, string literals and quoted identifiers, which hold nothing of
the structure of a statement. A region is the token of its kind that starts at its first
character; one that is never closed runs to the end of the text. -/

namespace TableSchema.Sql

open Text

inductive RegionKind where
  | lineComment
  | blockComment
  | string
  | dollarString
  | quotedIdentifier
  deriving DecidableEq, Repr

namespace RegionKind

def all : List RegionKind :=
  [.lineComment, .blockComment, .string, .dollarString, .quotedIdentifier]

def name : RegionKind → String
  | .lineComment => "line_comment"
  | .blockComment => "block_comment"
  | .string => "string"
  | .dollarString => "dollar_string"
  | .quotedIdentifier => "quoted_identifier"

def ofName? (name : String) : Option RegionKind := all.find? (·.name = name)

/-- Comments carry no code at all; the other kinds are literals. -/
def isComment : RegionKind → Bool
  | .lineComment | .blockComment => true
  | .string | .dollarString | .quotedIdentifier => false

def isLiteral (kind : RegionKind) : Bool := !kind.isComment

end RegionKind

/-- The characters of a text from place `start` up to place `stop`, which is not included. -/
structure Region where
  kind : RegionKind
  start : Nat
  stop : Nat
  deriving DecidableEq, Repr

/-! ## Looking behind

Whether a quote or a dollar sign opens a region, and which kind, depends on the one or two
characters before it. -/

structure Behind where
  last : Option Char
  secondLast : Option Char

namespace Behind

def start : Behind := ⟨none, none⟩

def push (behind : Behind) (character : Char) : Behind := ⟨some character, behind.last⟩

/-- A string after a letter E that is a word of its own has backslash escapes. -/
def opensEscapes (behind : Behind) : Bool :=
  (behind.last == some 'e' || behind.last == some 'E') && !isWordAt behind.secondLast

end Behind

/-! ## How regions end

Each function is given the text after what opens a region and splits it behind the region's
end; it gives nothing if the region is never closed. -/

def inFront (read : List Char) :
    Option (List Char × List Char) → Option (List Char × List Char) :=
  Option.map fun parts => (read ++ parts.1, parts.2)

/-- A block comment ends where every comment that is opened in it has been closed, and it too;
`outer` counts the comments around the current one. -/
def blockEnd? : (outer : Nat) → List Char → Option (List Char × List Char)
  | _, [] => none
  | outer, '/' :: '*' :: rest => inFront ['/', '*'] (blockEnd? (outer + 1) rest)
  | 0, '*' :: '/' :: rest => some (['*', '/'], rest)
  | outer + 1, '*' :: '/' :: rest => inFront ['*', '/'] (blockEnd? outer rest)
  | outer, character :: rest => inFront [character] (blockEnd? outer rest)

/-- A quoted region ends at the first quote that is not half of a doubled one. With escapes, a
backslash takes the next character with it. -/
def quoteEnd? (quote : Char) (escapes : Bool) : List Char → Option (List Char × List Char)
  | [] => none
  | [character] => if character = quote then some ([character], []) else none
  | character :: next :: rest =>
      if escapes && character == '\\' then
        inFront [character, next] (quoteEnd? quote escapes rest)
      else if character = quote then
        if next = quote then inFront [character, next] (quoteEnd? quote escapes rest)
        else some ([character], next :: rest)
      else inFront [character] (quoteEnd? quote escapes (next :: rest))

/-- A dollar string ends behind the next occurrence of its tag. -/
def tagEnd? (tag : List Char) : List Char → Option (List Char × List Char)
  | [] => none
  | character :: rest =>
      if tag.isPrefixOf (character :: rest) then
        some (tag, (character :: rest).drop tag.length)
      else inFront [character] (tagEnd? tag rest)

/-- The rest of a dollar tag after its first dollar sign: a name without dollar signs, which may
be missing, and a dollar sign. -/
def tagRest? : List Char → Option (List Char × List Char)
  | [] => none
  | '$' :: rest => some (['$'], rest)
  | character :: rest =>
      if isNameStart character then
        match rest.dropWhile isWord with
        | '$' :: rest' => some (character :: rest.takeWhile isWord ++ ['$'], rest')
        | _ => none
      else none

/-! Each of these splits takes a text apart and leaves nothing out. -/

theorem inFront_eq_some {read inside after : List Char} {split : Option (List Char × List Char)} :
    inFront read split = some (inside, after) ↔
      ∃ more, split = some (more, after) ∧ inside = read ++ more := by
  rcases split with _ | ⟨more, rest⟩
  · simp [inFront]
  · constructor
    · intro equation
      cases equation
      exact ⟨more, rfl, rfl⟩
    · rintro ⟨_, equation, rfl⟩
      cases equation
      rfl

theorem append_of_blockEnd? {outer : Nat} {text inside after : List Char}
    (closed : blockEnd? outer text = some (inside, after)) : inside ++ after = text := by
  fun_induction blockEnd? outer text generalizing inside with
  | case1 => cases closed
  | case2 _ _ induction | case4 _ _ induction | case5 _ _ _ _ _ _ induction =>
      obtain ⟨more, later, rfl⟩ := inFront_eq_some.mp closed
      simp [← induction later]
  | case3 =>
      cases closed
      rfl

theorem append_of_quoteEnd? {quote : Char} {escapes : Bool} {text inside after : List Char}
    (closed : quoteEnd? quote escapes text = some (inside, after)) : inside ++ after = text := by
  fun_induction quoteEnd? quote escapes text generalizing inside with
  | case1 | case3 => cases closed
  | case2 | case6 =>
      cases closed
      rfl
  | case4 _ _ _ _ induction | case5 _ _ induction | case7 _ _ _ _ _ induction =>
      obtain ⟨more, later, rfl⟩ := inFront_eq_some.mp closed
      simp [← induction later]

theorem append_of_tagEnd? {tag text inside after : List Char}
    (closed : tagEnd? tag text = some (inside, after)) : inside ++ after = text := by
  fun_induction tagEnd? tag text generalizing inside with
  | case1 => cases closed
  | case2 character rest stands =>
      obtain ⟨behind, equation⟩ := List.isPrefixOf_iff_prefix.mp stands
      cases closed
      rw [← equation, List.drop_left]
  | case3 _ _ _ induction =>
      obtain ⟨more, later, rfl⟩ := inFront_eq_some.mp closed
      simp [← induction later]

theorem append_of_tagRest? {text inside after : List Char}
    (closed : tagRest? text = some (inside, after)) : inside ++ after = text := by
  unfold tagRest? at closed
  split at closed
  · cases closed
  · cases closed
    rfl
  · rename_i character rest _
    split at closed
    · split at closed
      · rename_i rest' equation
        cases closed
        have whole := List.takeWhile_append_dropWhile (p := isWord) (l := rest)
        rw [equation] at whole
        simpa using whole
      · cases closed
    · cases closed

/-! ## Regions -/

abbrev RegionSplit := RegionKind × List Char × List Char

def closedRegion (kind : RegionKind) (opening rest : List Char) :
    Option (List Char × List Char) → RegionSplit
  | some (inside, after) => (kind, opening ++ inside, after)
  | none => (kind, opening ++ rest, [])

def regionAt? (behind : Behind) : List Char → Option RegionSplit
  | '-' :: '-' :: rest =>
      some (.lineComment, '-' :: '-' :: rest.takeWhile (· ≠ '\n'), rest.dropWhile (· ≠ '\n'))
  | '/' :: '*' :: rest => some (closedRegion .blockComment ['/', '*'] rest (blockEnd? 0 rest))
  | '\'' :: rest =>
      some (closedRegion .string ['\''] rest (quoteEnd? '\'' behind.opensEscapes rest))
  | '"' :: rest => some (closedRegion .quotedIdentifier ['"'] rest (quoteEnd? '"' false rest))
  | '$' :: rest =>
      if isWordAt behind.last then none
      else (tagRest? rest).map fun (tag, rest) =>
        closedRegion .dollarString ('$' :: tag) rest (tagEnd? ('$' :: tag) rest)
  | _ => none

theorem append_closedRegion {kind : RegionKind} {opening rest : List Char}
    {split : Option (List Char × List Char)}
    (whole : ∀ parts, split = some parts → parts.1 ++ parts.2 = rest) :
    (closedRegion kind opening rest split).2.1 ++ (closedRegion kind opening rest split).2.2 =
      opening ++ rest := by
  cases split with
  | none => simp [closedRegion]
  | some parts => simp [closedRegion, whole parts rfl]

theorem opening_isPrefix_closedRegion {kind : RegionKind} {opening rest : List Char}
    {split : Option (List Char × List Char)} :
    opening <+: (closedRegion kind opening rest split).2.1 := by
  cases split <;> simp [closedRegion]

theorem opening_of_closedRegion {kind kind' : RegionKind} {opening rest text after : List Char}
    {split : Option (List Char × List Char)}
    (region : closedRegion kind opening rest split = (kind', text, after)) :
    kind' = kind ∧ opening <+: text := by
  have start := @opening_isPrefix_closedRegion kind opening rest split
  rw [region] at start
  cases split <;> cases region <;> exact ⟨rfl, start⟩

inductive StartsRegion (behind : Behind) (split : RegionSplit) : List Char → Prop
  | lineComment (rest : List Char)
      (region : (.lineComment, '-' :: '-' :: rest.takeWhile (· ≠ '\n'),
        rest.dropWhile (· ≠ '\n')) = split) :
      StartsRegion behind split ('-' :: '-' :: rest)
  | blockComment (rest : List Char)
      (region : closedRegion .blockComment ['/', '*'] rest (blockEnd? 0 rest) = split) :
      StartsRegion behind split ('/' :: '*' :: rest)
  | string (rest : List Char)
      (region : closedRegion .string ['\''] rest (quoteEnd? '\'' behind.opensEscapes rest) =
        split) :
      StartsRegion behind split ('\'' :: rest)
  | quotedIdentifier (rest : List Char)
      (region : closedRegion .quotedIdentifier ['"'] rest (quoteEnd? '"' false rest) = split) :
      StartsRegion behind split ('"' :: rest)
  | dollarString {rest tag inner : List Char} (free : isWordAt behind.last = false)
      (tagged : tagRest? rest = some (tag, inner))
      (region : closedRegion .dollarString ('$' :: tag) inner (tagEnd? ('$' :: tag) inner) =
        split) :
      StartsRegion behind split ('$' :: rest)

theorem startsRegion_of_regionAt? {behind : Behind} {text : List Char} {split : RegionSplit}
    (found : regionAt? behind text = some split) : StartsRegion behind split text := by
  unfold regionAt? at found
  split at found
  · exact .lineComment _ (Option.some.inj found)
  · exact .blockComment _ (Option.some.inj found)
  · exact .string _ (Option.some.inj found)
  · exact .quotedIdentifier _ (Option.some.inj found)
  · split at found
    · cases found
    · rename_i notWord
      obtain ⟨_, tagged, region⟩ := Option.map_eq_some_iff.mp found
      exact .dollarString (by simpa using notWord) tagged region
  · cases found

theorem append_of_regionAt? {behind : Behind} {text : List Char} {split : RegionSplit}
    (found : regionAt? behind text = some split) : split.2.1 ++ split.2.2 = text := by
  cases startsRegion_of_regionAt? found with
  | lineComment rest region =>
      subst region
      simp
  | blockComment rest region =>
      subst region
      exact append_closedRegion fun parts closed => append_of_blockEnd? closed
  | string rest region | quotedIdentifier rest region =>
      subst region
      exact append_closedRegion fun parts closed => append_of_quoteEnd? closed
  | dollarString _ tagged region =>
      subst region
      rw [append_closedRegion fun parts closed => append_of_tagEnd? closed]
      simp [append_of_tagRest? tagged]

theorem ne_nil_of_regionAt? {behind : Behind} {text : List Char} {split : RegionSplit}
    (found : regionAt? behind text = some split) : split.2.1 ≠ [] := by
  cases startsRegion_of_regionAt? found with
  | lineComment rest region =>
      subst region
      simp
  | blockComment _ region | string _ region | quotedIdentifier _ region
  | dollarString _ _ region =>
      subst region
      exact opening_isPrefix_closedRegion.ne_nil (by simp)

end TableSchema.Sql
