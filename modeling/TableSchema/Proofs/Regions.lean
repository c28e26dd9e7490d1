import TableSchema.Proofs.Matching
import TableSchema.Sql.Mask

/-! # Regions and the text around them

Whether a region stands at a place, and where it ends, depends on the two characters before the
place and on all of the text behind it. The dependence is loose: a region that has been closed
stays as it is whatever follows it, but for one character.
-/

namespace TableSchema.Sql

open Text

/-! ## Looking behind -/

namespace Behind

def pushAll (behind : Behind) (text : List Char) : Behind := text.foldl push behind

@[simp] theorem pushAll_nil (behind : Behind) : behind.pushAll [] = behind := rfl

@[simp] theorem pushAll_cons (behind : Behind) (character : Char) (text : List Char) :
    behind.pushAll (character :: text) = (behind.push character).pushAll text := rfl

@[simp] theorem pushAll_append (behind : Behind) (first second : List Char) :
    behind.pushAll (first ++ second) = (behind.pushAll first).pushAll second :=
  List.foldl_append

/-- No region can tell the two apart. -/
def Agrees (left right : Behind) : Prop :=
  isWordAt left.last = isWordAt right.last ∧ left.opensEscapes = right.opensEscapes

theorem Agrees.refl (behind : Behind) : behind.Agrees behind := ⟨rfl, rfl⟩

theorem Agrees.push {left right : Behind} (agree : left.Agrees right) (character : Char) :
    (left.push character).Agrees (right.push character) := by
  refine ⟨rfl, ?_⟩
  simp only [opensEscapes, Behind.push]
  rw [agree.1]

theorem Agrees.pushAll {left right : Behind} (agree : left.Agrees right) (text : List Char) :
    (left.pushAll text).Agrees (right.pushAll text) := by
  induction text generalizing left right with
  | nil => exact agree
  | cons character rest induction => exact induction (agree.push character)

/-- What stands behind has no say in what follows. -/
def Fresh (behind : Behind) : Prop := isWordAt behind.last = false

theorem start_fresh : start.Fresh := rfl

theorem push_fresh (behind : Behind) {character : Char} (outside : isWord character = false) :
    (behind.push character).Fresh := outside

theorem Fresh.opensEscapes_eq_false {behind : Behind} (fresh : behind.Fresh) :
    behind.opensEscapes = false := by
  have different (letter : Char) (word : isWord letter = true) :
      (behind.last == some letter) = false := by
    rw [beq_eq_false_iff_ne]
    intro same
    rw [Fresh, same, isWordAt, word] at fresh
    cases fresh
  rw [opensEscapes, different 'e' (by decide), different 'E' (by decide)]
  rfl

theorem Fresh.agrees {left right : Behind} (leftFresh : left.Fresh) (rightFresh : right.Fresh) :
    left.Agrees right :=
  ⟨leftFresh.trans rightFresh.symm,
    leftFresh.opensEscapes_eq_false.trans rightFresh.opensEscapes_eq_false.symm⟩

end Behind

theorem regionAt?_congr {left right : Behind} (agree : left.Agrees right) (text : List Char) :
    regionAt? left text = regionAt? right text := by
  unfold regionAt?
  rw [agree.1, agree.2]

/-! ## Closed regions -/

/-- Whether a region of the kind may end where `after` follows: a line comment ends before a line
feed or at the end of the text, and no quote follows the quote that ends a region. -/
def RegionKind.MayEndBefore (kind : RegionKind) (after : List Char) : Prop :=
  match kind with
  | .lineComment => ∀ character ∈ after.head?, character = '\n'
  | .string => ∀ character ∈ after.head?, character ≠ '\''
  | .quotedIdentifier => ∀ character ∈ after.head?, character ≠ '"'
  | .blockComment | .dollarString => True

inductive ClosedRegion (behind : Behind) : RegionKind → List Char → List Char → Prop
  | lineComment {inside after : List Char} (oneLine : '\n' ∉ inside)
      (ends : RegionKind.lineComment.MayEndBefore after) :
      ClosedRegion behind .lineComment ('-' :: '-' :: inside) after
  | blockComment {inside after : List Char}
      (closes : blockEnd? 0 (inside ++ after) = some (inside, after)) :
      ClosedRegion behind .blockComment ('/' :: '*' :: inside) after
  | string {inside after : List Char}
      (closes : quoteEnd? '\'' behind.opensEscapes (inside ++ after) = some (inside, after)) :
      ClosedRegion behind .string ('\'' :: inside) after
  | quotedIdentifier {inside after : List Char}
      (closes : quoteEnd? '"' false (inside ++ after) = some (inside, after)) :
      ClosedRegion behind .quotedIdentifier ('"' :: inside) after
  | dollarString {tag inside after : List Char} (free : isWordAt behind.last = false)
      (opens : tagRest? (tag ++ (inside ++ after)) = some (tag, inside ++ after))
      (closes : tagEnd? ('$' :: tag) (inside ++ after) = some (inside, after)) :
      ClosedRegion behind .dollarString ('$' :: tag ++ inside) after

/-! ### Ends of regions, whatever follows -/

theorem ne_nil_of_blockEnd? {outer : Nat} {text inside after : List Char}
    (closed : blockEnd? outer text = some (inside, after)) : inside ≠ [] := by
  fun_induction blockEnd? outer text generalizing inside with
  | case1 => cases closed
  | case2 | case4 | case5 =>
      rcases inFront_eq_some.mp closed with ⟨more, _, rfl⟩
      simp
  | case3 =>
      cases closed
      simp

theorem blockEnd?_of_blockEnd? {outer : Nat} {text inside after : List Char}
    (closed : blockEnd? outer text = some (inside, after)) (other : List Char) :
    blockEnd? outer (inside ++ other) = some (inside, other) := by
  fun_induction blockEnd? outer text generalizing inside with
  | case1 => cases closed
  | case2 _ _ induction | case4 _ _ induction =>
      rcases inFront_eq_some.mp closed with ⟨more, later, rfl⟩
      simp [blockEnd?, induction later, inFront]
  | case3 =>
      cases closed
      simp [blockEnd?]
  | case5 outer character rest notOpening notClosing notInner induction =>
      rcases inFront_eq_some.mp closed with ⟨more, later, rfl⟩
      rcases List.exists_cons_of_ne_nil (ne_nil_of_blockEnd? later) with ⟨first, others, rfl⟩
      have whole := append_of_blockEnd? later
      subst whole
      have again := induction later
      rw [List.cons_append] at again
      simp only [List.cons_append, List.nil_append]
      rw [blockEnd?]
      · rw [again]
        rfl
      · rintro _ rfl equation
        exact notOpening _ rfl (by rw [← (List.cons.inj equation).1]; rfl)
      · rintro _ rfl rfl equation
        exact notClosing _ rfl rfl (by rw [← (List.cons.inj equation).1]; rfl)
      · rintro _ _ rfl rfl equation
        exact notInner _ _ rfl rfl (by rw [← (List.cons.inj equation).1]; rfl)

theorem ne_nil_of_quoteEnd? {quote : Char} {escapes : Bool} {text inside after : List Char}
    (closed : quoteEnd? quote escapes text = some (inside, after)) : inside ≠ [] := by
  fun_induction quoteEnd? quote escapes text generalizing inside with
  | case1 | case3 => cases closed
  | case2 | case6 =>
      cases closed
      simp
  | case4 | case5 | case7 =>
      rcases inFront_eq_some.mp closed with ⟨more, _, rfl⟩
      simp

theorem ends_of_quoteEnd? {quote : Char} {escapes : Bool} {text inside after : List Char}
    (closed : quoteEnd? quote escapes text = some (inside, after)) :
    inside.getLast? = some quote ∧ ∀ character ∈ after.head?, character ≠ quote := by
  fun_induction quoteEnd? quote escapes text generalizing inside with
  | case1 | case3 => cases closed
  | case2 =>
      cases closed
      simp_all
  | case4 _ _ _ _ induction | case5 _ _ induction | case7 _ _ _ _ _ induction =>
      rcases inFront_eq_some.mp closed with ⟨more, later, rfl⟩
      have ends := induction later
      refine ⟨?_, ends.2⟩
      rw [List.getLast?_append, ends.1]
      rfl
  | case6 =>
      cases closed
      simp_all

theorem quoteEnd?_of_quoteEnd? {quote : Char} {escapes : Bool} {text inside after : List Char}
    (noBackslash : quote ≠ '\\') (closed : quoteEnd? quote escapes text = some (inside, after))
    {other : List Char} (free : ∀ character ∈ other.head?, character ≠ quote) :
    quoteEnd? quote escapes (inside ++ other) = some (inside, other) := by
  have closes : quoteEnd? quote escapes (quote :: other) = some ([quote], other) := by
    cases other with
    | nil => simp [quoteEnd?]
    | cons character rest => simp [quoteEnd?, noBackslash, free character rfl]
  fun_induction quoteEnd? quote escapes text generalizing inside with
  | case1 | case3 => cases closed
  | case2 =>
      cases closed
      simpa using closes
  | case4 character next rest escaped induction =>
      rcases inFront_eq_some.mp closed with ⟨more, later, rfl⟩
      simp [quoteEnd?, escaped, induction later, inFront]
  | case5 rest _ induction =>
      rcases inFront_eq_some.mp closed with ⟨more, later, rfl⟩
      simp [quoteEnd?, noBackslash, induction later, inFront]
  | case6 =>
      cases closed
      simpa using closes
  | case7 character next rest escaped different induction =>
      rcases inFront_eq_some.mp closed with ⟨more, later, rfl⟩
      rcases List.exists_cons_of_ne_nil (ne_nil_of_quoteEnd? later) with ⟨first, others, rfl⟩
      have again := induction later
      rw [List.cons_append] at again
      simp [quoteEnd?, escaped, different, again, inFront]

theorem length_le_of_tagEnd? {tag text inside after : List Char}
    (closed : tagEnd? tag text = some (inside, after)) : tag.length ≤ inside.length := by
  fun_induction tagEnd? tag text generalizing inside with
  | case1 => cases closed
  | case2 =>
      cases closed
      exact Nat.le_refl _
  | case3 _ _ _ induction =>
      rcases inFront_eq_some.mp closed with ⟨more, later, rfl⟩
      exact Nat.le_trans (induction later) (by simp)

theorem getLast?_of_tagEnd? {tag text inside after : List Char} (tagged : tag ≠ [])
    (closed : tagEnd? tag text = some (inside, after)) : inside.getLast? = tag.getLast? := by
  fun_induction tagEnd? tag text generalizing inside with
  | case1 => cases closed
  | case2 =>
      cases closed
      rfl
  | case3 _ _ _ induction =>
      rcases inFront_eq_some.mp closed with ⟨more, later, rfl⟩
      rcases Option.isSome_iff_exists.mp (List.getLast?_isSome.mpr tagged) with ⟨last, ends⟩
      rw [List.getLast?_append, induction later, ends]
      rfl

theorem tagEnd?_of_tagEnd? {tag text inside after : List Char} (tagged : tag ≠ [])
    (closed : tagEnd? tag text = some (inside, after)) (other : List Char) :
    tagEnd? tag (inside ++ other) = some (inside, other) := by
  fun_induction tagEnd? tag text generalizing inside with
  | case1 => cases closed
  | case2 =>
      cases closed
      rcases List.exists_cons_of_ne_nil tagged with ⟨first, rest, rfl⟩
      simp [tagEnd?]
  | case3 character rest notHere induction =>
      rcases inFront_eq_some.mp closed with ⟨more, later, rfl⟩
      have whole := append_of_tagEnd? later
      have long := length_le_of_tagEnd? later
      have notHere' : ¬ tag.isPrefixOf (character :: (more ++ other)) = true := by
        intro stands
        apply notHere
        rw [List.isPrefixOf_iff_prefix] at stands ⊢
        rw [← whole]
        have short : tag <+: character :: more :=
          List.prefix_of_prefix_length_le stands (List.prefix_append (character :: more) other)
            (by simp only [List.length_cons]; omega)
        exact short.trans (List.prefix_append (character :: more) after)
      simp [tagEnd?, notHere', induction later, inFront]

theorem tagRest?_of_tagRest? {text tag after : List Char}
    (opens : tagRest? text = some (tag, after)) (other : List Char) :
    tagRest? (tag ++ other) = some (tag, other) := by
  unfold tagRest? at opens
  split at opens
  · cases opens
  · cases opens
    rfl
  · rename_i character rest notDollar
    split at opens
    · rename_i starts
      split at opens
      · rename_i rest' equation
        cases opens
        have dollar : isWord '$' = false := by decide
        have word (letter : Char) (member : letter ∈ rest.takeWhile isWord) :
            isWord letter = true := List.mem_takeWhile_imp member
        have different : character ≠ '$' := by
          rintro rfl
          exact absurd starts (by decide)
        simp only [List.cons_append, List.append_assoc, List.nil_append]
        rw [tagRest?]
        · simp [starts, List.takeWhile_append_of_pos word, List.dropWhile_append_of_pos word,
            dollar]
        · exact fun same => different same
      · cases opens
    · cases opens

theorem getLast?_of_tagRest? {text tag after : List Char}
    (opens : tagRest? text = some (tag, after)) : tag.getLast? = some '$' := by
  unfold tagRest? at opens
  split at opens
  · cases opens
  · cases opens
    rfl
  · split at opens
    · split at opens
      · cases opens
        rw [List.getLast?_append]
        rfl
      · cases opens
    · cases opens

theorem regionAt?_of_closedRegion {behind : Behind} {kind : RegionKind} {text after : List Char}
    (closed : ClosedRegion behind kind text after) :
    regionAt? behind (text ++ after) = some (kind, text, after) := by
  cases closed with
  | lineComment oneLine ends =>
      rename_i inside
      have parts := takeWhile_of_stop (p := (· ≠ '\n')) inside after
        (fun character member => by
          simp only [ne_eq, decide_not, Bool.not_eq_true', decide_eq_false_iff_not]
          exact fun same => oneLine (same ▸ member))
        (fun character first => by simpa using ends character first)
      simp only [List.cons_append, regionAt?, parts.1, parts.2]
  | blockComment closes => simp only [List.cons_append, regionAt?, closes, closedRegion]; rfl
  | string closes => simp only [List.cons_append, regionAt?, closes, closedRegion]; rfl
  | quotedIdentifier closes => simp only [List.cons_append, regionAt?, closes, closedRegion]; rfl
  | dollarString free opens closes =>
      simp only [List.cons_append, List.append_assoc, regionAt?, free, opens, closes, closedRegion,
        Option.map_some]
      rfl

/-- A region with something behind it has been closed by its own text. -/
theorem eq_of_closedRegion {kind kind' : RegionKind} {opening rest text after : List Char}
    {split : Option (List Char × List Char)}
    (region : closedRegion kind opening rest split = (kind', text, after)) (more : after ≠ []) :
    ∃ inside, split = some (inside, after) ∧ kind' = kind ∧ text = opening ++ inside := by
  cases split with
  | none =>
      cases region
      exact absurd rfl more
  | some parts =>
      cases region
      exact ⟨parts.1, rfl, rfl, rfl⟩

theorem closedRegion_of_regionAt? {behind : Behind} {kind : RegionKind} {text after : List Char}
    (found : regionAt? behind (text ++ after) = some (kind, text, after)) (more : after ≠ []) :
    ClosedRegion behind kind text after := by
  generalize text ++ after = whole at found
  cases startsRegion_of_regionAt? found with
  | lineComment rest region =>
      cases region
      refine .lineComment (fun member => ?_) fun character first => ?_
      · have inside := List.mem_takeWhile_imp member
        simp at inside
      · simpa using stop_of_dropWhile first
  | blockComment rest region =>
      rcases eq_of_closedRegion region more with ⟨inside, closes, rfl, rfl⟩
      exact .blockComment ((append_of_blockEnd? closes).symm ▸ closes)
  | string rest region =>
      rcases eq_of_closedRegion region more with ⟨inside, closes, rfl, rfl⟩
      exact .string ((append_of_quoteEnd? closes).symm ▸ closes)
  | quotedIdentifier rest region =>
      rcases eq_of_closedRegion region more with ⟨inside, closes, rfl, rfl⟩
      exact .quotedIdentifier ((append_of_quoteEnd? closes).symm ▸ closes)
  | dollarString free tagged region =>
      rcases eq_of_closedRegion region more with ⟨inside, closes, rfl, rfl⟩
      have whole := append_of_tagEnd? closes
      exact .dollarString free (by rw [whole, append_of_tagRest? tagged]; exact tagged)
        (by rw [whole]; exact closes)

namespace ClosedRegion

variable {behind : Behind} {kind : RegionKind} {text after : List Char}

theorem mayEndBefore (closed : ClosedRegion behind kind text after) : kind.MayEndBefore after := by
  cases closed with
  | lineComment _ ends => exact ends
  | string closes => exact (ends_of_quoteEnd? closes).2
  | quotedIdentifier closes => exact (ends_of_quoteEnd? closes).2
  | blockComment | dollarString => trivial

theorem followedBy (closed : ClosedRegion behind kind text after) {other : List Char}
    (ends : kind.MayEndBefore other) : ClosedRegion behind kind text other := by
  cases closed with
  | lineComment oneLine _ => exact .lineComment oneLine ends
  | blockComment closes => exact .blockComment (blockEnd?_of_blockEnd? closes other)
  | string closes => exact .string (quoteEnd?_of_quoteEnd? (by decide) closes ends)
  | quotedIdentifier closes =>
      exact .quotedIdentifier (quoteEnd?_of_quoteEnd? (by decide) closes ends)
  | dollarString free opens closes =>
      exact .dollarString free (by simpa using tagRest?_of_tagRest? opens _)
        (tagEnd?_of_tagEnd? (by simp) closes other)

theorem standingBehind (closed : ClosedRegion behind kind text after) {other : Behind}
    (agree : behind.Agrees other) : ClosedRegion other kind text after := by
  cases closed with
  | lineComment oneLine ends => exact .lineComment oneLine ends
  | blockComment closes => exact .blockComment closes
  | string closes => exact .string (agree.2 ▸ closes)
  | quotedIdentifier closes => exact .quotedIdentifier closes
  | dollarString free opens closes => exact .dollarString (agree.1 ▸ free) opens closes

theorem delimited (closed : ClosedRegion behind kind text after)
    (literal : kind.isComment = false) :
    ∃ delimiter inside, delimiter ∈ ['\'', '"', '$'] ∧
      text = delimiter :: (inside ++ [delimiter]) := by
  cases closed with
  | lineComment | blockComment => cases literal
  | string closes =>
      rcases List.getLast?_eq_some_iff.mp (ends_of_quoteEnd? closes).1 with ⟨inside, rfl⟩
      exact ⟨'\'', inside, by simp, rfl⟩
  | quotedIdentifier closes =>
      rcases List.getLast?_eq_some_iff.mp (ends_of_quoteEnd? closes).1 with ⟨inside, rfl⟩
      exact ⟨'"', inside, by simp, rfl⟩
  | dollarString _ opens closes =>
      rename_i tag inside _
      have ends := getLast?_of_tagEnd? (by simp) closes
      rw [List.getLast?_cons, getLast?_of_tagRest? opens] at ends
      rcases List.getLast?_eq_some_iff.mp ends with ⟨inner, rfl⟩
      exact ⟨'$', tag ++ inner, by simp, by simp⟩

end ClosedRegion

/-! ## Characters of code -/

/-- A character that no token reaches for: neither a word character nor one that opens, closes or
continues a region. -/
def isInert (character : Char) : Bool :=
  !isWord character && !(['-', '*', '$', '\'', '"'].contains character)

def Quiet (text : List Char) : Prop := ∀ character ∈ text.head?, isInert character = true

theorem quiet_nil : Quiet [] := fun _ member => by cases member

theorem quiet_cons {character : Char} (inert : isInert character = true) (rest : List Char) :
    Quiet (character :: rest) := by
  rintro _ ⟨⟩
  exact inert

theorem Quiet.head_ne {character : Char} {rest : List Char} (quiet : Quiet (character :: rest))
    {other : Char} (loud : isInert other = false) : character ≠ other := by
  rintro rfl
  exact absurd (quiet character rfl) (by simp [loud])

theorem Quiet.mayEndBefore {text : List Char} (quiet : Quiet text) {kind : RegionKind}
    (other : kind ≠ .lineComment) : kind.MayEndBefore text := by
  cases text with
  | nil => cases kind <;> simp [RegionKind.MayEndBefore]
  | cons character rest =>
      cases kind with
      | lineComment => exact absurd rfl other
      | blockComment | dollarString => trivial
      | string | quotedIdentifier =>
          rintro _ ⟨⟩
          exact quiet.head_ne (by decide)

theorem tag_of_tagRest? {text tag after : List Char} (opens : tagRest? text = some (tag, after)) :
    ∀ character ∈ tag, isWord character = true ∨ character = '$' := by
  unfold tagRest? at opens
  split at opens
  · cases opens
  · cases opens
    simp
  · split at opens
    · rename_i starts
      split at opens
      · cases opens
        intro character member
        rcases List.mem_append.mp member with member | member
        · left
          rcases List.mem_cons.mp member with rfl | member
          · simp only [isNameStart, Bool.and_eq_true] at starts
            exact starts.1
          · exact List.mem_takeWhile_imp member
        · exact .inr (by simpa using member)
      · cases opens
    · cases opens

theorem tagRest?_eq_none_of_quiet {text rest other : List Char}
    (none : tagRest? (text ++ rest) = none) (quiet : Quiet other) :
    tagRest? (text ++ other) = Option.none := by
  rw [Option.eq_none_iff_forall_ne_some]
  rintro ⟨tag, after⟩ opens
  rcases List.append_eq_append_iff.mp (append_of_tagRest? opens) with
    ⟨left, rfl, _⟩ | ⟨left, rfl, equation⟩
  · have again := tagRest?_of_tagRest? opens (left ++ rest)
    rw [← List.append_assoc, none] at again
    cases again
  · cases left with
    | nil =>
        have again := tagRest?_of_tagRest? opens rest
        rw [List.append_nil, none] at again
        cases again
    | cons character left =>
        subst equation
        rcases tag_of_tagRest? opens character (by simp) with word | dollar
        · have inert := quiet character rfl
          simp [isInert, word] at inert
        · exact quiet.head_ne (by decide) dollar

/-- A character of code stays code when a quiet text follows instead. -/
theorem regionAt?_eq_none_of_quiet {behind : Behind} {character : Char}
    {text rest other : List Char}
    (code : regionAt? behind (character :: (text ++ rest)) = none) (quiet : Quiet other) :
    regionAt? behind (character :: (text ++ other)) = none := by
  have openings {next : Char} {inside : List Char} (loud : isInert next = false)
      (equation : text ++ other = next :: inside) : ∃ more, text = next :: more := by
    cases text with
    | nil =>
        rw [List.nil_append] at equation
        subst equation
        exact absurd rfl (quiet.head_ne loud)
    | cons first more => exact ⟨more, by rw [(List.cons.inj equation).1]⟩
  generalize equation : character :: (text ++ other) = whole
  unfold regionAt?
  split
  · rcases List.cons.inj equation with ⟨rfl, next⟩
    rcases openings (by decide) next with ⟨more, rfl⟩
    simp [regionAt?] at code
  · rcases List.cons.inj equation with ⟨rfl, next⟩
    rcases openings (by decide) next with ⟨more, rfl⟩
    simp [regionAt?] at code
  · rcases List.cons.inj equation with ⟨rfl, _⟩
    simp [regionAt?] at code
  · rcases List.cons.inj equation with ⟨rfl, _⟩
    simp [regionAt?] at code
  · rcases List.cons.inj equation with ⟨rfl, rfl⟩
    split
    · rfl
    · rename_i notWord
      rw [Bool.not_eq_true] at notWord
      simp only [regionAt?, notWord, Bool.false_eq_true, if_false, Option.map_eq_none_iff] at code
      rw [tagRest?_eq_none_of_quiet code quiet]
      rfl
  · rfl

end TableSchema.Sql
