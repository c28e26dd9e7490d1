import Mathlib.Data.List.Induction
import TableSchema.Proofs.RegionEnds

/-! # Tokens

A token of each kind, described by its text alone: how it starts, where it is closed, and that it
runs to the end if nothing closes it. The region that is read at a place is the token that starts
there.
-/

namespace TableSchema.Sql

open Text

/-! ## Looking behind -/

/-- A text that ends with a letter E that is a word of its own. A string behind it has escapes. -/
def EndsWithE (before : List Char) : Prop :=
  ∃ front letter, before = front ++ [letter] ∧ (letter = 'e' ∨ letter = 'E') ∧
    isWordAt front.getLast? = false

namespace Behind

def afterText (before : List Char) : Behind := start.pushAll before

@[simp] theorem afterText_append (first second : List Char) :
    (afterText first).pushAll second = afterText (first ++ second) :=
  (pushAll_append start first second).symm

theorem afterText_last (before : List Char) : (afterText before).last = before.getLast? := by
  rcases List.eq_nil_or_concat before with rfl | ⟨front, letter, rfl⟩
  · rfl
  · rw [List.concat_eq_append, ← afterText_append, List.getLast?_concat]
    rfl

theorem opensEscapes_iff (before : List Char) :
    (afterText before).opensEscapes = true ↔ EndsWithE before := by
  rcases List.eq_nil_or_concat before with rfl | ⟨front, letter, rfl⟩
  · constructor
    · intro opens
      cases opens
    · rintro ⟨front, letter, whole, _⟩
      simp at whole
  · rw [List.concat_eq_append, ← afterText_append, opensEscapes]
    simp only [pushAll_cons, pushAll_nil, push, afterText_last, Option.some_beq_some,
      Bool.and_eq_true, Bool.or_eq_true, beq_iff_eq, Bool.not_eq_true']
    constructor
    · rintro ⟨isE, free⟩
      exact ⟨front, letter, rfl, isE, free⟩
    · rintro ⟨_, _, whole, isE, free⟩
      rcases List.append_inj' whole rfl with ⟨rfl, ⟨⟩⟩
      exact ⟨isE, free⟩

end Behind

/-! ## Tokens -/

/-- The text behind `before` starts like a token of the kind. -/
inductive Opens (before : List Char) : RegionKind → List Char → Prop
  | lineComment (rest : List Char) : Opens before .lineComment ('-' :: '-' :: rest)
  | blockComment (rest : List Char) : Opens before .blockComment ('/' :: '*' :: rest)
  | string (rest : List Char) : Opens before .string ('\'' :: rest)
  | quotedIdentifier (rest : List Char) : Opens before .quotedIdentifier ('"' :: rest)
  | dollarString {tag : List Char} (isTag : IsDollarTag tag)
      (free : isWordAt before.getLast? = false) (rest : List Char) :
      Opens before .dollarString (tag ++ rest)

inductive ClosedToken (before : List Char) : RegionKind → List Char → List Char → Prop
  | lineComment {inside after : List Char} (oneLine : '\n' ∉ inside) :
      ClosedToken before .lineComment ('-' :: '-' :: inside) ('\n' :: after)
  | blockComment {inside after : List Char} (closes : nesting ('/' :: '*' :: inside) = 0)
      (first : ∀ shorter, shorter <+: inside → shorter ≠ inside →
        nesting ('/' :: '*' :: shorter) ≠ 0) :
      ClosedToken before .blockComment ('/' :: '*' :: inside) after
  | string {inside after : List Char} (quoted : QuotedInside '\'' (EndsWithE before) inside)
      (ends : ∀ character ∈ after.head?, character ≠ '\'') :
      ClosedToken before .string ('\'' :: (inside ++ ['\''])) after
  | quotedIdentifier {inside after : List Char} (quoted : QuotedInside '"' False inside)
      (ends : ∀ character ∈ after.head?, character ≠ '"') :
      ClosedToken before .quotedIdentifier ('"' :: (inside ++ ['"'])) after
  | dollarString {tag inside after : List Char} (isTag : IsDollarTag tag)
      (free : isWordAt before.getLast? = false)
      (first : ∀ earlier more, earlier ++ (tag ++ more) = inside ++ tag → more = []) :
      ClosedToken before .dollarString (tag ++ (inside ++ tag)) after

/-- The second text, with the first one before it and the third one after it, is a token of the
kind. One that is never closed runs to the end. -/
def IsToken (before : List Char) (kind : RegionKind) (token after : List Char) : Prop :=
  ClosedToken before kind token after ∨
    after = [] ∧ Opens before kind token ∧
      ∀ shorter rest, shorter ++ rest = token → ¬ ClosedToken before kind shorter rest

section

variable {before token after text : List Char} {kind : RegionKind}

theorem ClosedToken.opens (closed : ClosedToken before kind token after) :
    Opens before kind (token ++ after) := by
  cases closed with
  | lineComment => exact .lineComment _
  | blockComment => exact .blockComment _
  | string => exact .string _
  | quotedIdentifier => exact .quotedIdentifier _
  | dollarString isTag free =>
      rw [List.append_assoc]
      exact .dollarString isTag free _

theorem IsToken.opens (isToken : IsToken before kind token after) :
    Opens before kind (token ++ after) := by
  rcases isToken with closed | ⟨rfl, opens, _⟩
  · exact closed.opens
  · rwa [List.append_nil]

theorem closedRegion_eq_iff {kind' : RegionKind} (opening rest : List Char)
    (split : Option (List Char × List Char))
    (whole : ∀ inside after, split = some (inside, after) → inside ++ after = rest)
    (opens : Opens before kind (opening ++ rest))
    (closes : ∀ token after, token ++ after = opening ++ rest →
      (ClosedToken before kind token after ↔
        ∃ inside, split = some (inside, after) ∧ token = opening ++ inside)) :
    closedRegion kind opening rest split = (kind', token, after) ↔
      kind' = kind ∧ token ++ after = opening ++ rest ∧ IsToken before kind token after := by
  cases split with
  | none =>
      -- Nothing closes the region, so no token that is closed stands here, however short.
      have never (shorter more : List Char) (same : shorter ++ more = opening ++ rest) :
          ¬ ClosedToken before kind shorter more := by
        rw [closes shorter more same]
        rintro ⟨_, impossible, _⟩
        cases impossible
      constructor
      · intro region
        cases region
        exact ⟨rfl, List.append_nil _, .inr ⟨rfl, opens, never⟩⟩
      · rintro ⟨rfl, same, closed | ⟨rfl, _⟩⟩
        · exact absurd closed (never token after same)
        · rw [List.append_nil] at same
          rw [closedRegion, same]
  | some parts =>
      rcases parts with ⟨inside, rest'⟩
      have same : (opening ++ inside) ++ rest' = opening ++ rest := by
        rw [List.append_assoc, whole inside rest' rfl]
      have closed := (closes _ _ same).mpr ⟨inside, rfl, rfl⟩
      constructor
      · intro region
        cases region
        exact ⟨rfl, same, .inl closed⟩
      · rintro ⟨rfl, same', closed' | ⟨rfl, _, never⟩⟩
        · rcases (closes token after same').mp closed' with ⟨_, ⟨⟩, rfl⟩
          rfl
        · rw [List.append_nil] at same'
          exact absurd closed (never _ _ (same.trans same'.symm))

/-! ### The region of each kind -/

theorem lineComment_eq_iff {kind' : RegionKind} {rest : List Char} :
    (RegionKind.lineComment, '-' :: '-' :: rest.takeWhile (· ≠ '\n'),
        rest.dropWhile (· ≠ '\n')) = (kind', token, after) ↔
      kind' = .lineComment ∧ token ++ after = '-' :: '-' :: rest ∧
        IsToken before .lineComment token after := by
  have closed {token after : List Char} (same : token ++ after = '-' :: '-' :: rest)
      (closed : ClosedToken before .lineComment token after) :
      token = '-' :: '-' :: rest.takeWhile (· ≠ '\n') ∧ after = rest.dropWhile (· ≠ '\n') ∧
        after ≠ [] := by
    cases closed with
    | @lineComment inside after oneLine =>
        have parts := takeWhile_of_stop (p := (· ≠ '\n')) inside ('\n' :: after)
          (fun character member => decide_eq_true fun same => oneLine (same ▸ member)) (by simp)
        simp only [List.cons_append, List.cons.injEq, true_and] at same
        rw [← same, parts.1, parts.2]
        exact ⟨rfl, rfl, by simp⟩
  have whole := List.takeWhile_append_dropWhile (p := (· ≠ '\n')) (l := rest)
  cases behind : rest.dropWhile (· ≠ '\n') with
  | nil =>
      rw [behind, List.append_nil] at whole
      rw [whole]
      exact closedRegion_eq_iff ['-', '-'] rest none (by simp) (.lineComment rest)
        fun token after same => ⟨fun isClosed => absurd behind
          ((closed same isClosed).2.1 ▸ (closed same isClosed).2.2), by simp⟩
  | cons first more =>
      have stop : first = '\n' := by
        have stops := stop_of_dropWhile (p := (· ≠ '\n')) (by rw [behind]; rfl)
        simpa using stops
      subst stop
      rw [behind] at whole
      refine closedRegion_eq_iff ['-', '-'] rest
        (some (rest.takeWhile (· ≠ '\n'), '\n' :: more)) ?_ (.lineComment rest) ?_
      · rintro _ _ ⟨⟩
        exact whole
      · intro token after same
        constructor
        · intro isClosed
          rcases closed same isClosed with ⟨rfl, rfl, _⟩
          exact ⟨_, by rw [behind], rfl⟩
        · rintro ⟨_, ⟨⟩, rfl⟩
          refine .lineComment fun member => ?_
          simpa using List.mem_takeWhile_imp member

theorem blockComment_eq_iff {kind' : RegionKind} {rest : List Char} :
    closedRegion .blockComment ['/', '*'] rest (blockEnd? 0 rest) = (kind', token, after) ↔
      kind' = .blockComment ∧ token ++ after = ['/', '*'] ++ rest ∧
        IsToken before .blockComment token after := by
  have opened (text : List Char) :
      nesting ('/' :: '*' :: text) = 0 ↔ nesting text = -((0 : Nat) + 1 : Int) := by
    change nesting text + 1 = 0 ↔ _
    omega
  refine closedRegion_eq_iff _ rest _ (fun _ _ => append_of_blockEnd?) (.blockComment rest) ?_
  intro token after same
  simp only [blockEnd?_eq_some]
  constructor
  · intro closed
    cases closed with
    | @blockComment inside after closes first =>
        refine ⟨inside, ⟨by simpa using same, (opened inside).mp closes, ?_⟩, rfl⟩
        exact fun shorter isPrefix other reached =>
          first shorter isPrefix other ((opened shorter).mpr reached)
  · rintro ⟨inside, ⟨_, reaches, earlier⟩, rfl⟩
    refine .blockComment ((opened inside).mpr reaches) ?_
    exact fun shorter isPrefix other reached =>
      earlier shorter isPrefix other ((opened shorter).mp reached)

theorem string_eq_iff {kind' : RegionKind} {rest : List Char} :
    closedRegion .string ['\''] rest
        (quoteEnd? '\'' (Behind.afterText before).opensEscapes rest) = (kind', token, after) ↔
      kind' = .string ∧ token ++ after = ['\''] ++ rest ∧ IsToken before .string token after := by
  refine closedRegion_eq_iff _ rest _ (fun _ _ => append_of_quoteEnd?) (.string rest) ?_
  intro token after same
  simp only [quoteEnd?_eq_some (by decide : '\'' ≠ '\\'), Behind.opensEscapes_iff]
  constructor
  · intro closed
    cases closed with
    | string quoted ends => exact ⟨_, ⟨_, rfl, by simpa using same, quoted, ends⟩, rfl⟩
  · rintro ⟨_, ⟨body, rfl, _, quoted, ends⟩, rfl⟩
    exact .string quoted ends

theorem quotedIdentifier_eq_iff {kind' : RegionKind} {rest : List Char} :
    closedRegion .quotedIdentifier ['"'] rest (quoteEnd? '"' false rest) =
        (kind', token, after) ↔
      kind' = .quotedIdentifier ∧ token ++ after = ['"'] ++ rest ∧
        IsToken before .quotedIdentifier token after := by
  refine closedRegion_eq_iff _ rest _ (fun _ _ => append_of_quoteEnd?) (.quotedIdentifier rest) ?_
  intro token after same
  simp only [quoteEnd?_eq_some (by decide : '"' ≠ '\\'), Bool.false_eq_true]
  constructor
  · intro closed
    cases closed with
    | quotedIdentifier quoted ends => exact ⟨_, ⟨_, rfl, by simpa using same, quoted, ends⟩, rfl⟩
  · rintro ⟨_, ⟨body, rfl, _, quoted, ends⟩, rfl⟩
    exact .quotedIdentifier quoted ends

theorem IsDollarTag.exists_rest {tag : List Char} (isTag : IsDollarTag tag) (rest : List Char) :
    ∃ name, tag = '$' :: name ∧ tagRest? (name ++ rest) = some (name, rest) := by
  rcases isTag with ⟨name, rfl, starts, words⟩
  exact ⟨_, rfl, tagRest?_eq_some.mpr ⟨rfl, name, rfl, starts, words⟩⟩

theorem IsDollarTag.eq {tag tag' rest rest' : List Char} (isTag : IsDollarTag tag)
    (isTag' : IsDollarTag tag') (same : tag ++ rest = tag' ++ rest') : tag = tag' := by
  rcases isTag.exists_rest rest with ⟨name, rfl, reads⟩
  rcases isTag'.exists_rest rest' with ⟨name', rfl, reads'⟩
  have rests : name ++ rest = name' ++ rest' := (List.cons.inj same).2
  rw [rests, reads'] at reads
  cases reads
  rfl

theorem dollarString_eq_iff {kind' : RegionKind} {tag rest : List Char}
    (isTag : IsDollarTag tag) (free : isWordAt before.getLast? = false) :
    closedRegion .dollarString tag rest (tagEnd? tag rest) = (kind', token, after) ↔
      kind' = .dollarString ∧ token ++ after = tag ++ rest ∧
        IsToken before .dollarString token after := by
  have tagged : tag ≠ [] := by
    rcases isTag with ⟨name, rfl, _⟩
    simp
  refine closedRegion_eq_iff _ rest _ (fun _ _ => append_of_tagEnd?)
    (.dollarString isTag free rest) ?_
  intro token after same
  simp only [tagEnd?_eq_some tagged]
  constructor
  · intro closed
    cases closed with
    | @dollarString tag' body _ isTag' _ first =>
        rw [List.append_assoc] at same
        -- A token might have another tag than the one that is read, but the text has one only.
        cases isTag'.eq isTag same
        exact ⟨_, ⟨body, rfl, List.append_cancel_left same, first⟩, rfl⟩
  · rintro ⟨_, ⟨body, rfl, _, first⟩, rfl⟩
    exact .dollarString isTag free first

/-! ### Regions and tokens -/

theorem Opens.regionAt?_eq_some_iff {kind' : RegionKind} (opens : Opens before kind text) :
    regionAt? (.afterText before) text = some (kind', token, after) ↔
      kind' = kind ∧ token ++ after = text ∧ IsToken before kind token after := by
  cases opens with
  | lineComment rest => exact Option.some_inj.trans lineComment_eq_iff
  | blockComment rest => exact Option.some_inj.trans blockComment_eq_iff
  | string rest => exact Option.some_inj.trans string_eq_iff
  | quotedIdentifier rest => exact Option.some_inj.trans quotedIdentifier_eq_iff
  | dollarString isTag free rest =>
      rcases isTag.exists_rest rest with ⟨name, rfl, reads⟩
      rw [List.cons_append, regionAt?, Behind.afterText_last, free]
      simp only [Bool.false_eq_true, if_false, reads, Option.map_some]
      exact Option.some_inj.trans (dollarString_eq_iff isTag free)

theorem exists_opens_of_regionAt? {split : RegionSplit}
    (found : regionAt? (.afterText before) text = some split) : ∃ kind, Opens before kind text := by
  cases startsRegion_of_regionAt? found with
  | lineComment rest => exact ⟨_, .lineComment rest⟩
  | blockComment rest => exact ⟨_, .blockComment rest⟩
  | string rest => exact ⟨_, .string rest⟩
  | quotedIdentifier rest => exact ⟨_, .quotedIdentifier rest⟩
  | @dollarString _ _ inner free tagged =>
      rcases tagRest?_eq_some.mp tagged with ⟨rfl, isTag⟩
      rw [Behind.afterText_last] at free
      exact ⟨_, .dollarString isTag free inner⟩

theorem regionAt?_eq_none_iff :
    regionAt? (.afterText before) text = none ↔ ∀ kind, ¬ Opens before kind text := by
  constructor
  · intro none kind opens
    cases opens with
    | dollarString isTag free rest =>
        rcases isTag.exists_rest rest with ⟨name, rfl, reads⟩
        rw [List.cons_append, regionAt?, Behind.afterText_last, free, reads] at none
        cases none
    | _ => cases none
  · intro none
    rw [Option.eq_none_iff_forall_ne_some]
    intro split found
    rcases exists_opens_of_regionAt? found with ⟨kind, opens⟩
    exact none kind opens

/-- The region that is read at the front of a text is the token there. -/
theorem regionAt?_eq_some_iff :
    regionAt? (.afterText before) text = some (kind, token, after) ↔
      token ++ after = text ∧ IsToken before kind token after := by
  constructor
  · intro found
    rcases exists_opens_of_regionAt? found with ⟨_, opens⟩
    rcases opens.regionAt?_eq_some_iff.mp found with ⟨rfl, same, isToken⟩
    exact ⟨same, isToken⟩
  · rintro ⟨rfl, isToken⟩
    exact isToken.opens.regionAt?_eq_some_iff.mpr ⟨rfl, rfl, isToken⟩

end

end TableSchema.Sql
