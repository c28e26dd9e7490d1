import TableSchema.Proofs.Descriptions
import TableSchema.Proofs.Variations

/-! # Cells

A clause is read twice: as it is masked and as it is. Its cells hold both characters of each place,
so that what variations keep of the one can be told together with what they keep of the other. The
name of a column stands in front of all that they exchange.
-/

namespace TableSchema.Sql

open Text

variable {lines strings : Prop}

/-! ## Cells -/

def Segment.cells (segment : Segment) : List (Char × Char) := segment.masked.zip segment.text

def cellsOf (segments : List Segment) : List (Char × Char) := segments.flatMap Segment.cells

theorem map_fst_cellsOf (segments : List Segment) :
    (cellsOf segments).map Prod.fst = maskOf segments := by
  rw [cellsOf, maskOf, List.map_flatMap]
  congr 1
  funext segment
  exact List.map_fst_zip (Nat.le_of_eq segment.length_masked)

theorem map_snd_cellsOf (segments : List Segment) :
    (cellsOf segments).map Prod.snd = textOf segments := by
  rw [cellsOf, textOf, List.map_flatMap]
  congr 1
  funext segment
  exact List.map_snd_zip (Nat.le_of_eq segment.length_masked.symm)

def shown (character : Char) : Char × Char := (character, character)

@[simp] theorem map_fst_shown (text : List Char) : (text.map shown).map Prod.fst = text := by
  rw [List.map_map]
  exact List.map_id text

@[simp] theorem map_snd_shown (text : List Char) : (text.map shown).map Prod.snd = text := by
  rw [List.map_map]
  exact List.map_id text

theorem cellsOf_map_code (text : List Char) : cellsOf (text.map .code) = text.map shown := by
  induction text with
  | nil => rfl
  | cons character text induction => exact congrArg (shown character :: ·) induction

theorem shown_or_blank {segments : List Segment} {cell : Char × Char}
    (member : cell ∈ cellsOf segments) : cell.1 = cell.2 ∨ isBlank cell.1 = true := by
  rcases List.mem_flatMap.mp member with ⟨segment, _, inside⟩
  rcases List.mem_iff_getElem?.mp inside with ⟨place, here⟩
  rcases List.getElem?_zip_eq_some.mp here with ⟨masked, text⟩
  rcases segment.getElem?_masked place with same | ⟨blank, hidden, shown⟩
  · rw [masked, text] at same
    exact .inl (Option.some.inj same)
  · rw [masked] at shown
    cases shown
    right
    simp only [List.mem_cons, List.not_mem_nil, or_false] at hidden
    rcases hidden with same | same <;> rw [same] <;> decide

inductive CellExchange (lines strings : Prop) : List (Char × Char) → List (Char × Char) → Prop
  | blanks {text text' : List Char} (runs : BlankRuns lines text text') :
      CellExchange lines strings (text.map shown) (text'.map shown)
  | string {inside inside' : List (Char × Char)} (allowed : strings)
      (masked : inside.map Prod.fst = inside'.map Prod.fst)
      (hidden : ∀ cell ∈ inside, isWord cell.1 = false) :
      CellExchange lines strings (('\'', '\'') :: inside) (('\'', '\'') :: inside')

abbrev CellsVaried (lines strings : Prop) : List (Char × Char) → List (Char × Char) → Prop :=
  SameBut (CellExchange lines strings)

namespace CellExchange

theorem lasting : Lasting (CellExchange lines strings) := by
  rintro _ _ (⟨runs⟩ | _)
  · exact ⟨by simpa using runs.nonempty_left, by simpa using runs.nonempty_right⟩
  · exact ⟨by simp, by simp⟩

theorem blind {test : Char → Bool}
    (passes : ∀ character, isBlank character = true → test character = true)
    (quote : test '\'' = false) : Blind (CellExchange lines strings) fun cell => test cell.2 := by
  rintro part part' (⟨runs⟩ | _)
  · have pass {text : List Char} (blank : AllBlank text) :
        AllPass (fun cell => test cell.2) (text.map shown) := by
      intro cell member
      rcases List.mem_map.mp member with ⟨character, listed, rfl⟩
      exact passes character (blank character listed)
    exact .inl ⟨pass runs.blank_left, pass runs.blank_right⟩
  · exact .inr ⟨⟨_, _, rfl, quote⟩, ⟨_, _, rfl, quote⟩⟩

theorem stopsAt {test : Char → Bool}
    (fails : ∀ character, isBlank character = true → test character = false)
    (quote : test '\'' = false) (part part' : List (Char × Char))
    (exchanged : CellExchange lines strings part part') :
    StopsAt (fun cell => test cell.2) part ∧ StopsAt (fun cell => test cell.2) part' := by
  cases exchanged with
  | blanks runs =>
      rcases BlankRuns.stopsAt fails _ _ runs with
        ⟨⟨character, rest, rfl, fails⟩, ⟨character', rest', rfl, fails'⟩⟩
      exact ⟨⟨_, _, rfl, fails⟩, ⟨_, _, rfl, fails'⟩⟩
  | string => exact ⟨⟨_, _, rfl, quote⟩, ⟨_, _, rfl, quote⟩⟩

theorem dull (part part' : List (Char × Char)) (exchanged : CellExchange lines strings part part') :
    (∀ cell ∈ part, isWord cell.1 = false) ∧ ∀ cell ∈ part', isWord cell.1 = false := by
  cases exchanged with
  | blanks runs =>
      exact ⟨by simpa [shown] using (runs.dull).1, by simpa [shown] using (runs.dull).2⟩
  | string _ masked hidden =>
      have quote : isWord '\'' = false := by decide
      refine ⟨List.forall_mem_cons.mpr ⟨quote, hidden⟩, List.forall_mem_cons.mpr ⟨quote, ?_⟩⟩
      intro cell member
      have listed : cell.1 ∈ (List.map Prod.fst _) := masked ▸ List.mem_map_of_mem member
      rcases List.mem_map.mp listed with ⟨other, inside, same⟩
      rw [← same]
      exact hidden other inside

end CellExchange

namespace CellsVaried

variable {cells cells' : List (Char × Char)}

theorem masked (same : CellsVaried lines strings cells cells') :
    Respaced lines (cells.map Prod.fst) (cells'.map Prod.fst) := by
  refine same.map _ fun part part' exchanged => ?_
  cases exchanged with
  | blanks runs =>
      rw [map_fst_shown, map_fst_shown]
      exact .single runs
  | string _ masked _ =>
      rw [List.map_cons, List.map_cons, masked]
      exact .refl _

theorem plain (kept : ¬ strings) (same : CellsVaried lines strings cells cells') :
    Respaced lines (cells.map Prod.snd) (cells'.map Prod.snd) := by
  refine same.map _ fun part part' exchanged => ?_
  cases exchanged with
  | blanks runs =>
      rw [map_snd_shown, map_snd_shown]
      exact .single runs
  | string allowed => exact absurd allowed kept

theorem nil_iff (same : CellsVaried lines strings cells cells') : cells = [] ↔ cells' = [] :=
  SameBut.nil_iff CellExchange.lasting same

end CellsVaried

/-! ## Runs of segments -/

theorem string_of_closed {behind : Behind} {text after : List Char}
    (closed : ClosedRegion behind .string text after) :
    ∃ inside, text = '\'' :: (inside ++ ['\'']) := by
  rcases closed.delimited rfl with ⟨delimiter, inside, _, rfl⟩
  generalize whole : delimiter :: (inside ++ [delimiter]) = text at closed
  cases closed with
  | string =>
      cases (List.cons.inj whole).1
      exact ⟨inside, by rw [← whole]⟩

structure Delimited (run : List Segment) : Prop where
  uncommented : ∀ kind text, .region kind text ∈ run → kind.isComment = false
  string : ∀ text, .region .string text ∈ run → ∃ inside, text = '\'' :: (inside ++ ['\''])

theorem Delimited.tail {segment : Segment} {run : List Segment}
    (delimited : Delimited (segment :: run)) : Delimited run where
  uncommented kind text member := delimited.uncommented kind text (List.mem_cons_of_mem _ member)
  string text member := delimited.string text (List.mem_cons_of_mem _ member)

theorem Legible.delimited {run : List Segment} (legible : Legible run) : Delimited run := by
  refine ⟨legible.uncommented, ?_⟩
  have reads := legible.reads
  clear legible
  intro text member
  generalize Behind.start = behind at reads
  induction run generalizing behind with
  | nil => cases member
  | cons segment run induction =>
      rcases List.mem_cons.mp member with rfl | member
      · exact string_of_closed (reads.1.closed (by simp))
      · exact induction member _ reads.2

theorem cells_string (inside : List Char) :
    (Segment.region .string ('\'' :: (inside ++ ['\'']))).cells =
      ('\'', '\'') :: ((inside.map hide ++ ['\'']).zip (inside ++ ['\''])) := by
  rw [Segment.cells, Segment.masked, Segment.text_region, hideInside_of_delimited]
  rfl

theorem Varied.cellsOf {run run' : List Segment} (same : Varied lines strings run run')
    (delimited : Delimited run) (delimited' : Delimited run') :
    CellsVaried lines strings (cellsOf run) (Sql.cellsOf run') := by
  refine same.within.flatMap _ fun part part' inside => ?_
  rcases inside with ⟨exchanged, listed, listed'⟩
  cases exchanged with
  | blanks runs =>
      change CellsVaried lines strings (Sql.cellsOf _) (Sql.cellsOf _)
      rw [cellsOf_map_code, cellsOf_map_code]
      exact .single (.blanks runs)
  | comment comment =>
      rw [delimited.uncommented _ _ (listed (List.mem_cons_self ..))] at comment
      cases comment
  | string allowed nonempty masked =>
      rcases delimited.string _ (listed (List.mem_cons_self ..)) with ⟨inside, rfl⟩
      rcases delimited'.string _ (listed' (List.mem_cons_self ..)) with ⟨inside', rfl⟩
      have masks (inside : List Char) :
          ((inside.map hide ++ ['\'']).zip (inside ++ ['\''])).map Prod.fst =
            inside.map hide ++ ['\''] :=
        List.map_fst_zip (by simp)
      rw [hideInside_of_delimited, hideInside_of_delimited] at masked
      rw [List.flatMap_singleton, List.flatMap_singleton, cells_string, cells_string]
      refine .single (.string allowed ?_ fun cell member => ?_)
      · rw [masks, masks]
        exact (List.cons.inj masked).2
      · have first := List.mem_map_of_mem (f := Prod.fst) member
        rw [masks] at first
        rcases List.mem_append.mp first with hidden | quote
        · rw [Bool.eq_false_iff]
          exact fun word =>
            not_mem_regionMarks_of_isWord word (mem_regionMarks_of_mem_hidden hidden)
        · rw [List.mem_singleton.mp quote]
          decide

/-! ## Names of columns -/

structure BehindBlank (cells tail : List (Char × Char)) : Prop where
  split : ∃ front blank, cells = front ++ blank :: tail ∧ isBlank blank.2 = true
  bare : Bare (tail.map Prod.snd)

inductive NamesMeet (lines strings : Prop) (cells cells' : List (Char × Char)) :
    Option (List Char × List Char) → Option (List Char × List Char) → Prop
  | none : NamesMeet lines strings cells cells' none none
  | some (name : List Char) {tail tail' : List (Char × Char)} (behind : BehindBlank cells tail)
      (behind' : BehindBlank cells' tail') (same : CellsVaried lines strings tail tail') :
      NamesMeet lines strings cells cells' (some (name, tail.map Prod.snd))
        (some (name, tail'.map Prod.snd))

variable {cells cells' front front' rest rest' : List (Char × Char)}

theorem afterBlanks?_cells (rest : List (Char × Char)) : afterBlanks? (rest.map Prod.snd) =
    if (rest.takeWhile fun cell => isBlank cell.2).isEmpty then none
    else some ((rest.dropWhile fun cell => isBlank cell.2).map Prod.snd) := by
  rw [afterBlanks?_eq_ite, trimLeft, List.takeWhile_map, List.dropWhile_map, List.isEmpty_map]
  rfl

theorem behindBlank_dropWhile (nonempty : (rest.takeWhile fun cell => isBlank cell.2) ≠ []) :
    BehindBlank (front ++ rest) (rest.dropWhile fun cell => isBlank cell.2) := by
  have whole := List.takeWhile_append_dropWhile (p := fun cell : Char × Char => isBlank cell.2)
    (l := rest)
  have bare : Bare ((rest.dropWhile fun cell => isBlank cell.2).map Prod.snd) := by
    have trimmed := bare_trimLeft (rest.map Prod.snd)
    rwa [trimLeft, List.dropWhile_map] at trimmed
  refine ⟨?_, bare⟩
  rcases List.eq_nil_or_concat (rest.takeWhile fun cell => isBlank cell.2) with
    none | ⟨blanks, blank, last⟩
  · exact absurd none nonempty
  · refine ⟨front ++ blanks, blank, ?_, ?_⟩
    · conv_lhs => rw [← whole, last]
      simp
    · have passes := List.all_takeWhile (p := fun cell : Char × Char => isBlank cell.2) (l := rest)
      rw [last, List.all_eq_true] at passes
      exact passes blank (by simp)

theorem namesMeet_afterBlanks? (name : List Char) (whole : cells = front ++ rest)
    (whole' : cells' = front' ++ rest') (same : CellsVaried lines strings rest rest') :
    NamesMeet lines strings cells cells'
      ((afterBlanks? (rest.map Prod.snd)).map (name, ·))
      ((afterBlanks? (rest'.map Prod.snd)).map (name, ·)) := by
  have parts := same.span (@CellExchange.blind _ _ isBlank (fun _ => id) (by decide))
  have nil_iff := CellsVaried.nil_iff parts.1
  rw [afterBlanks?_cells, afterBlanks?_cells, whole, whole']
  by_cases none : (rest.takeWhile fun cell => isBlank cell.2) = []
  · rw [none, nil_iff.mp none]
    exact .none
  · have none' : (rest'.takeWhile fun cell => isBlank cell.2) ≠ [] := mt nil_iff.mpr none
    rw [if_neg (by simpa using none), if_neg (by simpa using none')]
    exact .some name (behindBlank_dropWhile none) (behindBlank_dropWhile none') parts.2

theorem columnName?_plain {character : Char} (noQuote : character ≠ '"') (rest : List Char) :
    columnName? (character :: rest) =
      if isNameStart character then
        (afterBlanks? (rest.dropWhile isNamePart)).map (character :: rest.takeWhile isNamePart, ·)
      else none := by
  rw [columnName?]
  · split
    · cases afterBlanks? (rest.dropWhile isNamePart) <;> rfl
    · rfl
  · exact noQuote

theorem columnName?_quoted {text : List Char} {rest : List Segment}
    (legible : Legible (.region .quotedIdentifier text :: rest)) :
    columnName? (textOf (.region .quotedIdentifier text :: rest)) =
      (afterBlanks? (textOf rest)).map (text, ·) := by
  have closed := legible.reads.1.closed (by simp)
  rw [textOf_cons, Segment.text_region]
  cases closed with
  | quotedIdentifier closes =>
      have free := (ends_of_quoteEnd? closes).2
      have closes' := quoteEnd?_of_quoteEnd? (by decide) closes fun character first =>
        free character (by rw [List.head?_append, first]; rfl)
      rw [List.cons_append, columnName?, closes']
      simp only [Option.bind_eq_bind, Option.bind_some]
      cases afterBlanks? (textOf rest) <;> rfl

theorem head?_ne_quote_of_legible {segment : Segment} {rest : List Segment}
    (legible : Legible (segment :: rest))
    (other : ∀ text, segment ≠ .region .quotedIdentifier text) :
    (textOf (segment :: rest)).head? ≠ some '"' := by
  intro first
  have stands := legible.reads.1
  rw [textOf_cons] at first
  cases segment with
  | code character =>
      cases Option.some.inj first
      cases stands
  | region kind text =>
      have nonempty := (legible.shown (List.mem_cons_self ..)).1
      rcases List.exists_cons_of_ne_nil nonempty with ⟨character, tail, rfl⟩
      cases Option.some.inj first
      exact other _ (by rw [kind_of_quote stands])

theorem isNameStart_eq_false_of_isBlank {character : Char} (blank : isBlank character = true) :
    isNameStart character = false := by
  rw [isNameStart, isWord_eq_false_of_isBlank blank, Bool.false_and]

theorem columnName?_cells (same : CellsVaried lines strings cells cells')
    (noQuote : (cells.map Prod.snd).head? ≠ some '"')
    (noQuote' : (cells'.map Prod.snd).head? ≠ some '"') :
    NamesMeet lines strings cells cells' (columnName? (cells.map Prod.snd))
      (columnName? (cells'.map Prod.snd)) := by
  cases same with
  | nil => exact .none
  | @cons cell rest rest' later =>
      have unquoted : cell.2 ≠ '"' := fun quote => noQuote (by rw [List.map_cons, quote]; rfl)
      have stops := @CellExchange.stopsAt lines strings isNamePart
        (fun _ => isNamePart_eq_false_of_isBlank) (by decide)
      have parts := later.span fun _ _ exchanged => .inr (stops _ _ exchanged)
      rw [List.map_cons, List.map_cons, columnName?_plain unquoted, columnName?_plain unquoted]
      split
      · have whole (rest : List (Char × Char)) : cell :: rest =
            (cell :: rest.takeWhile fun cell => isNamePart cell.2) ++
              rest.dropWhile fun cell => isNamePart cell.2 := by
          rw [List.cons_append, List.takeWhile_append_dropWhile]
        have met := namesMeet_afterBlanks? (cell.2 :: (rest.map Prod.snd).takeWhile isNamePart)
          (whole rest) (whole rest') parts.2
        rw [List.takeWhile_map] at met ⊢
        rw [List.takeWhile_map, List.dropWhile_map, List.dropWhile_map]
        have names := later.takeWhile_eq stops
        simp only [Function.comp_def, names] at met ⊢
        exact met
      · exact .none
  | part exchanged later =>
      rcases @CellExchange.stopsAt lines strings isNameStart
        (fun _ => isNameStart_eq_false_of_isBlank) (by decide) _ _ exchanged with
        ⟨⟨cell, more, rfl, fails⟩, ⟨cell', more', rfl, fails'⟩⟩
      have unquoted : cell.2 ≠ '"' := fun quote => noQuote (by simp [quote])
      have unquoted' : cell'.2 ≠ '"' := fun quote => noQuote' (by simp [quote])
      rw [List.cons_append, List.cons_append, List.map_cons, List.map_cons,
        columnName?_plain unquoted, columnName?_plain unquoted']
      simp only [fails, fails', Bool.false_eq_true, if_false]
      exact .none

theorem columnName?_varied {core core' : List Segment} (legible : Legible core)
    (legible' : Legible core') (same : Varied lines strings core core') :
    NamesMeet lines strings (cellsOf core) (cellsOf core') (columnName? (textOf core))
      (columnName? (textOf core')) := by
  have quoted {first second : List Segment} (same : Varied lines strings first second)
      {text : List Char} {rest : List Segment}
      (starts : first = .region .quotedIdentifier text :: rest) :
      ∃ rest', second = .region .quotedIdentifier text :: rest' ∧
        Varied lines strings rest rest' := by
    subst starts
    rcases @SameBut.exists_of_append_cons _ _ _ [] _ _ (Variation.region_not_mem rfl (by simp)) same
      with ⟨before, rest', rfl, none, later⟩
    rw [(SameBut.nil_iff Variation.lasting none).mp rfl]
    exact ⟨rest', rfl, later⟩
  by_cases starts : ∃ text rest, core = .region .quotedIdentifier text :: rest
  · rcases starts with ⟨text, rest, rfl⟩
    rcases quoted same rfl with ⟨rest', rfl, later⟩
    have met := @namesMeet_afterBlanks? lines strings
      (cellsOf (.region .quotedIdentifier text :: rest))
      (cellsOf (.region .quotedIdentifier text :: rest')) _ _ _ _ text rfl rfl
      (later.cellsOf legible.delimited.tail legible'.delimited.tail)
    rwa [columnName?_quoted legible, columnName?_quoted legible', ← map_snd_cellsOf,
      ← map_snd_cellsOf]
  · have noQuote {run : List Segment} (legible : Legible run)
        (other : ¬ ∃ text rest, run = .region .quotedIdentifier text :: rest) :
        (textOf run).head? ≠ some '"' := by
      cases run with
      | nil => simp
      | cons segment rest =>
          exact head?_ne_quote_of_legible legible fun text same => other ⟨text, rest, by rw [same]⟩
    have starts' : ¬ ∃ text rest, core' = .region .quotedIdentifier text :: rest := by
      rintro ⟨text, rest, same'⟩
      rcases quoted same.symm same' with ⟨rest', same, _⟩
      exact starts ⟨text, rest', same⟩
    rw [← map_snd_cellsOf, ← map_snd_cellsOf]
    refine columnName?_cells (same.cellsOf legible.delimited legible'.delimited) ?_ ?_
    · rw [map_snd_cellsOf]
      exact noQuote legible starts
    · rw [map_snd_cellsOf]
      exact noQuote legible' starts'

end TableSchema.Sql
