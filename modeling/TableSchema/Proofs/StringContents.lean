import TableSchema.Proofs.VariedScripts

/-! # What strings hold

What strings hold is data. Scripts whose regions are the same, and which differ only inside strings,
have the same statements with the same columns, whatever the strings seem to say.
-/

namespace TableSchema

open Sql Text

/-! ## Scripts that differ inside strings -/

/-- The place is strictly between the first and the last character of a string. -/
def Sql.InString (regions : List Region) (place : Nat) : Prop :=
  ∃ region ∈ regions, region.kind = .string ∧ region.start < place ∧ place + 1 < region.stop

instance (regions : List Region) (place : Nat) : Decidable (InString regions place) :=
  inferInstanceAs (Decidable (∃ region ∈ regions, _))

/-- The scripts have the same regions and line feeds, and the same characters outside strings. -/
structure Sql.SameButStrings (sql sql' : List Char) : Prop where
  length : sql.length = sql'.length
  regions : scan sql = scan sql'
  lineFeeds : ∀ place < sql.length, sql[place]? = some '\n' ↔ sql'[place]? = some '\n'
  shown : ∀ place < sql.length, ¬ InString (scan sql) place → sql[place]? = sql'[place]?

instance (sql sql' : List Char) : Decidable (SameButStrings sql sql') :=
  decidable_of_iff (sql.length = sql'.length ∧ scan sql = scan sql' ∧
      (∀ place < sql.length, sql[place]? = some '\n' ↔ sql'[place]? = some '\n') ∧
      ∀ place < sql.length, ¬ InString (scan sql) place → sql[place]? = sql'[place]?)
    ⟨fun ⟨length, regions, lineFeeds, shown⟩ => ⟨length, regions, lineFeeds, shown⟩,
      fun same => ⟨same.length, same.regions, same.lineFeeds, same.shown⟩⟩

namespace Sql

/-! ## Masks -/

theorem hideInside_congr {text text' : List Char} (length : text.length = text'.length)
    (ends : ∀ place, place = 0 ∨ place + 1 = text.length → text[place]? = text'[place]?)
    (lineFeeds : text.map (· == '\n') = text'.map (· == '\n')) :
    hideInside text = hideInside text' := by
  have hidden (text : List Char) :
      text.map hide = (text.map (· == '\n')).map fun feed => if feed then '\n' else ' ' := by
    rw [List.map_map]
    refine List.map_congr_left fun character _ => ?_
    simp only [hide, Function.comp_apply, beq_iff_eq]
  have same : text.map hide = text'.map hide := by rw [hidden, hidden, lineFeeds]
  refine List.ext_getElem? fun place => ?_
  rw [getElem?_hideInside, getElem?_hideInside, ← List.getElem?_map, ← List.getElem?_map, same,
    ← length]
  split
  · rename_i atEnd
    exact ends place atEnd.2
  · rfl

/-! ## Segments -/

theorem not_inString_of_le {segments : List Segment} {start place : Nat} (early : place ≤ start) :
    ¬ InString (regionsFrom start segments) place := by
  rintro ⟨region, member, _, behind, _⟩
  have := (bounds_of_mem_regionsFrom member).1
  omega

theorem inString_cons {segment : Segment} {segments : List Segment} {start place : Nat} :
    InString (regionsFrom start (segment :: segments)) place ↔
      (∃ text, segment = .region .string text ∧ start < place ∧ place + 1 < start + text.length) ∨
        InString (regionsFrom (start + segment.text.length) segments) place := by
  cases segment with
  | code character =>
      rw [regionsFrom, or_iff_right (by rintro ⟨_, same, _⟩; cases same)]
      rfl
  | region kind text =>
      rw [regionsFrom, InString, List.exists_mem_cons_iff]
      refine or_congr_left ⟨?_, ?_⟩
      · rintro ⟨rfl, inside⟩
        exact ⟨text, rfl, inside⟩
      · rintro ⟨_, same, inside⟩
        cases same
        exact ⟨rfl, inside⟩

inductive SameSpot : Segment → Segment → Prop
  | code (character character' : Char) : SameSpot (.code character) (.code character')
  | region (kind : RegionKind) {text text' : List Char} (length : text.length = text'.length) :
      SameSpot (.region kind text) (.region kind text')

theorem SameSpot.length {segment segment' : Segment} (same : SameSpot segment segment') :
    segment.text.length = segment'.text.length := by
  cases same with
  | code => rfl
  | region _ length => exact length

theorem exists_sameSpot {segment : Segment} {segments segments' : List Segment} {start : Nat}
    (nonempty : ∀ other ∈ segment :: segments, other.text ≠ [])
    (nonempty' : ∀ other ∈ segments', other.text ≠ [])
    (regions : regionsFrom start (segment :: segments) = regionsFrom start segments')
    (length : (textOf (segment :: segments)).length = (textOf segments').length) :
    ∃ segment' rest', segments' = segment' :: rest' ∧ SameSpot segment segment' ∧
      regionsFrom (start + segment.text.length) segments =
        regionsFrom (start + segment.text.length) rest' := by
  -- A region would start where the other script has none yet.
  have apart {kind : RegionKind} {text : List Char} {rest other : List Segment}
      (same : regionsFrom (start + 1) other = regionsFrom start (.region kind text :: rest)) :
      False := by
    have first : ⟨kind, start, start + text.length⟩ ∈ regionsFrom (start + 1) other := by
      rw [same]
      exact List.mem_cons_self ..
    have := (bounds_of_mem_regionsFrom first).1
    simp only at this
    omega
  cases segments' with
  | nil =>
      have here := List.length_pos_iff.mpr (nonempty segment (List.mem_cons_self ..))
      rw [textOf_cons, List.length_append, textOf_nil, List.length_nil] at length
      omega
  | cons segment' rest' =>
      refine ⟨segment', rest', rfl, ?_⟩
      cases segment with
      | code character =>
          cases segment' with
          | code character' => exact ⟨.code _ _, regions⟩
          | region => exact (apart regions).elim
      | region kind text =>
          cases segment' with
          | code => exact (apart regions.symm).elim
          | region kind' text' =>
              rw [regionsFrom, regionsFrom] at regions
              rcases List.cons.inj regions with ⟨here, later⟩
              rcases Region.mk.inj here with ⟨rfl, _, stops⟩
              have long : text.length = text'.length := by omega
              rw [← long] at later
              exact ⟨.region kind long, later⟩

theorem SameSpot.varied {segment segment' : Segment} (spot : SameSpot segment segment')
    (nonempty : segment.text ≠ [])
    (lineFeeds : segment.text.map (· == '\n') = segment'.text.map (· == '\n'))
    (shown : ∀ place,
      (∀ text, segment = .region .string text → place = 0 ∨ place + 1 = text.length) →
        segment.text[place]? = segment'.text[place]?) :
    Varied True True [segment] [segment'] := by
  cases spot with
  | code character character' =>
      cases shown 0 (by simp)
      exact .refl _
  | @region kind text text' length =>
      by_cases string : kind = .string
      · subst string
        refine .single (.string trivial nonempty
          (hideInside_congr length (fun place ends => shown place ?_) lineFeeds))
        rintro _ ⟨⟩
        exact ends
      · have same : text = text' := List.ext_getElem? fun place => shown place (by simp [string])
        rw [same]
        exact .refl _

/-- So are scripts with the same regions that differ only inside strings. -/
theorem varied_of_sameRegions {segments segments' : List Segment} {start : Nat}
    (nonempty : ∀ segment ∈ segments, segment.text ≠ [])
    (nonempty' : ∀ segment ∈ segments', segment.text ≠ [])
    (regions : regionsFrom start segments = regionsFrom start segments')
    (length : (textOf segments).length = (textOf segments').length)
    (lineFeeds : (textOf segments).map (· == '\n') = (textOf segments').map (· == '\n'))
    (shown : ∀ place, ¬ InString (regionsFrom start segments) (start + place) →
      (textOf segments)[place]? = (textOf segments')[place]?) :
    Varied True True segments segments' := by
  induction segments generalizing segments' start with
  | nil =>
      cases segments' with
      | nil => exact .nil
      | cons segment' rest' =>
          have here := List.length_pos_iff.mpr (nonempty' segment' (List.mem_cons_self ..))
          rw [textOf_cons, List.length_append, textOf_nil, List.length_nil] at length
          omega
  | cons segment segments induction =>
      rcases exists_sameSpot nonempty nonempty' regions length with
        ⟨segment', rest', rfl, spot, later⟩
      have long := spot.length
      rw [textOf_cons, textOf_cons] at lineFeeds shown length
      rw [List.length_append, List.length_append, long, Nat.add_left_cancel_iff] at length
      rw [List.map_append, List.map_append] at lineFeeds
      rcases List.append_inj lineFeeds (by rw [List.length_map, List.length_map, long]) with
        ⟨feeds, lineFeeds⟩
      have here : Varied True True [segment] [segment'] := by
        refine spot.varied (nonempty segment (List.mem_cons_self ..)) feeds fun place ends => ?_
        by_cases early : place < segment.text.length
        · have same := shown place fun inside => ?_
          · rwa [List.getElem?_append_left early, List.getElem?_append_left (long ▸ early)] at same
          · rcases inString_cons.mp inside with ⟨text, string, behind, front⟩ | inside
            · have := ends text string
              omega
            · exact not_inString_of_le (by omega) inside
        · rw [List.getElem?_eq_none (by omega), List.getElem?_eq_none (by omega)]
      refine here.append (induction (List.forall_mem_cons.mp nonempty).2
        (List.forall_mem_cons.mp nonempty').2 later length lineFeeds fun place outside => ?_)
      have same := shown (segment.text.length + place) fun inside => ?_
      · rwa [List.getElem?_append_right (Nat.le_add_right ..), Nat.add_sub_cancel_left, long,
          List.getElem?_append_right (Nat.le_add_right ..), Nat.add_sub_cancel_left] at same
      · rw [← Nat.add_assoc] at inside
        rcases inString_cons.mp inside with ⟨text, rfl, _, early⟩ | inside
        · rw [Segment.text_region] at early
          omega
        · exact outside inside

theorem Reads.text_ne_nil {behind : Behind} {segments : List Segment} {after : List Char}
    (reads : Reads behind segments after) : ∀ segment ∈ segments, segment.text ≠ [] := by
  induction segments generalizing behind with
  | nil => exact fun _ member => by cases member
  | cons segment segments induction =>
      exact List.forall_mem_cons.mpr ⟨reads.1.text_ne_nil, induction reads.2⟩

theorem SameButStrings.varied {sql sql' : List Char} (same : SameButStrings sql sql') :
    Varied True True (segments sql) (segments sql') := by
  have none {place : Nat} (late : ¬ place < sql.length) : sql[place]? = none ∧ sql'[place]? = none :=
    ⟨List.getElem?_eq_none (by omega), List.getElem?_eq_none (by rw [← same.length]; omega)⟩
  refine @varied_of_sameRegions _ _ 0 (reads_segments sql).text_ne_nil
    (reads_segments sql').text_ne_nil same.regions ?_ (List.ext_getElem? fun place => ?_)
    fun place outside => ?_
  all_goals rw [textOf, textOf, text_segments, text_segments]
  · exact same.length
  · rw [List.getElem?_map, List.getElem?_map]
    by_cases early : place < sql.length
    · have feed := same.lineFeeds place early
      rw [List.getElem?_eq_getElem early, List.getElem?_eq_getElem (same.length ▸ early),
        Option.some.injEq, Option.some.injEq] at feed
      rw [List.getElem?_eq_getElem early, List.getElem?_eq_getElem (same.length ▸ early),
        Option.map_some, Option.map_some, Option.some.injEq, Bool.eq_iff_iff, beq_iff_eq, beq_iff_eq]
      exact feed
    · rw [(none early).1, (none early).2]
  · by_cases early : place < sql.length
    · rw [Nat.zero_add] at outside
      exact same.shown place early outside
    · rw [(none early).1, (none early).2]

end Sql

/-! ## Scripts -/

theorem statementDiagnostics_eq {strings : Prop} {sql sql' : List Char}
    (same : Varied True strings (segments sql) (segments sql')) :
    statementDiagnostics sql = statementDiagnostics sql' := by
  have diagnostics : List.Forall₂ Eq (statementDiagnostics sql) (statementDiagnostics sql') := by
    refine List.rel_filterMap ?_ (findings_varied same)
    rintro _ _ (_ | ⟨_, line⟩ | ⟨_, line⟩)
    · exact .none
    · exact .some (congrArg _ (line trivial))
    · exact .some (congrArg _ (line trivial))
  rwa [List.forall₂_eq_eq_eq] at diagnostics

/-- What strings hold does not matter to structure: scripts that differ only inside strings have
statements of the same names on the same lines and leave the same ones out; their tables have the same
names, and fields of the same names that are required, and described, alike; and what is left out of
them is left out for the same reasons, on the same lines. -/
theorem strings_hold_no_structure {sql sql' : String}
    (same : SameButStrings sql.toList sql'.toList) :
    List.Forall₂ (fun statement statement' =>
        statement.name = statement'.name ∧ statement.line = statement'.line)
      (statements sql.toList) (statements sql'.toList) ∧
    statementDiagnostics sql.toList = statementDiagnostics sql'.toList ∧
    (parse sql).Agrees True False (parse sql') := by
  have varied := same.varied
  have agrees := parseChars_varied_of_lines varied
  rw [not_true_eq_false] at agrees
  refine ⟨(statements_varied varied).imp fun _ _ varies => ⟨varies.name, varies.line trivial⟩,
    statementDiagnostics_eq varied, agrees⟩

/-- Strings that seem to end statements, to open comments, to be keys or to forbid null; the first
one is part of a type. -/
theorem strings_that_speak_of_structure :
    let sql :=
      "create table t (a x'y' default '); -- b not null', --'\nc e'\\'' d);create table u (');')"
    let sql' :=
      "create table t (a x'z' default 'primary key,/*\"$', --'\nc e'\\n' d);create table u ('\"-')"
    SameButStrings sql.toList sql'.toList ∧ (parse sql).Agrees True False (parse sql') := by
  intro sql sql'
  have same : SameButStrings sql.toList sql'.toList := by decide +kernel
  exact ⟨same, (strings_hold_no_structure same).2.2⟩

end TableSchema
