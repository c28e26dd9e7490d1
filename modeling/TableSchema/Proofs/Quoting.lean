import TableSchema.Proofs.Headers
import TableSchema.Proofs.SelfContained

/-! # Names as identifiers

A name that has to be quoted is one closed literal, whatever it holds. A plain name is written as it
is, and that is sound as long as its dollar signs open nothing.
-/

namespace TableSchema.Sql

open Text

/-! ## Quoted names -/

theorem quoteEnd?_doubleQuotes (name : List Char) {rest : List Char}
    (free : ∀ character ∈ rest.head?, character ≠ '"') :
    quoteEnd? '"' false (doubleQuotes name ++ '"' :: rest) =
      some (doubleQuotes name ++ ['"'], rest) := by
  induction name with
  | nil =>
      cases rest with
      | nil => rfl
      | cons next rest => simp [doubleQuotes, quoteEnd?, free next rfl]
  | cons character name induction =>
      by_cases quote : character = '"'
      · rw [doubleQuotes, if_pos quote, List.cons_append, List.cons_append, quoteEnd?]
        simp [induction, inFront]
      · rw [doubleQuotes, if_neg quote, List.cons_append]
        have nonempty : doubleQuotes name ++ '"' :: rest ≠ [] := by simp
        rcases List.exists_cons_of_ne_nil nonempty with ⟨next, others, equation⟩
        rw [equation] at induction ⊢
        simp [quoteEnd?, quote, induction, inFront]

theorem exists_name_of_quoteEnd? {text inside after : List Char}
    (closes : quoteEnd? '"' false text = some (inside, after)) :
    ∃ name, inside = doubleQuotes name ++ ['"'] := by
  fun_induction quoteEnd? '"' false text generalizing inside with
  | case1 | case3 => cases closes
  | case2 | case6 =>
      cases closes
      exact ⟨[], rfl⟩
  | case4 _ _ _ escapes => simp at escapes
  | case5 rest _ induction =>
      rcases inFront_eq_some.mp closes with ⟨more, later, rfl⟩
      rcases induction later with ⟨name, rfl⟩
      exact ⟨'"' :: name, rfl⟩
  | case7 character next rest _ other induction =>
      rcases inFront_eq_some.mp closes with ⟨more, later, rfl⟩
      rcases induction later with ⟨name, rfl⟩
      refine ⟨character :: name, ?_⟩
      rw [doubleQuotes, if_neg other]
      rfl

def quoted (name : List Char) : List Char := '"' :: (doubleQuotes name ++ ['"'])

theorem unquote_quoted (name : List Char) : unquote (quoted name) = name := by
  simp [quoted, unquote, collapseQuotes_doubleQuotes]

theorem quote_of_plain {name : List Char} (plain : isPlainName name = true) : quote name = name :=
  if_pos plain

theorem quote_of_not_plain {name : List Char} (other : isPlainName name = false) :
    quote name = quoted name := by
  rw [quote, other]
  rfl

theorem quoted_closed (behind : Behind) (name : List Char) {after : List Char}
    (free : ∀ character ∈ after.head?, character ≠ '"') :
    ClosedRegion behind .quotedIdentifier (quoted name) after := by
  apply ClosedRegion.quotedIdentifier
  rw [List.append_assoc]
  exact quoteEnd?_doubleQuotes name free

theorem segments_quoted (name : List Char) :
    segments (quoted name) = [.region .quotedIdentifier (quoted name)] := by
  have reads : Reads .start [.region .quotedIdentifier (quoted name)] [] :=
    ⟨regionAt?_of_closedRegion (quoted_closed _ name (by simp)), trivial⟩
  have cut := segments_textOf reads
  rwa [textOf_cons, textOf_nil, List.append_nil] at cut

theorem selfContained_quoted (name : List Char) : SelfContained (quoted name) := by
  rw [SelfContained, segments_quoted]
  refine ⟨⟨regionAt?_of_closedRegion (quoted_closed _ name (by simp)), trivial⟩, ?_⟩
  intro kind text member
  cases List.mem_singleton.mp member
  rfl

theorem mask_quoted (name : List Char) :
    mask (quoted name) = '"' :: ((doubleQuotes name).map hide ++ ['"']) := by
  rw [mask, segments_quoted]
  exact (List.append_nil _).trans (hideInside_of_delimited '"' '"' _)

/-! ## Quoted names as regions -/

theorem head?_scan {text token after : List Char} {kind : RegionKind}
    (found : regionAt? .start text = some (kind, token, after)) :
    (scan text).head? = some ⟨kind, 0, token.length⟩ := by
  rw [scan, segments, segmentsAfter_of_regionAt? found, regionsFrom, List.head?_cons, Nat.zero_add]

theorem head?_scan_quoted_iff (name rest : List Char) :
    (scan (quoted name ++ rest)).head? = some ⟨.quotedIdentifier, 0, (quoted name).length⟩ ↔
      rest.head? ≠ some '"' := by
  constructor
  · intro first more
    have opens : regionAt? .start (quoted name ++ rest) = some
        (closedRegion .quotedIdentifier ['"'] (doubleQuotes name ++ ['"'] ++ rest)
          (quoteEnd? '"' false (doubleQuotes name ++ ['"'] ++ rest))) := rfl
    rcases region : closedRegion .quotedIdentifier ['"'] (doubleQuotes name ++ ['"'] ++ rest)
      (quoteEnd? '"' false (doubleQuotes name ++ ['"'] ++ rest)) with ⟨kind, token, after⟩
    rw [region] at opens
    rw [head?_scan opens] at first
    have kind : kind = .quotedIdentifier := (opening_of_closedRegion region).1
    have long : token.length = (quoted name).length := congrArg Region.stop (Option.some.inj first)
    rcases List.append_inj (append_of_regionAt? opens) long with ⟨rfl, rfl⟩
    have nonempty : after ≠ [] := by
      rintro rfl
      cases more
    have closed := closedRegion_of_regionAt? opens nonempty
    rw [kind] at closed
    exact closed.mayEndBefore '"' more rfl
  · intro free
    have closed : ClosedRegion .start .quotedIdentifier (quoted name) rest := by
      apply quoted_closed
      rintro _ first rfl
      exact free first
    exact head?_scan (regionAt?_of_closedRegion closed)

/-- A name can be told from its identifier, and a name that is quoted is one region, up to the end
of the identifier, of a text that does not go on with another quote. -/
theorem quoting_is_lossless (name : List Char) :
    unquote (quote name) = name ∧ (∀ other, quote other = quote name → other = name) ∧
      (isPlainName name = false → ∀ rest : List Char,
        ((scan (quote name ++ rest)).head? =
            some ⟨.quotedIdentifier, 0, (quote name).length⟩ ↔ rest.head? ≠ some '"')) := by
  refine ⟨unquote_quote name, fun other same => ?_, fun other rest => ?_⟩
  · rw [← unquote_quote other, same, unquote_quote]
  · rw [quote_of_not_plain other]
    exact head?_scan_quoted_iff name rest

/-- A name of quotes, in front of a string that is never closed. -/
theorem name_of_quotes_is_one_region :
    let name := "\"\"".toList
    let rest := " '\"".toList
    isPlainName name = false ∧ rest.head? ≠ some '"' ∧ quote name = "\"\"\"\"\"\"".toList ∧
      (scan (quote name ++ rest)).head? = some ⟨.quotedIdentifier, 0, 6⟩ := by
  intro name rest
  have other : isPlainName name = false := by decide
  have free : rest.head? ≠ some '"' := by decide
  exact ⟨other, free, by decide, ((quoting_is_lossless name).2.2 other rest).mpr free⟩

/-! ## Plain names -/

theorem map_code_of_regionsFrom {start : Nat} {segments : List Segment}
    (none : regionsFrom start segments = []) : segments = (textOf segments).map .code := by
  induction segments generalizing start with
  | nil => rfl
  | cons segment segments induction =>
      cases segment with
      | code character =>
          rw [textOf_cons, Segment.text_code, List.singleton_append, List.map_cons,
            ← induction none]
      | region kind text => cases none

theorem mask_of_scan {text : List Char} (none : scan text = []) : mask text = text := by
  have code := map_code_of_regionsFrom none
  rw [textOf, text_segments] at code
  rw [mask, code]
  exact maskOf_map_code text

def Readable (name : List Char) : Prop := isPlainName name = true → scan name = []

instance (name : List Char) : Decidable (Readable name) := inferInstanceAs (Decidable (_ → _))

namespace Readable

variable {name : List Char}

theorem selfContained (readable : Readable name) : SelfContained (quote name) := by
  cases plain : isPlainName name with
  | true =>
      rw [quote_of_plain plain]
      apply SelfContained.of_scan
      rw [readable plain]
      exact fun _ member => by cases member
  | false =>
      rw [quote_of_not_plain plain]
      exact selfContained_quoted name

theorem mask_cases (readable : Readable name) :
    isPlainName name = true ∧ mask (quote name) = name ∨
      ∃ inside, mask (quote name) = '"' :: (inside ++ ['"']) ∧
        ∀ character ∈ inside, character = ' ' ∨ character = '\n' := by
  cases plain : isPlainName name with
  | true =>
      left
      rw [quote_of_plain plain]
      exact ⟨rfl, mask_of_scan (readable plain)⟩
  | false =>
      right
      refine ⟨_, by rw [quote_of_not_plain plain, mask_quoted], fun character member => ?_⟩
      rcases List.mem_map.mp member with ⟨original, _, rfl⟩
      unfold hide
      split
      · exact .inr rfl
      · exact .inl rfl

theorem not_mem_mask (readable : Readable name) {character : Char} (other : character ≠ '"')
    (blank : character ∉ [' ', '\n']) (outside : isNamePart character = false) :
    character ∉ mask (quote name) := by
  intro member
  rcases readable.mask_cases with ⟨plain, same⟩ | ⟨inside, same, hidden⟩
  · rw [same] at member
    rw [isNamePart_of_isPlainName plain member] at outside
    cases outside
  · rw [same] at member
    rcases List.mem_cons.mp member with equal | member
    · exact other equal
    · rcases List.mem_append.mp member with member | last
      · exact blank (by simpa using hidden character member)
      · exact other (List.mem_singleton.mp last)

theorem afterIdentifier? (readable : Readable name) (rest : List Char) :
    Sql.afterIdentifier? (mask (quote name) ++ ' ' :: rest) = some (' ' :: rest) := by
  rw [afterIdentifier?_eq_some]
  rcases readable.mask_cases with ⟨plain, same⟩ | ⟨inside, same, hidden⟩
  · right
    refine ⟨name, by rw [same], plain, ?_⟩
    rintro _ ⟨⟩
    decide
  · left
    refine ⟨inside, by rw [same]; simp, fun member => ?_⟩
    rcases hidden '"' member with blank | blank <;> cases blank

end Readable

end TableSchema.Sql
