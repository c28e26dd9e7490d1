import Mathlib.Data.List.Infix
import TableSchema.Proofs.HeaderAccount
import TableSchema.Proofs.Quoting

/-! # Statements as they are written

A CREATE TABLE statement may be laid out in any way, with blanks and comments between its parts and
with quotes around its names. It is extracted as it is written, and nothing is reported about it.
-/

namespace TableSchema.Sql

open Text

/-! ## The parts of a statement -/

/-- What may stand between the parts of a statement: blanks and whole comments. -/
inductive IsGap : List Char → Prop
  | nil : IsGap []
  | blank {character : Char} {rest : List Char} (blank : isBlank character = true)
      (later : IsGap rest) : IsGap (character :: rest)
  | lineComment {inside rest : List Char} (oneLine : '\n' ∉ inside) (later : IsGap rest) :
      IsGap ('-' :: '-' :: (inside ++ '\n' :: rest))
  | blockComment {inside rest : List Char}
      (closed : ClosedToken [] .blockComment ('/' :: '*' :: inside) []) (later : IsGap rest) :
      IsGap ('/' :: '*' :: (inside ++ rest))

inductive IsSpacedPhrase : List (List Char) → List Char → Prop
  | nil : IsSpacedPhrase [] []
  | cons {keyword word gap rest : List Char} {phrase : List (List Char)}
      (read : word.map fold = keyword) (nonempty : gap ≠ []) (isGap : IsGap gap)
      (later : IsSpacedPhrase phrase rest) :
      IsSpacedPhrase (keyword :: phrase) (word ++ (gap ++ rest))

/-- An identifier writes the name: as it is, if it is a plain name without dollar signs, or between
double quotes. -/
def Writes (identifier name : List Char) : Prop :=
  (isPlainName name = true ∧ '$' ∉ name ∧ identifier = name) ∨ identifier = quoted name

def IsSpacedQualifier (text : List Char) : Prop :=
  ∃ owner name gap gap', text = owner ++ (gap ++ '.' :: gap') ∧ Writes owner name ∧ IsGap gap ∧
    IsGap gap'

/-- Every region of the text is closed in it, and every line comment is by a line feed. -/
def NothingOpen (text : List Char) : Prop :=
  ∀ region ∈ scan text, ClosedToken (text.take region.start) region.kind
    (slice text region.start region.stop) (text.drop region.stop)

structure WrittenStatement where
  /-- The words that create a table, perhaps only if it does not exist, and the gaps behind them. -/
  words : List Char
  qualifier : List Char
  identifier : List Char
  gap : List Char
  body : List Char
  /-- What stands between the closing parenthesis and the semicolon. -/
  ending : List Char

namespace WrittenStatement

def beforeOpening (written : WrittenStatement) : List Char :=
  written.words ++ (written.qualifier ++ (written.identifier ++ written.gap))

def text (written : WrittenStatement) : List Char :=
  written.beforeOpening ++ '(' :: (written.body ++ ')' :: (written.ending ++ [';']))

structure WellFormed (written : WrittenStatement) (name : List Char) : Prop where
  words : IsSpacedPhrase createPhrase written.words ∨
    IsSpacedPhrase (createPhrase ++ existencePhrase) written.words
  qualifier : written.qualifier = [] ∨ IsSpacedQualifier written.qualifier
  identifier : Writes written.identifier name
  gap : IsGap written.gap
  closed : NothingOpen written.body
  nested : WellNested (mask written.body)
  ending : IsGap written.ending

end WrittenStatement

/-! ## What the parts show in a mask -/

/-- Whatever stands before the text, and whatever stands behind it that may follow it, the text is
cut in one way, and the mask shows the same of it. -/
def Shows (mayFollow : List Char → Prop) (text masked : List Char) : Prop :=
  ∃ segments, textOf segments = text ∧ maskOf segments = masked ∧
    ∀ before after, mayFollow after → Reads (.afterText before) segments after

def Anything (_after : List Char) : Prop := True

def Unquoted (after : List Char) : Prop := ∀ character ∈ after.head?, character ≠ '"'

namespace Shows

variable {mayFollow mayFollow' : List Char → Prop} {text text' masked masked' : List Char}

theorem length_eq (shows : Shows mayFollow text masked) : masked.length = text.length := by
  rcases shows with ⟨segments, rfl, rfl, _⟩
  exact length_maskOf segments

theorem append (shows : Shows mayFollow text masked) (shows' : Shows mayFollow' text' masked')
    (follows : ∀ after, mayFollow' after → mayFollow (text' ++ after)) :
    Shows mayFollow' (text ++ text') (masked ++ masked') := by
  rcases shows with ⟨segments, rfl, rfl, reads⟩
  rcases shows' with ⟨segments', rfl, rfl, reads'⟩
  refine ⟨segments ++ segments', textOf_append .., maskOf_append .., fun before after next => ?_⟩
  refine reads_append.mpr ⟨reads before _ (follows after next), ?_⟩
  rw [Behind.afterText_append]
  exact reads' _ after next

theorem append_anything (shows : Shows Anything text masked)
    (shows' : Shows mayFollow' text' masked') :
    Shows mayFollow' (text ++ text') (masked ++ masked') :=
  shows.append shows' fun _ _ => trivial

theorem of_free (free : ∀ character ∈ text, character ∉ openers) : Shows Anything text text :=
  ⟨text.map .code, textOf_map_code text, maskOf_map_code text,
    fun _ _ _ => SelfContained.reads_codes free _ _⟩

theorem nil : Shows Anything [] [] := of_free (by simp)

theorem character {character : Char} (free : character ∉ openers) :
    Shows Anything [character] [character] :=
  of_free (List.forall_mem_singleton.mpr free)

theorem of_closedToken {kind : RegionKind}
    (closed : ∀ before after, mayFollow after → ClosedToken before kind text after) :
    Shows mayFollow text (Segment.region kind text).masked := by
  refine ⟨[.region kind text], List.append_nil _, List.append_nil _, fun before after next => ?_⟩
  exact ⟨regionAt?_eq_some_iff.mpr ⟨rfl, .inl (closed before after next)⟩, trivial⟩

theorem of_comment (kind : RegionKind) (comment : kind.isComment = true)
    (closed : ∀ before after, mayFollow after → ClosedToken before kind text after) :
    Shows mayFollow text (text.map hide) := by
  have shows := of_closedToken closed
  rwa [Segment.masked, comment, if_pos rfl] at shows

theorem before (shows : Shows Anything text masked) : Shows mayFollow text masked := by
  rcases shows with ⟨segments, rfl, rfl, reads⟩
  exact ⟨segments, rfl, rfl, fun before after _ => reads before after trivial⟩

end Shows

theorem allBlank_append {first second : List Char} (blank : AllBlank first)
    (blank' : AllBlank second) : AllBlank (first ++ second) := fun character member =>
  (List.mem_append.mp member).elim (blank character) (blank' character)

theorem IsGap.shows {gap : List Char} (isGap : IsGap gap) :
    ∃ blanks, AllBlank blanks ∧ Shows Anything gap blanks := by
  induction isGap with
  | nil => exact ⟨[], allBlank_nil, .nil⟩
  | @blank character rest blank _ induction =>
      rcases induction with ⟨blanks, later, shows⟩
      have here := Shows.character (not_mem_openers_of_isBlank blank)
      exact ⟨character :: blanks, List.forall_mem_cons.mpr ⟨blank, later⟩,
        here.append_anything shows⟩
  | @lineComment inside rest oneLine _ induction =>
      rcases induction with ⟨blanks, later, shows⟩
      have comment : Shows (fun after => ∃ rest, after = '\n' :: rest) ('-' :: '-' :: inside)
          (('-' :: '-' :: inside).map hide) := by
        refine .of_comment .lineComment rfl ?_
        rintro _ _ ⟨_, rfl⟩
        exact .lineComment oneLine
      have feed : Shows Anything ['\n'] ['\n'] := .character (by decide)
      have hidden := allBlank_map_hide ('-' :: '-' :: inside)
      refine ⟨('-' :: '-' :: inside).map hide ++ ('\n' :: blanks),
        allBlank_append hidden (List.forall_mem_cons.mpr ⟨by decide, later⟩), ?_⟩
      exact comment.append (feed.append_anything shows) fun _ _ => ⟨_, rfl⟩
  | @blockComment inside rest closed _ induction =>
      rcases induction with ⟨blanks, later, shows⟩
      have comment : Shows Anything ('/' :: '*' :: inside) (('/' :: '*' :: inside).map hide) := by
        refine .of_comment .blockComment rfl fun _ _ _ => ?_
        cases closed with
        | blockComment closes first => exact .blockComment closes first
      have hidden := allBlank_map_hide ('/' :: '*' :: inside)
      exact ⟨_, allBlank_append hidden later, comment.append_anything shows⟩

theorem IsSpacedPhrase.shows {phrase : List (List Char)} {text : List Char}
    (isPhrase : IsSpacedPhrase phrase text)
    (lower : ∀ keyword ∈ phrase, keyword ≠ [] ∧ ∀ letter ∈ keyword, letter.isLower = true) :
    ∃ masked, IsPhrase phrase masked ∧ Shows Anything text masked := by
  induction isPhrase with
  | nil => exact ⟨[], .nil, .nil⟩
  | @cons keyword word gap rest phrase read nonempty isGap _ induction =>
      rcases List.forall_mem_cons.mp lower with ⟨here, others⟩
      rcases induction others with ⟨masked, later, shows⟩
      rcases isGap.shows with ⟨blanks, blank, showsGap⟩
      have showsWord : Shows Anything word word := .of_free fun character member =>
        not_mem_openers_of_isWord
          (isWord_of_fold rfl (here.2 _ (read ▸ List.mem_map_of_mem member)))
      refine ⟨word ++ (blanks ++ masked), .cons read (fun nothing => nonempty ?_) blank later, ?_⟩
      · rw [← List.length_eq_zero_iff, ← showsGap.length_eq, nothing]
        rfl
      · exact showsWord.append_anything (showsGap.append_anything shows)

theorem quotedInside_doubleQuotes (name : List Char) :
    QuotedInside '"' False (doubleQuotes name) := by
  induction name with
  | nil => exact .nil
  | cons character name induction =>
      rw [doubleQuotes]
      split
      · exact .doubled induction
      · rename_i other
        exact .single other False.elim induction

theorem Writes.unquote_eq {identifier name : List Char} (writes : Writes identifier name) :
    unquote identifier = name := by
  rcases writes with ⟨plain, _, rfl⟩ | rfl
  · rw [← quote_of_plain plain, unquote_quote, quote_of_plain plain]
  · rw [quoted, unquote, List.getLast?_concat, if_pos rfl, List.dropLast_concat,
      collapseQuotes_doubleQuotes]

theorem Writes.shows {identifier name : List Char} (writes : Writes identifier name) :
    ∃ masked, IsIdentifier masked ∧ Shows Unquoted identifier masked := by
  rcases writes with ⟨plain, noDollar, rfl⟩ | rfl
  · refine ⟨identifier, .inr plain, ?_⟩
    refine (Shows.of_free fun character member => ?_).before
    have part := isNamePart_of_isPlainName plain member
    rw [isNamePart, Bool.or_eq_true, beq_iff_eq] at part
    exact not_mem_openers_of_isWord (part.resolve_right fun dollar => noDollar (dollar ▸ member))
  · refine ⟨'"' :: ((doubleQuotes name).map hide ++ ['"']), .inl ⟨_, rfl, fun member => ?_⟩, ?_⟩
    · have blank := allBlank_map_hide _ '"' member
      cases blank
    · rw [← hideInside_of_delimited]
      exact .of_closedToken fun _ _ => .quotedIdentifier (quotedInside_doubleQuotes name)

theorem unquoted_cons {character : Char} (other : character ≠ '"') (rest : List Char) :
    Unquoted (character :: rest) := by
  rintro _ ⟨⟩
  exact other

theorem IsGap.unquoted {gap : List Char} (isGap : IsGap gap) {character : Char}
    (other : character ≠ '"') (rest : List Char) : Unquoted (gap ++ character :: rest) := by
  cases isGap with
  | nil => exact unquoted_cons other rest
  | blank blank =>
      apply unquoted_cons
      rintro rfl
      cases blank
  | lineComment => exact unquoted_cons (by decide) _
  | blockComment => exact unquoted_cons (by decide) _

theorem IsSpacedQualifier.shows {qualifier : List Char}
    (isQualifier : IsSpacedQualifier qualifier) :
    ∃ masked, IsQualifier masked ∧ Shows Anything qualifier masked := by
  rcases isQualifier with ⟨owner, name, gap, gap', rfl, writes, isGap, isGap'⟩
  rcases writes.shows with ⟨identifier, isIdentifier, showsOwner⟩
  rcases isGap.shows with ⟨blanks, blank, showsGap⟩
  rcases isGap'.shows with ⟨blanks', blank', showsGap'⟩
  have dot : Shows Anything ['.'] ['.'] := .character (by decide)
  refine ⟨identifier ++ (blanks ++ '.' :: blanks'), ⟨_, _, _, rfl, isIdentifier, blank, blank'⟩, ?_⟩
  have behind : Shows Anything (gap ++ '.' :: gap') (blanks ++ '.' :: blanks') :=
    showsGap.append_anything (dot.append_anything showsGap')
  refine showsOwner.append behind fun after _ => ?_
  rw [List.append_assoc]
  exact isGap.unquoted (by decide) _

/-! ## Bodies -/

theorem Reads.append_right {behind : Behind} {segments : List Segment} {after other : List Char}
    (reads : Reads behind segments after) (nonempty : after ≠ []) (quiet : Quiet other) :
    Reads behind segments (after ++ other) := by
  induction segments generalizing behind with
  | nil => trivial
  | cons segment segments induction =>
      have more : textOf segments ++ after ≠ [] := List.append_ne_nil_of_right_ne_nil _ nonempty
      have stands := reads.1
      rw [← List.append_nil (textOf segments ++ after)] at stands
      refine ⟨?_, induction reads.2⟩
      rw [← List.append_assoc]
      exact stands.followedBy quiet (fun _ _ _ => List.append_ne_nil_of_left_ne_nil more _)
        fun nothing => absurd nothing more

/-- A token that the end of a text closes is closed by anything that starts nothing. -/
theorem ClosedToken.followedBy {before token other : List Char} {kind : RegionKind}
    (closed : ClosedToken before kind token []) (quiet : Quiet other) :
    ClosedToken before kind token other := by
  cases closed with
  | blockComment closes first => exact .blockComment closes first
  | string quoted =>
      have ends : RegionKind.string.MayEndBefore other := quiet.mayEndBefore (by simp)
      exact .string quoted ends
  | quotedIdentifier quoted =>
      have ends : RegionKind.quotedIdentifier.MayEndBefore other := quiet.mayEndBefore (by simp)
      exact .quotedIdentifier quoted ends
  | dollarString isTag free first => exact .dollarString isTag free first

/-- A text in which nothing is open is cut in the same way whatever follows it, as long as that
starts nothing. -/
theorem NothingOpen.reads {text : List Char} (closed : NothingOpen text) {other : List Char}
    (quiet : Quiet other) : Reads .start (segments text) other := by
  have reads := reads_segments text
  rcases List.eq_nil_or_concat (segments text) with nothing | ⟨front, last, cut⟩
  · rw [nothing]
    trivial
  · rw [List.concat_eq_append] at cut
    rw [cut] at reads ⊢
    rcases reads_append.mp reads with ⟨before, stands, _⟩
    rw [List.append_nil] at before
    have nonempty : textOf [last] ≠ [] := by simpa using stands.text_ne_nil
    refine reads_append.mpr ⟨before.append_right nonempty quiet, ?_, trivial⟩
    cases last with
    | code character =>
        rw [textOf_nil] at stands ⊢
        exact stands.followedBy quiet (fun _ _ code => by cases code) fun _ => trivial
    | region kind token =>
        have whole : text = textOf front ++ (token ++ []) := by
          rw [← text_segments text, cut]
          exact textOf_append _ _
        have listed : ⟨kind, (textOf front).length, (textOf front).length + token.length⟩ ∈
            scan text := by
          rw [scan, cut, regionsFrom_append, Nat.zero_add]
          exact List.mem_append_right _ (List.mem_cons_self ..)
        have isClosed := closed _ listed
        simp only at isClosed
        rw [slice_eq whole rfl rfl, whole, List.take_left, ← List.drop_drop, List.drop_left,
          List.drop_left] at isClosed
        exact regionAt?_eq_some_iff.mpr ⟨rfl, .inl (isClosed.followedBy quiet)⟩

/-! ## Statements -/

namespace WrittenStatement

variable {written : WrittenStatement} {name : List Char}

/-- What stands before the opening parenthesis is a header in a mask, with parts of the same
lengths. -/
theorem WellFormed.exists_header (wellFormed : written.WellFormed name) :
    ∃ parts : HeaderMatch, parts.Fits ∧
      Shows Anything (written.beforeOpening ++ ['(']) parts.whole ∧
      parts.words.length = written.words.length ∧
      parts.qualifier.length = written.qualifier.length ∧
      parts.name.length = written.identifier.length ∧ parts.gap.length = written.gap.length := by
  have words : ∃ words, (IsPhrase createPhrase words ∨
      IsPhrase (createPhrase ++ existencePhrase) words) ∧ Shows Anything written.words words := by
    rcases wellFormed.words with phrase | phrase
    · rcases phrase.shows words_createPhrase with ⟨words, isPhrase, shows⟩
      exact ⟨words, .inl isPhrase, shows⟩
    · rcases phrase.shows words_phrase with ⟨words, isPhrase, shows⟩
      exact ⟨words, .inr isPhrase, shows⟩
  have qualifier : ∃ qualifier, (qualifier = [] ∨ IsQualifier qualifier) ∧
      Shows Anything written.qualifier qualifier := by
    rcases wellFormed.qualifier with none | isQualifier
    · exact ⟨[], .inl rfl, none ▸ .nil⟩
    · rcases isQualifier.shows with ⟨qualifier, isQualifier, shows⟩
      exact ⟨qualifier, .inr isQualifier, shows⟩
  rcases words with ⟨words, phrase, showsWords⟩
  rcases qualifier with ⟨qualifier, qualified, showsQualifier⟩
  rcases wellFormed.identifier.shows with ⟨identifier, isIdentifier, showsName⟩
  rcases wellFormed.gap.shows with ⟨gap, blank, showsGap⟩
  have opening : Shows Anything ['('] ['('] := .character (by decide)
  have behindName := showsName.append (showsGap.append_anything opening) fun after _ => by
    rw [List.append_assoc]
    exact wellFormed.gap.unquoted (by decide) _
  refine ⟨⟨words, qualifier, identifier, gap⟩, ⟨phrase, qualified, isIdentifier, blank⟩, ?_,
    showsWords.length_eq, showsQualifier.length_eq, showsName.length_eq, showsGap.length_eq⟩
  simp only [beforeOpening, List.append_assoc]
  exact showsWords.append_anything (showsQualifier.append_anything behindName)

theorem WellFormed.exists_mask (wellFormed : written.WellFormed name) :
    ∃ parts blanks, HeaderMatch.Fits parts ∧ AllBlank blanks ∧
      blanks.length = written.ending.length ∧
      mask written.text = parts.text (mask written.body ++ ')' :: (blanks ++ [';'])) ∧
      parts.words.length = written.words.length ∧
      parts.qualifier.length = written.qualifier.length ∧
      parts.name.length = written.identifier.length ∧ parts.gap.length = written.gap.length := by
  rcases wellFormed.exists_header with ⟨parts, fits, ⟨front, text, masked, reads⟩, lengths⟩
  rcases wellFormed.ending.shows with ⟨blanks, blank, showsEnding⟩
  have closing : Shows Anything [')'] [')'] := .character (by decide)
  have semicolon : Shows Anything [';'] [';'] := .character (by decide)
  rcases closing.append_anything (showsEnding.append_anything semicolon) with
    ⟨back, text', masked', reads'⟩
  have fresh : (Behind.afterText (textOf front)).Fresh := by
    rw [text, ← Behind.afterText_append]
    exact Behind.push_fresh _ (by decide)
  have inside : Reads (.afterText (textOf front)) (segments written.body) (textOf back ++ []) := by
    rw [text']
    exact (wellFormed.closed.reads (quiet_cons (by decide) _)).congr
      (Behind.start_fresh.agrees fresh)
  have whole : Reads .start (front ++ (segments written.body ++ back)) [] := by
    refine reads_append.mpr ⟨reads [] _ trivial, reads_append.mpr ⟨inside, ?_⟩⟩
    change Reads ((Behind.afterText _).pushAll _) back []
    rw [Behind.afterText_append]
    exact reads' _ _ trivial
  refine ⟨parts, blanks, fits, blank, showsEnding.length_eq, ?_, lengths⟩
  have cut := segments_textOf whole
  rw [textOf_append, textOf_append, text, text', textOf, text_segments] at cut
  have same : written.text = (written.beforeOpening ++ ['(']) ++
      (written.body ++ ([')'] ++ (written.ending ++ [';']))) := by
    simp [WrittenStatement.text]
  rw [same, mask, cut]
  change maskOf _ = _
  rw [maskOf_append, maskOf_append, masked, masked', parts.text_eq_whole]
  rfl

end WrittenStatement

theorem headers_of_complete {parts : HeaderMatch} (fits : parts.Fits) {body blanks : List Char}
    (nested : WellNested body) (blank : AllBlank blanks) :
    headers (parts.text (body ++ ')' :: (blanks ++ [';']))) =
      [⟨0, parts.header.nameStart, parts.header.nameStop, parts.header.opening,
        .complete (parts.header.opening + 1 + body.length)
          (parts.header.opening + 1 + body.length + 1 + blanks.length)⟩] := by
  generalize shown : parts.text (body ++ ')' :: (blanks ++ [';'])) = masked
  have found : headerAt? none masked = some parts.header :=
    headerAt?_eq_some_iff.mpr ⟨rfl, parts, _, fits, shown.symm, rfl⟩
  have place : HeaderPlace.ofHeader 0 parts.header masked =
      ⟨0, parts.header.nameStart, parts.header.nameStop, parts.header.opening,
        .complete (parts.header.opening + 1 + body.length)
          (parts.header.opening + 1 + body.length + 1 + blanks.length)⟩ := by
    rw [← shown, HeaderPlace.ofHeader, parts.drop_whole,
      endingOf_eq_ite (balanced_iff_wellNested.mpr nested) blank (by decide), if_pos rfl]
    simp only [Nat.zero_add]
  have long : masked.length ≤ (HeaderPlace.ofHeader 0 parts.header masked).next - 0 := by
    rw [place, ← shown, parts.text_eq_whole, List.length_append, parts.length_whole]
    simp only [HeaderPlace.next, List.length_append, List.length_cons, List.length_nil]
    omega
  cases masked with
  | nil => cases found
  | cons character rest =>
      rw [headers, headersFrom_of_some found, List.drop_eq_nil_of_le long, place]
      rfl

namespace WrittenStatement

variable {written : WrittenStatement} {name : List Char}

/-- A statement that is well formed is the one statement of its text, with its body as it stands
there and with the name that its identifier writes, and nothing is reported. -/
theorem statements_of_wellFormed (wellFormed : written.WellFormed name) :
    statements written.text = [⟨String.ofList name, String.ofList written.body,
        lineAt written.text written.beforeOpening.length⟩] ∧
      statementDiagnostics written.text = [] := by
  rcases wellFormed.exists_mask with
    ⟨parts, blanks, fits, blank, ending, masked, words, qualifier, identifier, gap⟩
  have listed := headers_of_complete fits wellFormed.nested blank
  rw [← masked] at listed
  have nameStart : parts.header.nameStart = (written.words ++ written.qualifier).length := by
    rw [HeaderMatch.header, words, qualifier, List.length_append]
  have nameStop : parts.header.nameStop =
      (written.words ++ written.qualifier).length + written.identifier.length := by
    rw [HeaderMatch.header, words, qualifier, identifier, List.length_append]
  have opening : parts.header.opening = written.beforeOpening.length := by
    simp only [HeaderMatch.header, words, qualifier, identifier, gap, beforeOpening,
      List.length_append, Nat.add_assoc]
  have byName : written.text = (written.words ++ written.qualifier) ++ (written.identifier ++
      (written.gap ++ '(' :: (written.body ++ ')' :: (written.ending ++ [';'])))) := by
    simp [text, beforeOpening]
  have byBody : written.text = (written.beforeOpening ++ ['(']) ++
      (written.body ++ ')' :: (written.ending ++ [';'])) := by
    simp [text]
  have named : slice written.text parts.header.nameStart parts.header.nameStop =
      written.identifier := slice_eq byName nameStart nameStop
  have body : slice written.text (written.beforeOpening.length + 1)
      (written.beforeOpening.length + 1 + written.body.length) = written.body :=
    slice_eq byBody (by simp) (by simp)
  have found : findings written.text = [.statement ⟨String.ofList name,
      String.ofList written.body, lineAt written.text written.beforeOpening.length⟩] := by
    rw [findings_eq, listed, List.map_singleton, HeaderPlace.finding, HeaderPlace.name]
    simp only [named, wellFormed.identifier.unquote_eq, opening, length_mask, body]
  rw [statements, statementDiagnostics, found]
  exact ⟨rfl, rfl⟩

/-- A table of a schema called "if", with comments for blanks, and with parentheses and semicolons
in its name, in its comments and in its body. -/
theorem tricky_statement_is_extracted :
    let written : WrittenStatement :=
      ⟨"Create".toList ++ ("--(\n".toList ++ ("tABLE".toList ++ (" ".toList ++ []))),
        "if".toList ++ ("/**/".toList ++ '.' :: []), quoted "a\"(".toList, [],
        "x text default ');' --,(\n".toList, "/**/".toList⟩
    written.text =
        "Create--(\ntABLE if/**/.\"a\"\"(\"(x text default ');' --,(\n)/**/;".toList ∧
      statements written.text = [⟨"a\"(", "x text default ');' --,(\n", 2⟩] := by
  intro written
  have space : IsGap [' '] := .blank rfl .nil
  have comment : IsGap ('-' :: '-' :: (['('] ++ '\n' :: [])) := .lineComment (by decide) .nil
  have early : ∀ shorter ∈ ['*', '/'].inits, shorter ≠ ['*', '/'] →
      nesting ('/' :: '*' :: shorter) ≠ 0 := by decide
  have block : IsGap ('/' :: '*' :: (['*', '/'] ++ [])) :=
    .blockComment (.blockComment (by decide) fun shorter isPrefix =>
      early shorter ((List.mem_inits ..).mpr isPrefix)) .nil
  have regions : scan written.body = [⟨.string, 15, 19⟩, ⟨.lineComment, 20, 24⟩] := by
    decide +kernel
  have closed : NothingOpen written.body := by
    rw [NothingOpen, regions, List.forall_mem_cons, List.forall_mem_singleton]
    have quoted : QuotedInside '\'' (EndsWithE (written.body.take 15)) [')', ';'] :=
      .single (by decide) (fun _ => by decide) (.single (by decide) (fun _ => by decide) .nil)
    have comment : ClosedToken (written.body.take 20) .lineComment ('-' :: '-' :: [',', '('])
        ('\n' :: []) := .lineComment (by decide)
    have ends : RegionKind.string.MayEndBefore (" --,(\n".toList) :=
      (quiet_cons (by decide) _).mayEndBefore (by simp)
    exact ⟨.string quoted ends, comment⟩
  have wellFormed : written.WellFormed "a\"(".toList :=
    ⟨.inl (.cons rfl (by decide) comment (.cons rfl (by decide) space .nil)),
      .inr ⟨_, "if".toList, _, _, rfl, .inl ⟨rfl, by decide, rfl⟩, block, .nil⟩, .inr rfl, .nil,
      closed, balanced_iff_wellNested.mp (by decide +kernel), block⟩
  refine ⟨by decide +kernel, ?_⟩
  rw [(statements_of_wellFormed wellFormed).1]
  decide +kernel

end WrittenStatement

end TableSchema.Sql
