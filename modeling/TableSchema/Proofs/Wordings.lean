import Mathlib.Data.List.Forall2
import TableSchema.Proofs.Quoting
import TableSchema.Proofs.StrippedScripts

/-! # The wording of a statement

A complete statement that is found in the mask of a script is spelled out in the script: where the
mask shows anything else than a blank it shows the script itself.
-/

namespace TableSchema.Sql

open Text

/-! ## What a mask shows of a text -/

def ShownAs (character shown : Char) : Prop := shown = character ∨ shown = hide character

theorem ShownAs.eq {character shown : Char} (shows : ShownAs character shown)
    (visible : shown ∉ [' ', '\n']) : character = shown := by
  rcases shows with same | hidden
  · exact same.symm
  · refine absurd ?_ visible
    rw [hidden]
    unfold hide
    split <;> simp

theorem ShownAs.lineFeed {shown : Char} (shows : ShownAs '\n' shown) : shown = '\n' := by
  rcases shows with same | hidden
  · exact same
  · exact hidden

theorem forall₂_masked (segment : Segment) :
    List.Forall₂ ShownAs segment.text segment.masked := by
  have hidden (text : List Char) : List.Forall₂ ShownAs text (text.map hide) := by
    rw [List.forall₂_map_right_iff, List.forall₂_same]
    exact fun _ _ => .inr rfl
  cases segment with
  | code character => exact .cons (.inl rfl) .nil
  | region kind text =>
      rw [Segment.masked]
      split
      · exact hidden text
      · cases text with
        | nil => exact .nil
        | cons first rest =>
            rcases List.eq_nil_or_concat rest with rfl | ⟨inside, last, rfl⟩
            · exact hidden [first]
            · rw [List.concat_eq_append, hideInside_of_delimited]
              exact .cons (.inl rfl) (List.rel_append (hidden inside) (.cons (.inl rfl) .nil))

theorem forall₂_mask (text : List Char) : List.Forall₂ ShownAs text (mask text) := by
  have all (segments : List Segment) :
      List.Forall₂ ShownAs (textOf segments) (maskOf segments) := by
    induction segments with
    | nil => exact .nil
    | cons segment segments induction => exact List.rel_append (forall₂_masked segment) induction
  have whole := all (segments text)
  rwa [textOf, text_segments] at whole

theorem exists_append_of_forall₂ {α β : Type} {relation : α → β → Prop} {elements : List α}
    {first second : List β} (related : List.Forall₂ relation elements (first ++ second)) :
    ∃ front back, elements = front ++ back ∧ List.Forall₂ relation front first ∧
      List.Forall₂ relation back second :=
  ⟨elements.take first.length, elements.drop first.length, (List.take_append_drop ..).symm,
    List.forall₂_take_append _ _ _ related, List.forall₂_drop_append _ _ _ related⟩

theorem eq_of_shown {text shown : List Char} (shows : List.Forall₂ ShownAs text shown)
    (visible : ∀ character ∈ shown, character ∉ [' ', '\n']) : text = shown := by
  induction shows with
  | nil => rfl
  | cons here _ induction =>
      rw [here.eq (visible _ (List.mem_cons_self ..)),
        induction fun character member => visible character (List.mem_cons_of_mem _ member)]

/-! ## Names -/

theorem eq_quoted_of_closed {behind : Behind} {kind : RegionKind} {text after : List Char}
    (closed : ClosedRegion behind kind text after) (opens : text.head? = some '"') :
    text = quoted (unquote text) := by
  cases closed with
  | quotedIdentifier closes =>
      rcases exists_name_of_quoteEnd? closes with ⟨name, rfl⟩
      exact (congrArg quoted (unquote_quoted name)).symm
  | lineComment => cases opens
  | blockComment => cases opens
  | string => cases opens
  | dollarString => cases opens

theorem ClosedRegion.exists_tag {behind : Behind} {text after : List Char}
    (closed : ClosedRegion behind .dollarString text after) :
    ∃ first inside, isNamePart first = true ∧ text = '$' :: (first :: inside ++ ['$']) := by
  cases closed with
  | dollarString _ opens closes =>
      rename_i tag inside _
      have ends := getLast?_of_tagEnd? (by simp) closes
      rw [List.getLast?_cons, getLast?_of_tagRest? opens] at ends
      rcases List.getLast?_eq_some_iff.mp ends with ⟨inner, rfl⟩
      rcases List.exists_cons_of_ne_nil (List.getLast?_isSome.mp
        (Option.isSome_of_mem (getLast?_of_tagRest? opens))) with ⟨first, tag, rfl⟩
      refine ⟨first, tag ++ inner, ?_, by simp⟩
      rcases tag_of_tagRest? opens first (List.mem_cons_self ..) with word | rfl
      · simp [isNamePart, word]
      · decide

theorem isNamePart_hide (character : Char) : isNamePart (hide character) = false := by
  unfold hide
  split <;> decide

theorem Reads.exists_codes {behind : Behind} {segments : List Segment}
    {after name rest shown : List Char} (reads : Reads behind segments after) (more : after ≠ [])
    (named : ∀ character ∈ name, isNamePart character = true)
    (read : textOf segments ++ after = name ++ ' ' :: rest)
    (masked : maskOf segments = name ++ shown) : ∃ later, segments = name.map .code ++ later := by
  induction name generalizing behind segments with
  | nil => exact ⟨segments, rfl⟩
  | cons character name induction =>
      have here := named character (List.mem_cons_self ..)
      have named' := fun other member => named other (List.mem_cons_of_mem character member)
      cases segments with
      | nil => cases masked
      | cons segment segments =>
          rw [textOf_cons, List.append_assoc] at read
          cases segment with
          | code other =>
              rcases List.cons.inj read with ⟨rfl, readRest⟩
              rcases induction reads.2 named' readRest (List.cons.inj masked).2 with ⟨later, rfl⟩
              exact ⟨later, rfl⟩
          | region kind text =>
              exfalso
              have closed := reads.1.closed (List.append_ne_nil_of_right_ne_nil _ more)
              have other {mark : Char} (outside : isNamePart mark = false) {inside : List Char}
                  (opens : mark :: inside = character :: (name ++ ' ' :: rest)) : False := by
                rw [(List.cons.inj opens).1, here] at outside
                cases outside
              cases kind with
              | dollarString =>
                  rcases closed.exists_tag with ⟨first, inside, part, rfl⟩
                  have token : (Segment.region .dollarString
                      ('$' :: (first :: inside ++ ['$']))).masked =
                        '$' :: hide first :: (inside.map hide ++ ['$']) :=
                    hideInside_of_delimited '$' '$' (first :: inside)
                  rw [maskOf_cons, token] at masked
                  cases name with
                  | nil =>
                      cases (List.cons.inj (List.cons.inj read).2).1
                      cases part
                  | cons next name =>
                      have second : hide first = next :=
                        (List.cons.inj (List.cons.inj masked).2).1
                      have shown' := named' next (List.mem_cons_self ..)
                      rw [← second, isNamePart_hide] at shown'
                      cases shown'
              | lineComment | blockComment | string | quotedIdentifier =>
                  cases closed
                  exact other (by decide) read

theorem scan_of_parts {sql front before name after : List Char} {parts : HeaderParts}
    (whole : mask sql = front ++ parts.text) (spelled : sql = before ++ (name ++ ' ' :: after))
    (starts : before.length = front.length + parts.header.nameStart)
    (last : before.getLast? = some ' ') (plain : isPlainName name = true)
    (shown : parts.identifier = name) (more : parts.rest ≠ []) : scan name = [] := by
  cases name with
  | nil => cases plain
  | cons first name =>
      have named (character : Char) (member : character ∈ first :: name) :=
        isNamePart_of_isPlainName plain member
      have structural : first ∉ regionMarks := by
        simp only [isPlainName, isNameStart, Bool.and_eq_true] at plain
        exact not_mem_regionMarks_of_isWord plain.1.1
      rw [parts.text_eq_name, shown, ← List.append_assoc] at whole
      rcases exists_code_of_maskOf (reads_segments sql) whole structural
        (.inl (by simp [HeaderParts.afterName])) with ⟨ahead, second, cut, masked, behind⟩
      have reads := reads_segments sql
      rw [cut] at reads
      rcases reads_append.mp reads with ⟨_, reads⟩
      have long : (textOf ahead).length = before.length := by
        rw [← length_maskOf, masked, List.length_append, parts.length_beforeName, starts]
      have split : textOf (segments sql) = sql := text_segments sql
      rw [cut, textOf_append, textOf_cons, Segment.text_code, spelled] at split
      rcases List.append_inj split long with ⟨rfl, tails⟩
      have read : textOf second = name ++ ' ' :: after := (List.cons.inj tails).2
      have opens : maskOf second = (name ++ parts.gap) ++ '(' :: parts.rest := by
        rw [behind, List.append_assoc]
        rfl
      rcases exists_code_of_maskOf reads.2 opens (by decide) (.inl more) with
        ⟨within, rest, rfl, masked', _⟩
      rw [textOf_append] at read
      have named' := fun other member => named other (List.mem_cons_of_mem first member)
      rcases (reads_append.mp reads.2).1.exists_codes (by simp) named'
        (by rw [List.append_nil, read]) masked' with ⟨later, rfl⟩
      rw [List.append_assoc, ← List.cons_append] at reads
      rcases List.getLast?_eq_some_iff.mp last with ⟨front', ends⟩
      have fresh : (Behind.start.pushAll (textOf ahead)).Fresh := by
        rw [ends]
        exact Behind.pushAll_fresh _ _ (by decide)
      have codes : Reads .start ((first :: name).map .code) [] := by
        apply (reads_append.mp reads).1.alone fresh quiet_nil
        intro kind text region
        have member := List.mem_of_getLast? region
        simp at member
      have alone := segments_textOf codes
      rw [textOf_map_code] at alone
      rw [scan, alone, SelfContained.regionsFrom_map_code]

theorem identifier_of_parts {sql front before identifier after : List Char} {parts : HeaderParts}
    (whole : mask sql = front ++ parts.text) (good : parts.WellFormed)
    (spelled : sql = before ++ (identifier ++ after)) (nonempty : after ≠ [])
    (starts : before.length = front.length + parts.header.nameStart)
    (shows : List.Forall₂ ShownAs identifier parts.identifier) :
    identifier = quoted (unquote identifier) ∨
      isPlainName identifier = true ∧ parts.identifier = identifier := by
  rcases quoted_or_plain good.identifier_read with ⟨inside, quotes, absent⟩ | plain
  · left
    rcases exists_literal_of_parts whole good quotes absent with
      ⟨ahead, kind, text, rest, cut, _, start, size⟩
    have reads := reads_segments sql
    have split : textOf (segments sql) = sql := text_segments sql
    rw [cut] at reads split
    rw [textOf_append, textOf_cons, Segment.text_region, spelled] at split
    have length : (textOf ahead).length = before.length := by rw [start, starts]
    have size' : text.length = identifier.length := by rw [size, shows.length_eq]
    rcases List.append_inj split length with ⟨_, tails⟩
    rcases List.append_inj tails size' with ⟨rfl, rfl⟩
    have closed := (reads_append.mp reads).2.1.closed (by simpa using nonempty)
    apply eq_quoted_of_closed closed
    rw [quotes] at shows
    cases shows with
    | cons first _ => rw [first.eq (by decide), List.head?_cons]
  · right
    have same : identifier = parts.identifier := by
      apply eq_of_shown shows
      intro character member
      have visible := isNamePart_of_isPlainName plain member
      simp only [List.mem_cons, List.not_mem_nil, or_false]
      rintro (rfl | rfl) <;> cases visible
    exact ⟨same ▸ plain, same.symm⟩

theorem body_of_parts {sql front shown tail before body after : List Char} {parts : HeaderParts}
    (whole : mask sql = front ++ parts.text) (split : parts.rest = shown ++ ')' :: tail)
    (nonempty : tail ≠ []) (spelled : sql = before ++ (body ++ after))
    (starts : before.length = front.length + parts.header.opening + 1)
    (long : body.length = shown.length) :
    Reads .start (segments body) ['\n'] ∧ mask body = shown := by
  rcases exists_segments_of_parts whole split nonempty with ⟨ahead, inside, rest, cut, opening, rfl⟩
  have script : textOf (segments sql) = sql := text_segments sql
  rw [cut, textOf_append, textOf_append inside, spelled] at script
  have long' : (textOf (ahead ++ [.code '('])).length = before.length := by
    rw [textOf_append, List.length_append, opening, starts]
    rfl
  rw [length_maskOf] at long
  rcases List.append_inj script long' with ⟨_, tails⟩
  rcases List.append_inj tails long.symm with ⟨rfl, _⟩
  have alone := segments_textOf
    (reads_inside (by decide) cut quiet_nil (by simp [RegionKind.MayEndBefore]))
  rw [mask, alone]
  exact ⟨reads_inside (by decide) cut (quiet_cons (by decide) [])
    (by simp [RegionKind.MayEndBefore]), rfl⟩

/-! ## Statements -/

/-- How a complete statement is spelled out, from its first word to its semicolon. -/
structure Wording where
  lead : List Char
  identifier : List Char
  gap : List Char
  body : List Char
  blanks : List Char

namespace Wording

def opening (wording : Wording) : List Char :=
  wording.lead ++ (wording.identifier ++ (wording.gap ++ ['(']))

def text (wording : Wording) : List Char :=
  wording.opening ++ (wording.body ++ ')' :: (wording.blanks ++ [';']))

structure Shows (wording shown : Wording) : Prop where
  lead : List.Forall₂ ShownAs wording.lead shown.lead
  identifier : List.Forall₂ ShownAs wording.identifier shown.identifier
  gap : List.Forall₂ ShownAs wording.gap shown.gap
  body : List.Forall₂ ShownAs wording.body shown.body
  blanks : List.Forall₂ ShownAs wording.blanks shown.blanks

theorem exists_shows {text rest : List Char} {shown : Wording}
    (shows : List.Forall₂ ShownAs text (shown.text ++ rest)) :
    ∃ (wording : Wording) (tail : List Char), text = wording.text ++ tail ∧ wording.Shows shown := by
  have mark {character : Char} {text rest : List Char}
      (shows : List.Forall₂ ShownAs text (character :: rest))
      (visible : character ∉ [' ', '\n']) :
      ∃ tail, text = character :: tail ∧ List.Forall₂ ShownAs tail rest := by
    cases shows with
    | cons here later => exact ⟨_, by rw [here.eq visible], later⟩
  simp only [Wording.text, opening, List.append_assoc, List.cons_append, List.nil_append] at shows
  rcases exists_append_of_forall₂ shows with ⟨lead, _, rfl, shownLead, behindLead⟩
  rcases exists_append_of_forall₂ behindLead with ⟨identifier, _, rfl, shownIdentifier, behindName⟩
  rcases exists_append_of_forall₂ behindName with ⟨gap, _, rfl, shownGap, behindGap⟩
  rcases mark behindGap (by decide) with ⟨_, rfl, inside⟩
  rcases exists_append_of_forall₂ inside with ⟨body, _, rfl, shownBody, behindBody⟩
  rcases mark behindBody (by decide) with ⟨_, rfl, outside⟩
  rcases exists_append_of_forall₂ outside with ⟨blanks, _, rfl, shownBlanks, behindBlanks⟩
  rcases mark behindBlanks (by decide) with ⟨tail, rfl, _⟩
  exact ⟨⟨lead, identifier, gap, body, blanks⟩, tail, by simp [Wording.text, opening],
    ⟨shownLead, shownIdentifier, shownGap, shownBody, shownBlanks⟩⟩

structure Sound (wording : Wording) : Prop where
  late : 13 ≤ wording.lead.length
  starts : wording.lead.head? ≠ some '\n'
  identifier : wording.identifier = quoted (unquote wording.identifier) ∨
    isPlainName wording.identifier = true ∧ (wording.lead.getLast? = some ' ' →
      wording.gap.head? = some ' ' → scan wording.identifier = [])
  closed : Reads .start (segments wording.body) ['\n']
  balanced : Balanced (mask wording.body)

def ofParts (parts : HeaderParts) (body blanks : List Char) : Wording :=
  ⟨parts.beforeName, parts.identifier, parts.gap, body, blanks⟩

section

variable {sql front before tail body blanks rest : List Char} {parts : HeaderParts}
  {wording : Wording}

theorem text_ofParts (split : parts.rest = body ++ ')' :: (blanks ++ ';' :: rest)) :
    parts.text = (ofParts parts body blanks).text ++ rest := by
  rw [parts.text_eq_name, HeaderParts.afterName, split]
  simp [ofParts, text, opening]

theorem Shows.length_lead (shows : wording.Shows (ofParts parts body blanks)) :
    wording.lead.length = parts.header.nameStart := by
  rw [shows.lead.length_eq, ofParts, parts.length_beforeName]

theorem Shows.length_opening (shows : wording.Shows (ofParts parts body blanks)) :
    wording.opening.length = parts.header.opening + 1 := by
  simp only [opening, List.length_append, List.length_singleton, shows.length_lead,
    shows.identifier.length_eq, shows.gap.length_eq, ofParts, HeaderParts.header]
  omega

theorem Shows.length_text (shows : wording.Shows (ofParts parts body blanks)) :
    wording.text.length = parts.header.opening + 1 + body.length + 1 + blanks.length + 1 := by
  simp only [text, List.length_append, List.length_cons, List.length_nil, shows.length_opening,
    shows.body.length_eq, shows.blanks.length_eq, ofParts]
  omega

theorem Shows.slice_identifier (shows : wording.Shows (ofParts parts body blanks))
    (spelled : sql = before ++ (wording.text ++ tail)) :
    slice sql (before.length + parts.header.nameStart) (before.length + parts.header.nameStop) =
      wording.identifier := by
  have split : sql = (before ++ wording.lead) ++ (wording.identifier ++ (wording.gap ++
      '(' :: (wording.body ++ ')' :: (wording.blanks ++ ';' :: tail)))) := by
    rw [spelled]
    simp [text, opening]
  apply slice_eq split
  · rw [List.length_append, shows.length_lead]
  · rw [List.length_append, shows.length_lead, shows.identifier.length_eq, Nat.add_assoc]
    rfl

theorem Shows.slice_body (shows : wording.Shows (ofParts parts body blanks))
    (spelled : sql = before ++ (wording.text ++ tail)) :
    slice sql (before.length + (parts.header.opening + 1))
      (before.length + (parts.header.opening + (1 + body.length))) = wording.body := by
  have split : sql = (before ++ wording.opening) ++
      (wording.body ++ ')' :: (wording.blanks ++ ';' :: tail)) := by
    rw [spelled]
    simp [text]
  apply slice_eq split
  · rw [List.length_append, shows.length_opening]
  · rw [List.length_append, shows.length_opening, shows.body.length_eq, Nat.add_assoc, Nat.add_assoc]
    rfl

theorem Shows.identifier_cases (shows : wording.Shows (ofParts parts body blanks))
    (whole : mask sql = front ++ parts.text) (good : parts.WellFormed) (nonempty : parts.rest ≠ [])
    (spelled : sql = before ++ (wording.text ++ tail)) (length : before.length = front.length) :
    wording.identifier = quoted (unquote wording.identifier) ∨
      isPlainName wording.identifier = true ∧ (wording.lead.getLast? = some ' ' →
        wording.gap.head? = some ' ' → scan wording.identifier = []) := by
  have starts : (before ++ wording.lead).length = front.length + parts.header.nameStart := by
    rw [List.length_append, length, shows.length_lead]
  have split : sql = (before ++ wording.lead) ++ (wording.identifier ++ (wording.gap ++
      '(' :: (wording.body ++ ')' :: (wording.blanks ++ ';' :: tail)))) := by
    rw [spelled]
    simp [text, opening]
  rcases identifier_of_parts whole good split (by simp) starts shows.identifier with
    quotes | ⟨plain, same⟩
  · exact .inl quotes
  · refine .inr ⟨plain, fun last next => ?_⟩
    rcases List.head?_eq_some_iff.mp next with ⟨gap, equation⟩
    rw [equation, List.cons_append] at split
    apply scan_of_parts whole split starts _ plain same nonempty
    rw [List.getLast?_append, last]
    rfl

theorem Shows.sound {previous : Option Char} (shows : wording.Shows (ofParts parts body blanks))
    (found : headerAt? previous parts.text = some parts.header)
    (whole : mask sql = front ++ parts.text) (good : parts.WellFormed)
    (split : parts.rest = body ++ ')' :: (blanks ++ ';' :: rest)) (balanced : Balanced body)
    (spelled : sql = before ++ (wording.text ++ tail)) (length : before.length = front.length) :
    wording.Sound := by
  have script : sql = (before ++ wording.opening) ++
      (wording.body ++ ')' :: (wording.blanks ++ ';' :: tail)) := by
    rw [spelled]
    simp [text]
  have starts : (before ++ wording.opening).length = front.length + parts.header.opening + 1 := by
    rw [List.length_append, length, shows.length_opening, Nat.add_assoc]
  rcases body_of_parts whole split (by simp) script starts shows.body.length_eq with
    ⟨closed, masked⟩
  constructor
  · rw [shows.length_lead]
    exact good.name_late
  · intro lineFeed
    rcases List.head?_eq_some_iff.mp lineFeed with ⟨lead, equation⟩
    have shown := shows.lead
    rw [equation] at shown
    cases spelled' : (ofParts parts body blanks).lead with
    | nil =>
        rw [spelled'] at shown
        cases shown
    | cons first more =>
        rw [spelled'] at shown
        cases shown with
        | cons here _ =>
            have beforeName : parts.beforeName = '\n' :: more := by
              rw [← here.lineFeed]
              exact spelled'
            rw [parts.text_eq_name, beforeName, List.cons_append,
              headerAt?_eq_none (by decide)] at found
            cases found
  · apply shows.identifier_cases whole good _ spelled length
    rw [split]
    simp
  · exact closed
  · rw [masked]
    exact balanced

end

end Wording

/-- A complete statement is spelled out where its header stands. -/
theorem exists_wording {sql : List Char} {previous : Option Char} {position : Nat}
    {header : Header} (found : headerAt? previous ((mask sql).drop position) = some header)
    {statement : StatementPlace}
    (complete : (HeaderPlace.ofHeader position header ((mask sql).drop position)).statement? =
      some statement) :
    ∃ wording : Wording, wording.Sound ∧
      sql.drop position = wording.text ++
        sql.drop (HeaderPlace.ofHeader position header ((mask sql).drop position)).next ∧
      statement.statement sql = ⟨String.ofList (unquote wording.identifier),
        String.ofList wording.body, lineAt sql statement.opening⟩ := by
  rcases exists_parts_of_headerAt? found with ⟨_, parts, good, spelled, rfl⟩
  have within : position ≤ sql.length := by
    apply Nat.le_of_not_lt
    intro short
    rw [← length_mask] at short
    rw [List.drop_eq_nil_of_le (Nat.le_of_lt short)] at spelled
    have none := congrArg List.length spelled
    simp [HeaderParts.text] at none
  have front : (sql.take position).length = position := List.length_take_of_le within
  have whole : mask sql = (mask sql).take position ++ parts.text := by
    rw [spelled, List.take_append_drop]
  have same : (sql.take position).length = ((mask sql).take position).length := by
    rw [List.length_take, List.length_take, length_mask]
  have shows : List.Forall₂ ShownAs (sql.drop position) parts.text := by
    rw [spelled]
    exact List.forall₂_drop position (forall₂_mask sql)
  rw [← spelled] at found complete ⊢
  simp only [HeaderPlace.statement?, HeaderPlace.ofHeader, parts.drop_opening] at complete ⊢
  split at complete
  · rename_i closing semicolon ending
    cases complete
    rcases complete_of_endingOf ending with ⟨body, blanks, rest, split, balanced, _, rfl, rfl⟩
    rw [Wording.text_ofParts split] at shows
    rcases Wording.exists_shows shows with ⟨wording, tail, text, shows⟩
    have script : sql = sql.take position ++ (wording.text ++ tail) := by
      rw [← text, List.take_append_drop]
    refine ⟨wording, shows.sound found whole good split balanced script same, ?_, ?_⟩
    · simp only [HeaderPlace.next, ending]
      have behind : position + parts.header.opening + 1 + body.length + 1 + blanks.length + 1 =
          position + wording.text.length := by
        rw [shows.length_text]
        omega
      rw [behind, ← List.drop_drop, text, List.drop_left]
    · have name := shows.slice_identifier script
      have inside := shows.slice_body script
      rw [front] at name inside
      simp only [StatementPlace.statement, StatementPlace.body, name, inside, Nat.add_assoc]
  · cases complete

end TableSchema.Sql
