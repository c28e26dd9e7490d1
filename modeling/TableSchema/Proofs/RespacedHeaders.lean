import Mathlib.Data.List.Forall2
import TableSchema.Proofs.HeaderAccount
import TableSchema.Proofs.Respacing

/-! # Headers between other blanks

Two masks that are the same but for runs of blanks show the same headers, one for one, at places that
have the same in front of them.
-/

namespace TableSchema.Sql

open Text

variable {lines : Prop}

/-! ## Parts of headers -/

theorem IsPhrase.respaced {phrase : List (List Char)} {text rest second : List Char}
    (isPhrase : IsPhrase phrase text) (keywords : AreKeywords phrase) (bare : Bare rest)
    (same : Respaced lines (text ++ rest) second) :
    ∃ text' rest', second = text' ++ rest' ∧ IsPhrase phrase text' ∧ Respaced lines text text' ∧
      Respaced lines rest rest' := by
  induction isPhrase generalizing second with
  | nil => exact ⟨[], second, rfl, .nil, .nil, same⟩
  | @cons keyword word blanks more phrase read nonempty blank later induction =>
      rcases List.forall_mem_cons.mp keywords with ⟨here, others⟩
      have bareMore : Bare (more ++ rest) := by
        cases phrase with
        | nil =>
            cases later
            exact bare
        | cons next phrase =>
            have next := others next (List.mem_cons_self ..)
            exact later.bare next.1 next.2 rest
      rw [List.append_assoc, List.append_assoc] at same
      rcases Respaced.exists_of_word (fun _ => visible_of_fold read here.2) same with
        ⟨_, rfl, behind⟩
      rcases Respaced.exists_of_blanks blank bareMore behind with
        ⟨blanks', _, rfl, sameBlanks, blank', _, behind'⟩
      rcases induction others behind' with ⟨text', rest', rfl, isPhrase, sameMore, sameRest⟩
      have nonempty' : blanks' ≠ [] := fun none => nonempty (sameBlanks.nil_iff.mpr none)
      exact ⟨word ++ (blanks' ++ text'), rest', by simp, .cons read nonempty' blank' isPhrase,
        (SameBut.refl word).append (sameBlanks.append sameMore), sameRest⟩

theorem IsIdentifier.respaced {text rest second : List Char} (isIdentifier : IsIdentifier text)
    (same : Respaced lines (text ++ rest) second) :
    ∃ text' rest', second = text' ++ rest' ∧ IsIdentifier text' ∧ Respaced lines text text' ∧
      Respaced lines rest rest' := by
  have quote : isBlank '"' = false := by decide
  rcases isIdentifier with ⟨inside, rfl, absent⟩ | plain
  · rw [List.cons_append, List.append_assoc] at same
    rcases Respaced.exists_of_cons quote same with ⟨_, rfl, behind⟩
    rcases Respaced.exists_of_visible quote behind with ⟨inside', rest', rfl, sameInside, sameRest⟩
    exact ⟨'"' :: (inside' ++ ['"']), rest', by simp,
      .inl ⟨inside', rfl, fun member => absent (sameInside.mem quote member)⟩,
      .cons _ (sameInside.append (.refl _)), sameRest⟩
  · rcases Respaced.exists_of_word (fun _ => visible_of_isPlainName plain) same with
      ⟨rest', rfl, sameRest⟩
    exact ⟨text, rest', rfl, .inr plain, .refl text, sameRest⟩

theorem IsQualifier.respaced {text rest second : List Char} (isQualifier : IsQualifier text)
    (bare : Bare rest) (same : Respaced lines (text ++ rest) second) :
    ∃ text' rest', second = text' ++ rest' ∧ IsQualifier text' ∧ Respaced lines text text' ∧
      Respaced lines rest rest' := by
  have dot : isBlank '.' = false := by decide
  rcases isQualifier with ⟨owner, gap, blanks, rfl, isIdentifier, blank, blank'⟩
  rw [List.append_assoc, List.append_assoc, List.cons_append] at same
  rcases isIdentifier.respaced same with ⟨owner', _, rfl, isIdentifier', sameOwner, behind⟩
  rcases Respaced.exists_of_blanks blank (bare_cons dot _) behind with
    ⟨gap', _, rfl, sameGap, blankGap, _, behind'⟩
  rcases Respaced.exists_of_cons dot behind' with ⟨_, rfl, behind''⟩
  rcases Respaced.exists_of_blanks blank' bare behind'' with
    ⟨blanks', rest', rfl, sameBlanks, blankBlanks, _, sameRest⟩
  exact ⟨owner' ++ (gap' ++ '.' :: blanks'), rest', by simp,
    ⟨owner', gap', blanks', rfl, isIdentifier', blankGap, blankBlanks⟩,
    sameOwner.append (sameGap.append (.cons _ sameBlanks)), sameRest⟩

namespace HeaderMatch

structure Resembles (lines : Prop) (parts parts' : HeaderMatch) : Prop where
  words : Respaced lines parts.words parts'.words
  qualifier : Respaced lines parts.qualifier parts'.qualifier
  name : Respaced lines parts.name parts'.name
  gap : Respaced lines parts.gap parts'.gap

variable {parts parts' : HeaderMatch}

theorem Fits.bare_names (fits : parts.Fits) (rest : List Char) :
    Bare (parts.qualifier ++ (parts.name ++ (parts.gap ++ '(' :: rest))) := by
  rcases fits.exists_identifier rest with ⟨identifier, gap, mark, more, isIdentifier, _, _, same⟩
  rw [same]
  exact isIdentifier.bare _

theorem Fits.respaced {rest second : List Char} (fits : parts.Fits)
    (same : Respaced lines (parts.text rest) second) :
    ∃ parts' rest', second = parts'.text rest' ∧ parts'.Fits ∧ parts.Resembles lines parts' ∧
      Respaced lines rest rest' := by
  have words : ∃ words' behind, second = words' ++ behind ∧
      (IsPhrase createPhrase words' ∨ IsPhrase (createPhrase ++ existencePhrase) words') ∧
      Respaced lines parts.words words' ∧
      Respaced lines (parts.qualifier ++ (parts.name ++ (parts.gap ++ '(' :: rest))) behind := by
    rcases fits.words with isPhrase | isPhrase
    · rcases isPhrase.respaced words_createPhrase (fits.bare_names rest) same with
        ⟨words', behind, whole, isPhrase', same⟩
      exact ⟨words', behind, whole, .inl isPhrase', same⟩
    · rcases isPhrase.respaced words_phrase (fits.bare_names rest) same with
        ⟨words', behind, whole, isPhrase', same⟩
      exact ⟨words', behind, whole, .inr isPhrase', same⟩
  rcases words with ⟨words', behind, rfl, phrase, sameWords, names⟩
  have qualifier : ∃ qualifier' name', behind = qualifier' ++ name' ∧
      (qualifier' = [] ∨ IsQualifier qualifier') ∧ Respaced lines parts.qualifier qualifier' ∧
      Respaced lines (parts.name ++ (parts.gap ++ '(' :: rest)) name' := by
    rcases fits.qualifier with none | isQualifier
    · rw [none] at names ⊢
      exact ⟨[], behind, rfl, .inl rfl, .nil, names⟩
    · rcases isQualifier.respaced (fits.name.bare _) names with
        ⟨qualifier', name', whole, isQualifier', same⟩
      exact ⟨qualifier', name', whole, .inr isQualifier', same⟩
  rcases qualifier with ⟨qualifier', _, rfl, qualified, sameQualifier, name⟩
  rcases fits.name.respaced name with ⟨name', _, rfl, isIdentifier, sameName, gap⟩
  have opening : isBlank '(' = false := by decide
  rcases Respaced.exists_of_blanks fits.gap (bare_cons opening rest) gap with
    ⟨gap', _, rfl, sameGap, blank, _, parenthesis⟩
  rcases Respaced.exists_of_cons opening parenthesis with ⟨rest', rfl, sameRest⟩
  exact ⟨⟨words', qualifier', name', gap'⟩, rest', rfl, ⟨phrase, qualified, isIdentifier, blank⟩,
    ⟨sameWords, sameQualifier, sameName, sameGap⟩, sameRest⟩

end HeaderMatch

theorem headerAt?_eq_none_iff {previous previous' : Option Char} {first second : List Char}
    (behind : isWordAt previous = isWordAt previous') (same : Respaced lines first second) :
    headerAt? previous first = none ↔ headerAt? previous' second = none := by
  have further {previous previous' : Option Char} {first second : List Char}
      (behind : isWordAt previous = isWordAt previous') (same : Respaced lines first second)
      (none : headerAt? previous' second = none) : headerAt? previous first = Option.none := by
    rw [Option.eq_none_iff_forall_ne_some]
    intro header found
    rcases headerAt?_eq_some_iff.mp found with ⟨outside, parts, rest, fits, rfl, _⟩
    rcases fits.respaced same with ⟨parts', rest', rfl, fits', _⟩
    have found' := headerAt?_eq_some_iff.mpr ⟨behind ▸ outside, parts', rest', fits', rfl, rfl⟩
    rw [none] at found'
    cases found'
  exact ⟨further behind.symm same.symm, further behind same⟩

/-! ## What follows headers -/

theorem depthAfter?_respaced {first second : List Char} (same : Respaced lines first second)
    (depth : Nat) : depthAfter? depth first = depthAfter? depth second := by
  have blank {blanks : List Char} (blank : AllBlank blanks) (depth : Nat) (rest : List Char) :
      depthAfter? depth (blanks ++ rest) = depthAfter? depth rest := by
    induction blanks with
    | nil => rfl
    | cons character blanks induction =>
        rcases List.forall_mem_cons.mp blank with ⟨here, later⟩
        have other {mark : Char} (visible : isBlank mark = false) : character ≠ mark := by
          rintro rfl
          rw [visible] at here
          cases here
        rw [List.cons_append, depthAfter?_other _ (other (by decide)) (other (by decide)),
          induction later]
  induction same generalizing depth with
  | nil => rfl
  | cons character _ induction => simp only [depthAfter?, induction]
  | part exchanged _ induction =>
      rw [blank exchanged.blank_left, blank exchanged.blank_right, induction]

theorem Balanced.respaced {first second : List Char} (balanced : Balanced first)
    (same : Respaced lines first second) : Balanced second := by
  rwa [Balanced, ← depthAfter?_respaced same]

theorem Closes.respaced {rest rest' : List Char} (closes : Closes rest)
    (same : Respaced lines rest rest') : Closes rest' := by
  rcases closes with ⟨body, tail, rfl, nested⟩
  rcases Respaced.exists_of_visible (by decide) same with ⟨body', tail', rfl, sameBody, _⟩
  exact ⟨body', tail', rfl,
    balanced_iff_wellNested.mp ((balanced_iff_wellNested.mpr nested).respaced sameBody)⟩

theorem exists_ends {body blanks tail second : List Char} (balanced : Balanced body)
    (blank : AllBlank blanks)
    (same : Respaced lines (body ++ ')' :: (blanks ++ ';' :: tail)) second) :
    ∃ body' blanks' tail', second = body' ++ ')' :: (blanks' ++ ';' :: tail') ∧
      Balanced body' ∧ AllBlank blanks' ∧ Respaced lines body body' ∧
      Respaced lines blanks blanks' ∧ Respaced lines tail tail' := by
  have semicolon : isBlank ';' = false := by decide
  rcases Respaced.exists_of_visible (by decide) same with ⟨body', _, rfl, sameBody, behind⟩
  rcases Respaced.exists_of_blanks blank (bare_cons semicolon tail) behind with
    ⟨blanks', _, rfl, sameBlanks, blank', _, behind'⟩
  rcases Respaced.exists_of_cons semicolon behind' with ⟨tail', rfl, sameTail⟩
  exact ⟨body', blanks', tail', rfl, balanced.respaced sameBody, blank', sameBody, sameBlanks,
    sameTail⟩

theorem Ends.respaced {rest rest' : List Char} (ends : Ends rest)
    (same : Respaced lines rest rest') : Ends rest' := by
  rcases ends with ⟨body, blanks, tail, rfl, nested, blank⟩
  rcases exists_ends (balanced_iff_wellNested.mpr nested) blank same with
    ⟨body', blanks', tail', rfl, balanced', blank', _⟩
  exact ⟨body', blanks', tail', rfl, balanced_iff_wellNested.mp balanced', blank'⟩

/-! ## Places -/

def Meet (lines : Prop) (first second : List Char) (place place' : Nat) : Prop :=
  Respaced lines (first.take place) (second.take place')

theorem meet_length {front front' : List Char} (same : Respaced lines front front')
    (rest rest' : List Char) :
    Meet lines (front ++ rest) (front' ++ rest') front.length front'.length := by
  rw [Meet, List.take_left, List.take_left]
  exact same

inductive EndingsMeet (lines : Prop) (first second : List Char) :
    HeaderEnding → HeaderEnding → Prop
  | unbalanced : EndingsMeet lines first second .unbalanced .unbalanced
  | unterminated : EndingsMeet lines first second .unterminated .unterminated
  | complete {closing closing' : Nat} (semicolon semicolon' : Nat)
      (closes : Meet lines first second closing closing') :
      EndingsMeet lines first second (.complete closing semicolon) (.complete closing' semicolon')

structure HeaderPlace.Meets (lines : Prop) (first second : List Char)
    (place place' : HeaderPlace) : Prop where
  start : Meet lines first second place.start place'.start
  nameStart : Meet lines first second place.nameStart place'.nameStart
  name : Respaced lines (slice first place.nameStart place.nameStop)
    (slice second place'.nameStart place'.nameStop)
  opening : Meet lines first second place.opening place'.opening
  ending : EndingsMeet lines first second place.ending place'.ending

namespace HeaderMatch

variable {parts parts' : HeaderMatch}

theorem ending_place (parts : HeaderMatch) (position : Nat) (rest : List Char) :
    (parts.place position rest).ending = endingOf (position + parts.header.opening + 1) rest := by
  rw [place, HeaderPlace.ofHeader, drop_whole]

def opened (parts : HeaderMatch) : List Char :=
  parts.words ++ (parts.qualifier ++ (parts.name ++ parts.gap))

theorem text_eq_opened (parts : HeaderMatch) (rest : List Char) :
    parts.text rest = parts.opened ++ '(' :: rest := by
  simp [text, opened]

theorem length_opened (parts : HeaderMatch) : parts.opened.length = parts.header.opening := by
  simp only [opened, header, List.length_append]
  omega

theorem Resembles.opened (same : parts.Resembles lines parts') :
    Respaced lines parts.opened parts'.opened :=
  same.words.append (same.qualifier.append (same.name.append same.gap))

/-- The search for headers has come as far in both texts: up to the same character. -/
def ReadsAlike (lines : Prop) (parts parts' : HeaderMatch) (front front' rest rest' : List Char) :
    Prop :=
  ∃ read mark tail read' tail', parts.text rest = read ++ mark :: tail ∧
    parts'.text rest' = read' ++ mark :: tail' ∧ Respaced lines read read' ∧
    Respaced lines tail tail' ∧
    (parts.place front.length rest).next = front.length + read.length + 1 ∧
    (parts'.place front'.length rest').next = front'.length + read'.length + 1

theorem Resembles.readsAlike {front front' rest rest' : List Char}
    (same : parts.Resembles lines parts') (rests : Respaced lines rest rest')
    (next : (parts.place front.length rest).next = front.length + parts.header.opening + 1)
    (next' : (parts'.place front'.length rest').next =
      front'.length + parts'.header.opening + 1) :
    ReadsAlike lines parts parts' front front' rest rest' := by
  refine ⟨_, '(', rest, _, rest', text_eq_opened .., text_eq_opened .., same.opened, rests, ?_, ?_⟩
  · rw [next, length_opened]
  · rw [next', length_opened]

theorem Resembles.endsAlike {front front' rest rest' : List Char}
    (same : parts.Resembles lines parts') (fronts : Respaced lines front front')
    (rests : Respaced lines rest rest') (ends : Ends rest) :
    EndingsMeet lines (front ++ parts.text rest) (front' ++ parts'.text rest')
        (parts.place front.length rest).ending (parts'.place front'.length rest').ending ∧
      ReadsAlike lines parts parts' front front' rest rest' := by
  rcases ends with ⟨body, blanks, tail, rfl, nested, blank⟩
  have balanced := balanced_iff_wellNested.mpr nested
  rcases exists_ends balanced blank rests with
    ⟨body', blanks', tail', rfl, balanced', blank', sameBody, sameBlanks, sameTail⟩
  have reads (parts : HeaderMatch) (body blanks tail : List Char) :
      parts.text (body ++ ')' :: (blanks ++ ';' :: tail)) =
        (parts.opened ++ '(' :: (body ++ ')' :: blanks)) ++ ';' :: tail := by
    simp [text_eq_opened]
  have upToBody := same.opened.append (.cons '(' sameBody)
  have upToBlanks := same.opened.append (.cons '(' (sameBody.append (.cons ')' sameBlanks)))
  simp only [ReadsAlike, HeaderPlace.next, ending_place]
  rw [endingOf_eq_ite balanced blank (by decide), endingOf_eq_ite balanced' blank' (by decide),
    if_pos rfl, if_pos rfl]
  refine ⟨.complete _ _ ?_, _, ';', tail, _, tail', reads .., reads .., upToBlanks, sameTail,
    ?_, ?_⟩
  · have length (parts : HeaderMatch) (front body : List Char) :
        front.length + parts.header.opening + 1 + body.length =
          (front ++ (parts.opened ++ '(' :: body)).length := by
      simp only [List.length_append, List.length_cons, length_opened]
      omega
    rw [length, length, reads, reads]
    have meet := meet_length (fronts.append upToBody)
      (')' :: (blanks ++ ';' :: tail)) (')' :: (blanks' ++ ';' :: tail'))
    simpa only [List.append_assoc, List.cons_append] using meet
  · simp only [List.length_append, List.length_cons, length_opened]
    omega
  · simp only [List.length_append, List.length_cons, length_opened]
    omega

theorem Resembles.meets_ending {front front' rest rest' : List Char}
    (same : parts.Resembles lines parts') (fronts : Respaced lines front front')
    (rests : Respaced lines rest rest') :
    EndingsMeet lines (front ++ parts.text rest) (front' ++ parts'.text rest')
        (parts.place front.length rest).ending (parts'.place front'.length rest').ending ∧
      ReadsAlike lines parts parts' front front' rest rest' := by
  by_cases ends : Ends rest
  · exact same.endsAlike fronts rests ends
  have ends' : ¬ Ends rest' := fun ends' => ends (ends'.respaced rests.symm)
  -- The search goes on behind the parenthesis, whichever way the statement is broken.
  have next (parts : HeaderMatch) (front rest : List Char)
      (broken : ∀ closing semicolon, endingOf (front.length + parts.header.opening + 1) rest ≠
        .complete closing semicolon) :
      (parts.place front.length rest).next = front.length + parts.header.opening + 1 := by
    rw [HeaderPlace.next, ending_place]
    split
    · rename_i closing semicolon whole
      exact absurd whole (broken closing semicolon)
    · rfl
  by_cases closes : Closes rest
  · have here := (endingOf_eq_unterminated_iff (front.length + parts.header.opening + 1)).mpr
      ⟨closes, ends⟩
    have there := (endingOf_eq_unterminated_iff (front'.length + parts'.header.opening + 1)).mpr
      ⟨closes.respaced rests, ends'⟩
    rw [ending_place, ending_place, here, there]
    exact ⟨.unterminated, same.readsAlike rests (next _ _ _ (by simp [here]))
      (next _ _ _ (by simp [there]))⟩
  · have closes' : ¬ Closes rest' := fun closes' => closes (closes'.respaced rests.symm)
    have here := (endingOf_eq_unbalanced_iff (front.length + parts.header.opening + 1)).mpr closes
    have there :=
      (endingOf_eq_unbalanced_iff (front'.length + parts'.header.opening + 1)).mpr closes'
    rw [ending_place, ending_place, here, there]
    exact ⟨.unbalanced, same.readsAlike rests (next _ _ _ (by simp [here]))
      (next _ _ _ (by simp [there]))⟩

theorem meets_place {front front' rest rest' : List Char} (same : parts.Resembles lines parts')
    (fronts : Respaced lines front front') (rests : Respaced lines rest rest') :
    (parts.place front.length rest).Meets lines (front ++ parts.text rest)
      (front' ++ parts'.text rest') (parts'.place front'.length rest') := by
  have beforeName := fronts.append (same.words.append same.qualifier)
  have split (parts : HeaderMatch) (front rest : List Char) : front ++ parts.text rest =
      (front ++ (parts.words ++ parts.qualifier)) ++ (parts.name ++ (parts.gap ++ '(' :: rest)) := by
    simp [text]
  have nameStart (parts : HeaderMatch) (front rest : List Char) :
      (parts.place front.length rest).nameStart =
        (front ++ (parts.words ++ parts.qualifier)).length := by
    simp [place, HeaderPlace.ofHeader, header]
  have nameStop (parts : HeaderMatch) (front rest : List Char) :
      (parts.place front.length rest).nameStop =
        (front ++ (parts.words ++ parts.qualifier)).length + parts.name.length := by
    simp only [place, HeaderPlace.ofHeader, header, List.length_append]
    omega
  have opening (parts : HeaderMatch) (front rest : List Char) :
      (parts.place front.length rest).opening = (front ++ parts.opened).length := by
    rw [List.length_append, length_opened]
    rfl
  refine ⟨meet_length fronts _ _, ?_, ?_, ?_, (same.meets_ending fronts rests).1⟩
  · rw [nameStart, nameStart, split, split]
    exact meet_length beforeName _ _
  · rw [slice_eq (split parts front rest) (nameStart ..) (nameStop ..),
      slice_eq (split parts' front' rest') (nameStart ..) (nameStop ..)]
    exact same.name
  · rw [opening, opening, text_eq_opened, text_eq_opened, ← List.append_assoc, ← List.append_assoc]
    exact meet_length (fronts.append same.opened) _ _

end HeaderMatch

theorem headersFrom_of_read {front text read tail : List Char} {mark : Char} {header : Header}
    (found : headerAt? front.getLast? text = some header) (split : text = read ++ mark :: tail)
    (next : (HeaderPlace.ofHeader front.length header text).next =
      front.length + read.length + 1) :
    headersFrom front.getLast? front.length 0 text =
      .ofHeader front.length header text ::
        headersFrom (front ++ (read ++ [mark])).getLast? (front ++ (read ++ [mark])).length 0
          tail := by
  have parts : text = (read ++ [mark]) ++ tail := by simp [split]
  have size : (HeaderPlace.ofHeader front.length header text).next - front.length =
      (read ++ [mark]).length := by
    rw [next, List.length_append, List.length_singleton]
    omega
  have nonempty : text ≠ [] := by simp [split]
  rcases List.exists_cons_of_ne_nil nonempty with ⟨character, rest, rfl⟩
  rw [headersFrom_of_some found, size]
  conv_lhs => rw [parts, List.take_left, List.drop_left, ← parts]
  rw [next, ← List.getLast?_append, List.length_append, List.length_append, List.length_singleton,
    Nat.add_assoc]

/-- The search lists the same headers in both texts. -/
theorem headersFrom_respaced {masked masked' front front' : List Char}
    (same : Respaced lines masked masked') (fronts : Respaced lines front front')
    (behind : isWordAt front.getLast? = isWordAt front'.getLast?) :
    List.Forall₂ (HeaderPlace.Meets lines (front ++ masked) (front' ++ masked'))
      (headersFrom front.getLast? front.length 0 masked)
      (headersFrom front'.getLast? front'.length 0 masked') := by
  -- The search may go on far behind the first character, so the induction is on the length.
  induction size : masked.length using Nat.strongRecOn
    generalizing masked masked' front front' with
  | _ size induction =>
      subst size
      cases same with
      | nil => exact .nil
      | @cons character rest rest' later =>
          have whole : Respaced lines (character :: rest) (character :: rest') := .cons _ later
          cases found : headerAt? front.getLast? (character :: rest) with
          | none =>
              have none' := (headerAt?_eq_none_iff behind whole).mp found
              have next := induction rest.length (by simp) later
                (fronts.append (.refl [character])) (by simp) rfl
              rw [headersFrom_of_none found, headersFrom_of_none none']
              simpa using next
          | some header =>
              rcases headerAt?_eq_some_iff.mp found with ⟨outside, parts, rest₀, fits, text, rfl⟩
              rw [text] at whole found
              rcases fits.respaced whole with ⟨parts', rest₀', text', fits', same, rests⟩
              rcases (same.meets_ending fronts rests).2 with
                ⟨read, mark, tail, read', tail', split, split', reads, tails, next, next'⟩
              have found' : headerAt? front'.getLast? (parts'.text rest₀') = some parts'.header :=
                headerAt?_eq_some_iff.mpr ⟨behind ▸ outside, parts', rest₀', fits', rfl, rfl⟩
              have short : tail.length < (character :: rest).length := by
                rw [text, split, List.length_append, List.length_cons]
                omega
              have listed := induction tail.length short tails
                (fronts.append (reads.append (.refl [mark]))) (by simp) rfl
              rw [text, text', headersFrom_of_read found split next,
                headersFrom_of_read found' split' next']
              refine .cons (HeaderMatch.meets_place same fronts rests) ?_
              rw [split, split']
              simpa only [List.append_assoc, List.singleton_append] using listed
      | @part part part' rest rest' exchanged later =>
          rw [headersFrom_append (dull_of_blank exchanged.blank_left),
            headersFrom_append (dull_of_blank exchanged.blank_right)]
          have nonempty := List.length_pos_iff.mpr exchanged.nonempty_left
          have next := induction rest.length (by rw [List.length_append]; omega) later
            (fronts.append (.single exchanged)) ?_ rfl
          · rwa [List.append_assoc, List.append_assoc, List.getLast?_append, List.getLast?_append,
              List.length_append, List.length_append] at next
          · rw [List.getLast?_append, List.getLast?_append,
              isWordAt_getLast?_or (exchanged.dull).1 exchanged.nonempty_left,
              isWordAt_getLast?_or (exchanged.dull).2 exchanged.nonempty_right]

theorem headers_respaced {masked masked' : List Char} (same : Respaced lines masked masked') :
    List.Forall₂ (HeaderPlace.Meets lines masked masked') (headers masked) (headers masked') :=
  headersFrom_respaced same .nil rfl

end TableSchema.Sql
