import TableSchema.Proofs.SessionMemory
import TableSchema.Proofs.ValidConfigs
import Mathlib.Data.List.Infix

/-! # Names of downloads

An export is offered as a file whose name is made of the name of the schema and stands in a header
between quotes, as it is. Validation keeps backslashes out of the name and nothing else that has a
meaning there. So the header says the name of the file exactly if no quote and no control character
stands in the name of the schema, and it can be sent only if the name is Latin-1.
-/

namespace TableSchema.Web

open Config Data

/-! ## Quoted strings in headers -/

def isControl (character : Char) : Bool :=
  character.toNat < 0x20 || (0x7F ≤ character.toNat && character.toNat < 0xA0)

def isLatin (character : Char) : Bool := character.toNat ≤ 0xFF

/-- What may stand in a quoted string, be it behind a backslash: a tab, or a character of Latin-1
that is no control character of ASCII. -/
def isHeaderText (character : Char) : Bool :=
  character == '\t' ||
    (0x20 ≤ character.toNat && character.toNat != 0x7F && isLatin character)

theorem isHeaderText_iff_isLatin {character : Char} (noControl : isControl character = false) :
    isHeaderText character = true ↔ isLatin character = true := by
  have noTab : character ≠ '\t' := by
    rintro rfl
    cases noControl
  simp only [isControl, Bool.or_eq_false_iff, decide_eq_false_iff_not] at noControl
  have least : 0x20 ≤ character.toNat := by omega
  have other : character.toNat ≠ 0x7F := by
    intro delete
    simp [delete] at noControl
  simp [isHeaderText, noTab, least, other]

def isPlain (character : Char) : Bool :=
  isLatin character && !isControl character && character != '"'

theorem isPlain_iff {character : Char} :
    isPlain character = true ↔
      isLatin character = true ∧ isControl character = false ∧ character ≠ '"' := by
  simp [isPlain, and_assoc]

inductive Quotes : List Char → List Char → Prop
  | nil : Quotes [] []
  | plain {character : Char} {written content : List Char} (allowed : isHeaderText character = true)
      (noQuote : character ≠ '"') (noBackslash : character ≠ '\\') (rest : Quotes written content) :
      Quotes (character :: written) (character :: content)
  | escaped {character : Char} {written content : List Char}
      (allowed : isHeaderText character = true) (rest : Quotes written content) :
      Quotes ('\\' :: character :: written) (character :: content)

def quotedText? : List Char → Option (List Char × List Char)
  | [] => none
  | '"' :: rest => some ([], rest)
  | '\\' :: character :: rest =>
      if isHeaderText character then Sql.inFront [character] (quotedText? rest) else none
  | character :: rest =>
      if isHeaderText character && character != '\\' then
        Sql.inFront [character] (quotedText? rest)
      else none

theorem quotes_of_quotedText? {text content after : List Char}
    (read : quotedText? text = some (content, after)) :
    ∃ written, text = written ++ '"' :: after ∧ Quotes written content := by
  fun_induction quotedText? text generalizing content with
  | case1 => cases read
  | case2 rest =>
      cases read
      exact ⟨[], rfl, .nil⟩
  | case3 character rest allowed induction =>
      obtain ⟨more, later, rfl⟩ := Sql.inFront_eq_some.mp read
      obtain ⟨written, rfl, quotes⟩ := induction later
      exact ⟨'\\' :: character :: written, rfl, .escaped allowed quotes⟩
  | case4 => cases read
  | case5 character rest noQuote _ allowed induction =>
      obtain ⟨more, later, rfl⟩ := Sql.inFront_eq_some.mp read
      obtain ⟨written, rfl, quotes⟩ := induction later
      simp only [Bool.and_eq_true, bne_iff_ne] at allowed
      exact ⟨character :: written, rfl, .plain allowed.1 noQuote allowed.2 quotes⟩
  | case6 => cases read

theorem quotedText?_of_quotes {written content : List Char} (quotes : Quotes written content)
    (after : List Char) : quotedText? (written ++ '"' :: after) = some (content, after) := by
  induction quotes with
  | nil => rfl
  | @plain character written content allowed noQuote noBackslash _ induction =>
      rw [List.cons_append, quotedText?.eq_4, induction]
      · simp [allowed, noBackslash, Sql.inFront]
      · exact noQuote
      · intro next rest same
        exact absurd same noBackslash
  | escaped allowed _ induction =>
      rw [List.cons_append, List.cons_append, quotedText?, if_pos allowed, induction]
      rfl

/-- A quoted string is read exactly as its characters say it. -/
theorem quotedText?_eq_some_iff {text content after : List Char} :
    quotedText? text = some (content, after) ↔
      ∃ written, text = written ++ '"' :: after ∧ Quotes written content := by
  constructor
  · exact quotes_of_quotedText?
  · rintro ⟨written, rfl, quotes⟩
    exact quotedText?_of_quotes quotes after

theorem Quotes.iff_of_noBackslash {written content : List Char} (noBackslash : '\\' ∉ written) :
    Quotes written content ↔
      content = written ∧
        ∀ character ∈ written, isHeaderText character = true ∧ character ≠ '"' := by
  constructor
  · intro quotes
    induction quotes with
    | nil => exact ⟨rfl, by simp⟩
    | plain allowed noQuote _ _ induction =>
        obtain ⟨rfl, all⟩ := induction fun member => noBackslash (List.mem_cons_of_mem _ member)
        exact ⟨rfl, List.forall_mem_cons.mpr ⟨⟨allowed, noQuote⟩, all⟩⟩
    | escaped => exact absurd (List.mem_cons_self ..) noBackslash
  · rintro ⟨rfl, all⟩
    induction content with
    | nil => exact .nil
    | cons character rest induction =>
        obtain ⟨⟨allowed, noQuote⟩, all⟩ := List.forall_mem_cons.mp all
        have other : character ≠ '\\' := fun same => noBackslash (same ▸ List.mem_cons_self ..)
        exact .plain allowed noQuote other
          (induction (fun member => noBackslash (List.mem_cons_of_mem _ member)) all)

/-- A text without backslashes that is put between quotes is read as itself exactly if each of its
characters may stand there, and then nothing follows. -/
theorem quotedText?_quote {text after : List Char} (noBackslash : '\\' ∉ text) :
    quotedText? (text ++ ['"']) = some (text, after) ↔
      after = [] ∧ ∀ character ∈ text, isHeaderText character = true ∧ character ≠ '"' := by
  rw [quotedText?_eq_some_iff]
  constructor
  · rintro ⟨written, same, quotes⟩
    have plain : '\\' ∉ written := by
      intro member
      have inText : '\\' ∈ text ++ ['"'] := same ▸ List.mem_append_left _ member
      simp [noBackslash] at inText
    obtain ⟨rfl, all⟩ := (Quotes.iff_of_noBackslash plain).mp quotes
    have rest := List.append_cancel_left same
    exact ⟨(List.cons.inj rest).2.symm, all⟩
  · rintro ⟨rfl, all⟩
    exact ⟨text, rfl, (Quotes.iff_of_noBackslash noBackslash).mpr ⟨rfl, all⟩⟩

/-! ## Headers of downloads -/

def offeredName? (disposition : String) : Option (String × String) := do
  let quoted ← "attachment; filename=\"".toList.isPrefixOf? disposition.toList
  let (name, after) ← quotedText? quoted
  return (String.ofList name, String.ofList after)

theorem toList_append_append (first second third : String) :
    (first ++ second ++ third).toList = first.toList ++ (second.toList ++ third.toList) := by
  rw [String.toList_append, String.toList_append, List.append_assoc]

theorem toList_dispositionOf (fileName : String) :
    (dispositionOf fileName).toList =
      "attachment; filename=\"".toList ++ (fileName.toList ++ ['"']) := by
  have quote : "\"".toList = ['"'] := by decide +kernel
  exact (toList_append_append ..).trans (congrArg (fun ending => _ ++ (_ ++ ending)) quote)

theorem offeredName?_dispositionOf {fileName : String} (noBackslash : '\\' ∉ fileName.toList)
    (after : String) :
    offeredName? (dispositionOf fileName) = some (fileName, after) ↔
      after = "" ∧
        ∀ character ∈ fileName.toList, isHeaderText character = true ∧ character ≠ '"' := by
  have rest : "attachment; filename=\"".toList.isPrefixOf? (dispositionOf fileName).toList =
      some (fileName.toList ++ ['"']) :=
    List.isPrefixOf?_eq_some_iff_append_eq.mpr (toList_dispositionOf fileName).symm
  have read : offeredName? (dispositionOf fileName) = some (fileName, after) ↔
      quotedText? (fileName.toList ++ ['"']) = some (fileName.toList, after.toList) := by
    rw [offeredName?, rest, Option.bind_eq_bind, Option.bind_some]
    cases quotedText? (fileName.toList ++ ['"']) with
    | none => simp
    | some parts => simp [Prod.ext_iff, ← String.toList_inj]
  rw [read, quotedText?_quote noBackslash, String.toList_eq_nil_iff]

theorem opening_isPlain : ∀ character ∈ "attachment; filename=\"".toList,
    isLatin character = true ∧ isControl character = false := by
  have all : "attachment; filename=\"".toList.all
      (fun character => isLatin character && !isControl character) = true := by decide +kernel
  simpa only [List.all_eq_true, Bool.and_eq_true, Bool.not_eq_true'] using all

theorem forall_mem_dispositionOf {property : Char → Prop}
    (opening : ∀ character ∈ "attachment; filename=\"".toList, property character)
    (quote : property '"') (fileName : String) :
    (∀ character ∈ (dispositionOf fileName).toList, property character) ↔
      ∀ character ∈ fileName.toList, property character := by
  rw [toList_dispositionOf, List.forall_mem_append, List.forall_mem_append,
    List.forall_mem_singleton]
  exact ⟨fun all => all.2.1, fun all => ⟨opening, all, quote⟩⟩

theorem firstUnwritable?_eq_none_iff {text : List Char} :
    firstUnwritable? text = none ↔ ∀ character ∈ text, isLatin character = true := by
  have missing : text.findIdx? (fun character => 0xFF < character.toNat) = none ↔
      ∀ character ∈ text, isLatin character = true := by
    simp [isLatin]
  rw [← missing, firstUnwritable?]
  cases text.findIdx? (fun character => 0xFF < character.toNat) with
  | none => simp
  | some place => simp

/-! ## Names of files -/

section

variable {raw : String} {format : ExportFormat}

theorem exportFileName_eq_append (named : ExportFormat.ofName? (lowerCase raw) = some format)
    (name : String) : exportFileName name raw = name ++ exportFileName "" format.name := by
  have sameName : format.name = lowerCase raw := by simpa using List.find?_some named
  have sameCase : lowerCase format.name = lowerCase raw := by
    rw [sameName, lowerCase_lowerCase]
  simp only [exportFileName, sameCase, String.append_assoc]
  rfl

theorem ending_isPlain (format : ExportFormat) :
    ∀ character ∈ (exportFileName "" format.name).toList,
      isPlain character = true ∧ character ≠ '\\' := by
  have all : (exportFileName "" format.name).toList.all
      (fun character => isPlain character && character != '\\') = true := by
    cases format <;> decide +kernel
  simpa only [List.all_eq_true, Bool.and_eq_true, bne_iff_ne] using all

/-- What holds of the ending holds of the name of a file exactly if it holds of the name of the
schema. -/
theorem forall_mem_exportFileName {property : Char → Prop}
    (named : ExportFormat.ofName? (lowerCase raw) = some format)
    (ending : ∀ character, isPlain character = true → character ≠ '\\' → property character)
    (name : String) :
    (∀ character ∈ (exportFileName name raw).toList, property character) ↔
      ∀ character ∈ name.toList, property character := by
  rw [exportFileName_eq_append named, String.toList_append, List.forall_mem_append]
  apply and_iff_left
  intro character member
  obtain ⟨plain, noBackslash⟩ := ending_isPlain format character member
  exact ending character plain noBackslash

theorem backslash_not_mem_exportFileName {given : Value} {name : String}
    (valid : validName given = .ok name)
    (named : ExportFormat.ofName? (lowerCase raw) = some format) :
    '\\' ∉ (exportFileName name raw).toList := by
  have inName : ∀ character ∈ name.toList, character ≠ '\\' := by
    intro character member same
    exact (isSchemaName_of_validName valid).backslash (same ▸ member)
  have all := (forall_mem_exportFileName named (fun _ _ other => other) name).mpr inName
  exact fun member => all _ member rfl

theorem noControl_dispositionOf_iff (named : ExportFormat.ofName? (lowerCase raw) = some format)
    (name : String) :
    (∀ character ∈ (dispositionOf (exportFileName name raw)).toList,
        isControl character = false) ↔
      ∀ character ∈ name.toList, isControl character = false := by
  rw [forall_mem_dispositionOf (fun character member => (opening_isPlain character member).2) rfl]
  exact forall_mem_exportFileName named (fun _ plain _ => (isPlain_iff.mp plain).2.1) name

theorem isLatin_dispositionOf_iff (named : ExportFormat.ofName? (lowerCase raw) = some format)
    (name : String) :
    (∀ character ∈ (dispositionOf (exportFileName name raw)).toList, isLatin character = true) ↔
      ∀ character ∈ name.toList, isLatin character = true := by
  rw [forall_mem_dispositionOf (fun character member => (opening_isPlain character member).1) rfl]
  exact forall_mem_exportFileName named (fun _ plain _ => (isPlain_iff.mp plain).1) name

/-- The name of a file is read in its header exactly if the name of the schema can stand between
quotes. -/
theorem offeredName?_exportFileName {given : Value} {name : String}
    (valid : validName given = .ok name)
    (named : ExportFormat.ofName? (lowerCase raw) = some format) (after : String) :
    offeredName? (dispositionOf (exportFileName name raw)) =
        some (exportFileName name raw, after) ↔
      after = "" ∧
        ∀ character ∈ name.toList, isHeaderText character = true ∧ character ≠ '"' := by
  rw [offeredName?_dispositionOf (backslash_not_mem_exportFileName valid named),
    forall_mem_exportFileName named]
  intro character plain _
  obtain ⟨isLatin, noControl, noQuote⟩ := isPlain_iff.mp plain
  exact ⟨(isHeaderText_iff_isLatin noControl).mpr isLatin, noQuote⟩

end

theorem disposition_exportResponse {translator : Translator} {target : Target}
    {settings : Settings} {document : Document} {raw text : String}
    (asked : (target.parameter? "format").getD "sql" = raw)
    (exported : document.exportAs raw (target.parameter? "dialect") translator = .ok text) :
    (exportResponse translator target settings document).disposition =
      if (dispositionOf (exportFileName settings.schemaName raw)).toList.all isLatin
      then some (dispositionOf (exportFileName settings.schemaName raw)) else none := by
  have sameFile : exportFileName settings.schemaName (lowerCase raw) =
      exportFileName settings.schemaName raw := by
    rw [exportFileName, exportFileName, lowerCase_lowerCase]
  unfold exportResponse
  dsimp only
  rw [asked, document.exportAs_lowerCase, exported, sameFile]
  dsimp only
  cases unwritable : firstUnwritable? (dispositionOf
      (exportFileName settings.schemaName raw)).toList with
  | none =>
      have latin := List.all_eq_true.mpr (firstUnwritable?_eq_none_iff.mp unwritable)
      exact (if_pos latin).symm
  | some found =>
      have other : ¬ (dispositionOf (exportFileName settings.schemaName raw)).toList.all isLatin =
          true := by
        rw [List.all_eq_true, ← firstUnwritable?_eq_none_iff, unwritable]
        exact Option.some_ne_none found
      exact (if_neg other).symm

/-! ## What headers say -/

/-- A header offers a file: it holds no control character, and what it says in quotes is the name
of the file, with nothing behind. -/
structure OffersFile (disposition fileName : String) : Prop where
  noControl : ∀ character ∈ disposition.toList, isControl character = false
  offered : offeredName? disposition = some (fileName, "")

theorem offersFile_iff {given : Value} {name raw : String} {format : ExportFormat}
    (valid : validName given = .ok name)
    (named : ExportFormat.ofName? (lowerCase raw) = some format) :
    OffersFile (dispositionOf (exportFileName name raw)) (exportFileName name raw) ↔
      ∀ character ∈ name.toList, isPlain character = true := by
  have control := noControl_dispositionOf_iff named name
  have read := offeredName?_exportFileName valid named ""
  constructor
  · intro offers character member
    have noControl := control.mp offers.noControl character member
    obtain ⟨allowed, noQuote⟩ := (read.mp offers.offered).2 character member
    exact isPlain_iff.mpr ⟨(isHeaderText_iff_isLatin noControl).mp allowed, noControl, noQuote⟩
  · intro plain
    constructor
    · exact control.mpr fun character member => (isPlain_iff.mp (plain character member)).2.1
    · apply read.mpr
      refine ⟨rfl, fun character member => ?_⟩
      obtain ⟨isLatin, noControl, noQuote⟩ := isPlain_iff.mp (plain character member)
      exact ⟨(isHeaderText_iff_isLatin noControl).mpr isLatin, noQuote⟩

/-- For every name that validation accepts, and every format in any case: the header offers the
file exactly if the name is Latin-1 without quotes and control characters. Control characters get
into the header as they are, a quote ends the name of the file, and if the name goes beyond Latin-1
there is no header. -/
theorem download_is_offered_iff {given : Value} {name raw : String} {format : ExportFormat}
    (valid : validName given = .ok name)
    (named : ExportFormat.ofName? (lowerCase raw) = some format) :
    (OffersFile (dispositionOf (exportFileName name raw)) (exportFileName name raw) ↔
      ∀ character ∈ name.toList, isPlain character = true) ∧
    ((∀ character ∈ (dispositionOf (exportFileName name raw)).toList,
        isControl character = false) ↔
      ∀ character ∈ name.toList, isControl character = false) ∧
    (∀ after, offeredName? (dispositionOf (exportFileName name raw)) =
        some (exportFileName name raw, after) ↔
      after = "" ∧ ∀ character ∈ name.toList, isHeaderText character = true ∧ character ≠ '"') ∧
    ∀ {translator : Translator} {target : Target} {settings : Settings} {document : Document}
        {text : String},
      settings.schemaName = name → (target.parameter? "format").getD "sql" = raw →
      document.exportAs raw (target.parameter? "dialect") translator = .ok text →
      (exportResponse translator target settings document).disposition =
        if name.toList.all isLatin then some (dispositionOf (exportFileName name raw))
        else none := by
  refine ⟨offersFile_iff valid named, noControl_dispositionOf_iff named name,
    offeredName?_exportFileName valid named, ?_⟩
  intro translator target settings document text sameName asked exported
  subst sameName
  have sameTest : (dispositionOf (exportFileName settings.schemaName raw)).toList.all isLatin =
      settings.schemaName.toList.all isLatin := by
    rw [Bool.eq_iff_iff, List.all_eq_true, List.all_eq_true]
    exact isLatin_dispositionOf_iff named settings.schemaName
  rw [disposition_exportResponse asked exported, sameTest]

/-- A name with an accented letter, an apostrophe and blanks in it, and a format in upper case. -/
theorem download_of_accented_name :
    validName (.text " report;é 'x' ") = .ok "report;é 'x'" ∧
    ExportFormat.ofName? (lowerCase "CSV") = some .csv ∧
    OffersFile (dispositionOf (exportFileName "report;é 'x'" "CSV"))
      (exportFileName "report;é 'x'" "CSV") ∧
    (exportResponse Dialect.translator (.ofString "/api/schema/export?format=CSV")
        { schemaName := "report;é 'x'" } {}).disposition =
      some (dispositionOf (exportFileName "report;é 'x'" "CSV")) := by
  have valid : validName (.text " report;é 'x' ") = .ok "report;é 'x'" := by decide +kernel
  have named : ExportFormat.ofName? (lowerCase "CSV") = some .csv := by decide +kernel
  have asked : ((Target.ofString "/api/schema/export?format=CSV").parameter? "format").getD "sql" =
      "CSV" := by decide +kernel
  have plain : "report;é 'x'".toList.all isPlain = true := by decide +kernel
  have latin : "report;é 'x'".toList.all isLatin = true := by decide +kernel
  have offered := download_is_offered_iff valid named
  refine ⟨valid, named, offered.1.mpr (List.all_eq_true.mp plain), ?_⟩
  exact (offered.2.2.2 rfl asked rfl).trans (if_pos latin)

/-- A quote in a name ends the name of the file, and a line end in it is one in the header. -/
theorem quote_ends_offered_name :
    validName (.text "a\"b") = .ok "a\"b" ∧
    offeredName? (dispositionOf (exportFileName "a\"b" "csv")) =
      some ("a", "b-database-schema.csv\"") ∧
    ¬ OffersFile (dispositionOf (exportFileName "a\"b" "csv")) (exportFileName "a\"b" "csv") ∧
    validName (.text "a\nb") = .ok "a\nb" ∧
    '\n' ∈ (dispositionOf (exportFileName "a\nb" "csv")).toList := by
  have read : offeredName? (dispositionOf (exportFileName "a\"b" "csv")) =
      some ("a", "b-database-schema.csv\"") := by decide +kernel
  have other : exportFileName "a\"b" "csv" ≠ "a" := by decide +kernel
  refine ⟨by decide +kernel, read, ?_, by decide +kernel, by decide +kernel⟩
  intro offers
  have same := Option.some.inj (offers.offered.symm.trans read)
  exact other (congrArg Prod.fst same)

end TableSchema.Web
