import TableSchema.Ddl
import TableSchema.Parsing
import TableSchema.Proofs.Bodies
import TableSchema.Proofs.CommentFree
import TableSchema.Proofs.Quoting

/-! # Reading generated scripts

A generated script is read back as long as every name in it is readable and every column is
enclosed: no literal, parenthesis or comma of a column reaches out of it.
-/

namespace TableSchema.Sql

open Text

/-! ## Headers -/

theorem bare_mask_quote {name : List Char} (readable : Readable name) (rest : List Char) :
    Bare (mask (quote name) ++ ' ' :: rest) := by
  rcases readable.mask_cases with ⟨plain, same⟩ | ⟨inside, same, _⟩
  · rw [same]
    cases name with
    | nil => cases plain
    | cons first name =>
        simp only [isPlainName, isNameStart, Bool.and_eq_true] at plain
        exact bare_cons (isBlank_eq_false_of_isWord plain.1.1) _
  · rw [same]
    exact bare_cons (by decide) _

def createWords : List Char := "CREATE TABLE".toList

theorem afterPhrase?_create {rest : List Char} (bare : Bare rest) :
    (afterPhrase? ["create".toList, "table".toList] (createWords ++ ' ' :: rest) >>=
      afterBlanks?) = some rest := by
  have table : afterPhrase? ["table".toList] ("TABLE ".toList ++ rest) = some (' ' :: rest) :=
    afterKeyword?_eq_some.mpr ⟨"TABLE".toList, rfl, by decide⟩
  have created : afterPhrase? ["create".toList, "table".toList] (createWords ++ ' ' :: rest) =
      some (' ' :: rest) :=
    afterPhrase?_eq_some.mpr ⟨"CREATE".toList, [' '], "TABLE ".toList ++ rest, rfl, by decide,
      by simp, blank_allBlank, bare_cons (by decide) _, table⟩
  rw [created]
  exact afterBlanks?_eq_some.mpr ⟨[' '], rfl, by simp, blank_allBlank, bare⟩

theorem afterPhrase?_existence {name : List Char} (readable : Readable name) (rest : List Char) :
    afterPhrase? ["if".toList, "not".toList, "exists".toList]
      (mask (quote name) ++ ' ' :: '(' :: rest) = none := by
  have lower : ∀ letter ∈ "if".toList, letter.isLower = true :=
    List.all_iff_forall_prop.mp (by decide)
  rcases readable.mask_cases with ⟨plain, same⟩ | ⟨inside, same, _⟩
  · rw [same]
    change afterPhrase? _ (name ++ ([' '] ++ '(' :: rest)) = none
    have different : ∀ letter ∈ "not".toList.head?, fold '(' ≠ letter := by
      rintro _ ⟨⟩
      decide
    exact afterPhrase?_eq_none lower different (by decide)
      (fun letter => visible_of_isPlainName plain) blank_allBlank (by simp) (by decide)
  · rw [same, Option.eq_none_iff_forall_ne_some]
    intro after found
    rcases exists_word_of_afterPhrase? found with ⟨word, more, whole, read⟩
    cases word with
    | nil => cases read
    | cons letter word =>
        cases (List.cons.inj whole).1
        cases (List.cons.inj read).1

theorem afterQualifier?_eq_none {name : List Char} (readable : Readable name) (rest : List Char) :
    afterQualifier? (mask (quote name) ++ ' ' :: '(' :: rest) = none := by
  have next : trimLeft (' ' :: '(' :: rest) = '(' :: rest :=
    trimLeft_blanks blank_allBlank (bare_cons (by decide) rest)
  rw [afterQualifier?, readable.afterIdentifier? ('(' :: rest)]
  change (trimLeft <$> afterChar? '.' (trimLeft (' ' :: '(' :: rest))) = none
  rw [next]
  rfl

/-- A generated header is found, and its parts are those that were written. -/
theorem headerAt?_create {previous : Option Char} (outside : isWordAt previous = false)
    {name : List Char} (readable : Readable name) (rest : List Char) :
    headerAt? previous (createWords ++ ' ' :: (mask (quote name) ++ ' ' :: '(' :: rest)) =
      some ⟨13, 13 + (quote name).length, 14 + (quote name).length⟩ := by
  have created := afterPhrase?_create (bare_mask_quote readable ('(' :: rest))
  have next : trimLeft (' ' :: '(' :: rest) = '(' :: rest :=
    trimLeft_blanks blank_allBlank (bare_cons (by decide) rest)
  have existence : (afterPhrase? ["if".toList, "not".toList, "exists".toList]
      (mask (quote name) ++ ' ' :: '(' :: rest) >>= afterBlanks?) = none := by
    rw [afterPhrase?_existence readable]
    rfl
  rw [headerAt?, outside]
  simp only [Bool.false_eq_true, if_false]
  rw [created]
  simp only [Option.bind_eq_bind, Option.bind_some]
  simp only [Option.bind_eq_bind] at existence
  rw [existence, Option.getD_none, afterQualifier?_eq_none readable, Option.getD_none,
    readable.afterIdentifier? ('(' :: rest), Option.bind_some, next]
  simp only [afterChar?, if_true, Option.bind_some, Option.some.injEq, Header.mk.injEq,
    List.length_append, List.length_cons, length_mask]
  have length : createWords.length = 12 := rfl
  omega

/-! ## Columns -/

/-- Nothing of the column reaches out of it: its literals are closed in it, and so are its
parentheses, and no comma stands outside them. -/
structure Enclosed (column : List Char) : Prop where
  literals : ∀ region ∈ scan column, region.kind.isLiteral = true ∧ region.stop < column.length
  balanced : Balanced (mask column)
  uncut : cuts column = []

instance (column : List Char) : Decidable (Enclosed column) :=
  decidable_of_iff
    ((∀ region ∈ scan column, region.kind.isLiteral = true ∧ region.stop < column.length) ∧
      Balanced (mask column) ∧ cuts column = [])
    ⟨fun ⟨literals, balanced, uncut⟩ => ⟨literals, balanced, uncut⟩,
      fun enclosed => ⟨enclosed.literals, enclosed.balanced, enclosed.uncut⟩⟩

def indented (column : List Char) : List Char := ' ' :: ' ' :: column

namespace Enclosed

variable {column : List Char}

theorem selfContained (enclosed : Enclosed column) : SelfContained column :=
  .of_scan enclosed.literals

theorem selfContained_indented (enclosed : Enclosed column) : SelfContained (indented column) := by
  apply SelfContained.cons (by decide)
  apply SelfContained.cons (by decide)
  exact enclosed.selfContained

theorem mask_indented (column : List Char) : mask (indented column) = indented (mask column) := by
  rw [indented, SelfContained.mask_cons (by decide), SelfContained.mask_cons (by decide)]
  rfl

theorem balanced_indented (enclosed : Enclosed column) : Balanced (indented (mask column)) := by
  have blanks : Balanced [' ', ' '] := .of_not_mem (by decide) (by decide)
  exact blanks.append enclosed.balanced

end Enclosed

/-! ## Bodies -/

structure Block where
  name : List Char
  columns : List (List Char)

namespace Block

def lines (block : Block) : List (List Char) := block.columns.map indented

def body (block : Block) : List Char := '\n' :: joinColumns block.lines

def text (block : Block) : List Char := createStatement (quote block.name) block.lines

structure Sound (block : Block) : Prop where
  readable : Readable block.name
  enclosed : ∀ column ∈ block.columns, Enclosed column

instance (block : Block) : Decidable block.Sound :=
  decidable_of_iff (Readable block.name ∧ ∀ column ∈ block.columns, Enclosed column)
    ⟨fun ⟨readable, enclosed⟩ => ⟨readable, enclosed⟩,
      fun sound => ⟨sound.readable, sound.enclosed⟩⟩

theorem text_eq (block : Block) : block.text = createWords ++ ' ' ::
    (quote block.name ++ ' ' :: '(' :: (block.body ++ ')' :: [';'])) := by
  change createWords ++ [' '] ++ quote block.name ++ [' ', '(', '\n'] ++ joinColumns block.lines ++
    [')', ';'] = _
  simp [body]

end Block

theorem selfContained_joinColumns {columns : List (List Char)}
    (enclosed : ∀ column ∈ columns, Enclosed column) :
    SelfContained (joinColumns (columns.map indented)) ∧
      mask (joinColumns (columns.map indented)) = joinColumns (columns.map (indented ∘ mask)) ∧
      Balanced (joinColumns (columns.map (indented ∘ mask))) := by
  induction columns with
  | nil => exact ⟨SelfContained.nil, rfl, rfl⟩
  | cons column columns induction =>
      have here := enclosed column (List.mem_cons_self ..)
      have contained := here.selfContained_indented
      cases columns with
      | nil =>
          refine ⟨contained.append (by decide) .nil, ?_, ?_⟩
          · change mask (indented column ++ '\n' :: []) = indented (mask column) ++ ['\n']
            rw [contained.mask_append (by decide), Enclosed.mask_indented]
            rfl
          · exact here.balanced_indented.append (.of_not_mem (by decide) (by decide))
      | cons next columns =>
          rcases induction fun other member => enclosed other (List.mem_cons_of_mem _ member) with
            ⟨rest, masked, balanced⟩
          refine ⟨contained.append (by decide) (rest.cons (by decide)), ?_, ?_⟩
          · change mask (indented column ++ ',' :: '\n' :: joinColumns _) = _
            rw [contained.mask_append (by decide), SelfContained.mask_cons (by decide), masked,
              Enclosed.mask_indented]
            rfl
          · have separator : Balanced [',', '\n'] := .of_not_mem (by decide) (by decide)
            exact here.balanced_indented.append (separator.append balanced)

namespace Block.Sound

variable {block : Block}

theorem selfContained_body (sound : block.Sound) : SelfContained block.body :=
  (selfContained_joinColumns sound.enclosed).1.cons (by decide)

theorem balanced_body (sound : block.Sound) : Balanced (mask block.body) := by
  rw [Block.body, SelfContained.mask_cons (by decide), Block.lines,
    (selfContained_joinColumns sound.enclosed).2.1]
  have lineFeed : Balanced ['\n'] := .of_not_mem (by decide) (by decide)
  exact lineFeed.append (selfContained_joinColumns sound.enclosed).2.2

theorem free_create : ∀ character ∈ createWords, character ∉ openers :=
  List.all_iff_forall_prop.mp (by decide)

theorem selfContained_text (sound : block.Sound) : SelfContained block.text := by
  rw [Block.text_eq]
  apply (SelfContained.of_free free_create).append (by decide)
  apply sound.readable.selfContained.append (by decide)
  apply SelfContained.cons (by decide)
  apply sound.selfContained_body.append (by decide)
  exact SelfContained.nil.cons (by decide)

theorem mask_text (sound : block.Sound) : mask block.text = createWords ++ ' ' ::
    (mask (quote block.name) ++ ' ' :: '(' :: (mask block.body ++ ')' :: [';'])) := by
  rw [Block.text_eq, (SelfContained.of_free free_create).mask_append (by decide),
    sound.readable.selfContained.mask_append (by decide), SelfContained.mask_cons (by decide),
    sound.selfContained_body.mask_append (by decide), SelfContained.mask_cons (by decide),
    SelfContained.mask_of_free free_create]
  rfl

end Block.Sound

/-! ## Statements -/

def paragraphs (blocks : List Block) : List Char :=
  blocks.flatMap fun block => block.text ++ '\n' :: ['\n']

theorem paragraphs_cons (block : Block) (blocks : List Block) :
    paragraphs (block :: blocks) = block.text ++ '\n' :: '\n' :: paragraphs blocks := by
  simp [paragraphs]

namespace Block

def place (position : Nat) (block : Block) : HeaderPlace where
  start := position
  nameStart := position + 13
  nameStop := position + 13 + (quote block.name).length
  opening := position + 14 + (quote block.name).length
  ending := .complete (position + 15 + (quote block.name).length + block.body.length)
    (position + 16 + (quote block.name).length + block.body.length)

theorem length_text (block : Block) :
    block.text.length = 17 + (quote block.name).length + block.body.length := by
  have length : createWords.length = 12 := rfl
  rw [text_eq]
  simp only [List.length_append, List.length_cons, List.length_nil]
  omega

def Describes (block : Block) (statement : Statement) : Prop :=
  statement.name = String.ofList block.name ∧ statement.body = String.ofList block.body

theorem exists_finding (block : Block) (before after : List Char) :
    ∃ statement, (block.place before.length).finding (before ++ (block.text ++ after)) =
      .statement statement ∧ block.Describes statement := by
  have length : createWords.length = 12 := rfl
  have named : before ++ (block.text ++ after) = (before ++ (createWords ++ [' '])) ++
      (quote block.name ++ (' ' :: '(' :: (block.body ++ ')' :: ';' :: after))) := by
    rw [text_eq]
    simp
  have bodied : before ++ (block.text ++ after) =
      (before ++ (createWords ++ ' ' :: (quote block.name ++ [' ', '(']))) ++
        (block.body ++ (')' :: ';' :: after)) := by
    rw [text_eq]
    simp
  refine ⟨_, rfl, ?_, ?_⟩
  · have name : slice (before ++ (block.text ++ after)) (before.length + 13)
        (before.length + 13 + (quote block.name).length) = quote block.name := by
      apply slice_eq named
      · simp [length]
      · simp [length]
    simp only [place, HeaderPlace.name, name, unquote_quote]
  · have body : slice (before ++ (block.text ++ after))
        (before.length + 14 + (quote block.name).length + 1)
        (before.length + 15 + (quote block.name).length + block.body.length) = block.body := by
      apply slice_eq bodied
      · simp only [List.length_append, List.length_cons, List.length_nil]
        omega
      · simp only [List.length_append, List.length_cons, List.length_nil]
        omega
    simp only [place, body]

theorem Sound.ofHeader_eq {block : Block} (sound : block.Sound) (position : Nat)
    (rest : List Char) :
    HeaderPlace.ofHeader position
        ⟨13, 13 + (quote block.name).length, 14 + (quote block.name).length⟩
        (mask block.text ++ rest) = block.place position := by
  have length : createWords.length = 12 := rfl
  have whole : mask block.text ++ rest =
      (createWords ++ ' ' :: (mask (quote block.name) ++ [' ', '('])) ++
        (mask block.body ++ ')' :: ';' :: rest) := by
    rw [sound.mask_text]
    simp
  have front : (createWords ++ ' ' :: (mask (quote block.name) ++ [' ', '('])).length =
      14 + (quote block.name).length + 1 := by
    simp only [List.length_append, List.length_cons, List.length_nil, length_mask]
    omega
  have body : (mask block.text ++ rest).drop (14 + (quote block.name).length + 1) =
      mask block.body ++ ')' :: ';' :: rest := by
    rw [whole, List.drop_left' front]
  simp only [HeaderPlace.ofHeader, place, body, endingOf_eq_complete sound.balanced_body,
    length_mask, HeaderPlace.mk.injEq, HeaderEnding.complete.injEq, true_and]
  omega

theorem Sound.headersFrom_eq {block : Block} (sound : block.Sound) {previous : Option Char}
    (outside : isWordAt previous = false) (position : Nat) (rest : List Char) :
    headersFrom previous position 0 (mask block.text ++ '\n' :: '\n' :: rest) =
      block.place position ::
        headersFrom (some '\n') (position + block.text.length + 2) 0 rest := by
  have found : headerAt? previous (mask block.text ++ '\n' :: '\n' :: rest) =
      some ⟨13, 13 + (quote block.name).length, 14 + (quote block.name).length⟩ := by
    have created := headerAt?_create outside sound.readable
      (mask block.body ++ ')' :: ';' :: '\n' :: '\n' :: rest)
    rw [sound.mask_text]
    simpa using created
  have next : (block.place position).next = position + block.text.length := by
    rw [length_text]
    simp only [HeaderPlace.next, place]
    omega
  have nonempty : mask block.text ++ '\n' :: '\n' :: rest ≠ [] := by simp
  rcases List.exists_cons_of_ne_nil nonempty with ⟨first, others, whole⟩
  have place := sound.ofHeader_eq position ('\n' :: '\n' :: rest)
  rw [whole] at found place
  have later := headersFrom_of_some found position
  simp only [place, next, Nat.add_sub_cancel_left] at later
  rw [← whole] at later
  have length : (mask block.text).length = block.text.length := length_mask _
  have lineFeed (previous : Option Char) (rest : List Char) :
      headerAt? previous ('\n' :: rest) = none :=
    headerAt?_eq_none (by decide) rest
  rw [List.drop_left' length, headersFrom_of_none (lineFeed _ _),
    headersFrom_of_none (lineFeed _ _)] at later
  exact later

end Block

/-- Every statement that was generated is found. -/
theorem findings_paragraphs {blocks : List Block} (sound : ∀ block ∈ blocks, block.Sound)
    {previous : Option Char} (outside : isWordAt previous = false) (before : List Char) :
    ∃ statements, List.Forall₂ Block.Describes blocks statements ∧
      (headersFrom previous before.length 0 (mask (paragraphs blocks))).map
          (·.finding (before ++ paragraphs blocks)) = statements.map Finding.statement := by
  induction blocks generalizing previous before with
  | nil => exact ⟨[], .nil, rfl⟩
  | cons block blocks induction =>
      have here := sound block (List.mem_cons_self ..)
      rcases block.exists_finding before ('\n' :: '\n' :: paragraphs blocks) with
        ⟨statement, found, describes⟩
      have later : (before ++ block.text ++ ['\n', '\n']).length =
          before.length + block.text.length + 2 := by simp [Nat.add_assoc]
      have whole : before ++ block.text ++ ['\n', '\n'] ++ paragraphs blocks =
          before ++ (block.text ++ '\n' :: '\n' :: paragraphs blocks) := by simp
      have lineFeed : isWordAt (some '\n') = false := by decide
      rcases induction (fun other member => sound other (List.mem_cons_of_mem _ member)) lineFeed
        (before ++ block.text ++ ['\n', '\n']) with ⟨statements, describe, found'⟩
      rw [later, whole] at found'
      refine ⟨statement :: statements, .cons describes describe, ?_⟩
      rw [paragraphs_cons, here.selfContained_text.mask_append (by decide),
        SelfContained.mask_cons (by decide), here.headersFrom_eq outside, List.map_cons,
        List.map_cons, found, found']

end TableSchema.Sql
