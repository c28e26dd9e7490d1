import TableSchema.Proofs.Regions

/-! # Where regions are closed

A block comment is closed where its nesting comes back to nothing, a quoted text at a quote that is
not doubled, a dollar string at its tag. The readers find exactly these ends.
-/

namespace TableSchema.Sql

open Text

/-! ## Block comments -/

/-- How many block comments a text opens, read from left to right, less how many it closes. -/
def nesting : List Char → Int
  | [] => 0
  | '/' :: '*' :: rest => nesting rest + 1
  | '*' :: '/' :: rest => nesting rest - 1
  | _ :: rest => nesting rest

/-- The star that opens a comment does not close it too. -/
example : nesting "/*/".toList = 1 ∧ nesting "/*/*/**/".toList = 2 := by decide

theorem nesting_singleton (character : Char) : nesting [character] = 0 := by
  rw [nesting.eq_4] <;> simp [nesting]

/-- The nesting of a text comes to the given count at its end, and not before. -/
def FirstNests (count : Int) (text : List Char) : Prop :=
  nesting text = count ∧ ∀ shorter, shorter <+: text → shorter ≠ text → nesting shorter ≠ count

namespace FirstNests

variable {count : Int} {text : List Char}

theorem zero_iff : FirstNests 0 text ↔ text = [] := by
  constructor
  · intro first
    cases text with
    | nil => rfl
    | cons character rest => exact absurd rfl (first.2 [] List.nil_prefix (by simp))
  · rintro rfl
    exact ⟨rfl, fun shorter isPrefix other => absurd (List.prefix_nil.mp isPrefix) other⟩

theorem pair_iff {first second : Char} {change : Int}
    (changes : ∀ rest, nesting (first :: second :: rest) = nesting rest + change)
    (later : count ≠ 0) :
    FirstNests count (first :: second :: text) ↔ FirstNests (count - change) text := by
  constructor
  · rintro ⟨reaches, before⟩
    refine ⟨by rw [← reaches, changes]; omega, fun shorter isPrefix other reached => ?_⟩
    refine before (first :: second :: shorter) ?_ (by simpa using other) ?_
    · simpa using isPrefix
    · rw [changes, reached]
      omega
  · rintro ⟨reaches, before⟩
    refine ⟨by rw [changes, reaches]; omega, fun shorter isPrefix other reached => ?_⟩
    -- A prefix that ends within the pair counts nothing, so it does not reach the count.
    match shorter with
    | [] => exact later reached.symm
    | [character] => exact later (reached.symm.trans (nesting_singleton character))
    | character :: next :: shorter =>
        rw [List.cons_prefix_cons, List.cons_prefix_cons] at isPrefix
        rcases isPrefix with ⟨rfl, rfl, isPrefix⟩
        rw [changes] at reached
        exact before shorter isPrefix (fun same => other (by rw [same])) (by omega)

theorem cons_iff {character : Char}
    (opens : ∀ more, character = '/' → text ≠ '*' :: more)
    (closes : ∀ more, character = '*' → text ≠ '/' :: more) (later : count ≠ 0) :
    FirstNests count (character :: text) ↔ FirstNests count text := by
  have same {shorter : List Char} (isPrefix : shorter <+: text) :
      nesting (character :: shorter) = nesting shorter := by
    rcases isPrefix with ⟨rest, rfl⟩
    apply nesting.eq_4
    · rintro more first rfl
      exact opens (more ++ rest) first rfl
    · rintro more first rfl
      exact closes (more ++ rest) first rfl
  constructor
  · rintro ⟨reaches, before⟩
    refine ⟨by rw [← reaches, same List.prefix_rfl], fun shorter isPrefix other reached => ?_⟩
    refine before (character :: shorter) (by simpa using isPrefix) (by simpa using other) ?_
    rw [same isPrefix, reached]
  · rintro ⟨reaches, before⟩
    refine ⟨by rw [same List.prefix_rfl, reaches], fun shorter isPrefix other reached => ?_⟩
    cases shorter with
    | nil => exact later reached.symm
    | cons _ shorter =>
        rw [List.cons_prefix_cons] at isPrefix
        rcases isPrefix with ⟨rfl, isPrefix⟩
        rw [same isPrefix] at reached
        exact before shorter isPrefix (fun same => other (by rw [same])) reached

theorem exists_pair {first second : Char} {inside after rest : List Char}
    (reaches : FirstNests count inside) (later : count ≠ 0)
    (whole : inside ++ after = first :: second :: rest) :
    ∃ more, inside = first :: second :: more ∧ more ++ after = rest := by
  match inside with
  | [] => exact absurd reaches.1.symm later
  | [character] => exact absurd (reaches.1.symm.trans (nesting_singleton character)) later
  | character :: next :: more =>
      simp only [List.cons_append, List.cons.injEq] at whole
      rcases whole with ⟨rfl, rfl, rfl⟩
      exact ⟨more, rfl, rfl⟩

/-- Behind two characters that are read at once, the reader has to reach what is left of the
count. -/
theorem inFront_pair {first second : Char} {change : Int} {rest inside after : List Char}
    {split : Option (List Char × List Char)}
    (changes : ∀ rest, nesting (first :: second :: rest) = nesting rest + change)
    (later : count ≠ 0)
    (read : ∀ more, split = some (more, after) ↔
      more ++ after = rest ∧ FirstNests (count - change) more) :
    inFront [first, second] split = some (inside, after) ↔
      inside ++ after = first :: second :: rest ∧ FirstNests count inside := by
  rw [inFront_eq_some]
  constructor
  · rintro ⟨more, closed, rfl⟩
    rcases (read more).mp closed with ⟨rfl, reaches⟩
    exact ⟨rfl, (pair_iff changes later).mpr reaches⟩
  · rintro ⟨whole, reaches⟩
    rcases reaches.exists_pair later whole with ⟨more, rfl, rest⟩
    exact ⟨more, (read more).mpr ⟨rest, (pair_iff changes later).mp reaches⟩, rfl⟩

end FirstNests

/-- A block comment ends where its nesting first comes back to what is outside of it. -/
theorem blockEnd?_eq_some {outer : Nat} {text inside after : List Char} :
    blockEnd? outer text = some (inside, after) ↔
      inside ++ after = text ∧ FirstNests (-(outer + 1 : Int)) inside := by
  have opening (rest : List Char) : nesting ('/' :: '*' :: rest) = nesting rest + 1 := rfl
  have closing (rest : List Char) : nesting ('*' :: '/' :: rest) = nesting rest + -1 := rfl
  have deeper (outer : Nat) : -(((outer + 1 : Nat) : Int) + 1) = -(outer + 1 : Int) - 1 := by omega
  have shallower (outer : Nat) : -(((outer + 1 : Nat) : Int) + 1) - -1 = -(outer + 1 : Int) := by
    omega
  -- With `outer` more comments around it, the text has to close `outer + 1` more than it opens.
  fun_induction blockEnd? outer text generalizing inside with
  | case1 outer =>
      constructor
      · intro closed
        cases closed
      · rintro ⟨whole, reaches⟩
        rw [(List.append_eq_nil_iff.mp whole).1] at reaches
        exact absurd reaches.1 (by rw [nesting]; omega)
  | case2 outer rest induction =>
      apply FirstNests.inFront_pair opening (by omega)
      intro more
      rw [← deeper]
      exact induction
  | case3 rest =>
      constructor
      · intro closed
        cases closed
        exact ⟨rfl, (FirstNests.pair_iff closing (by decide)).mpr (FirstNests.zero_iff.mpr rfl)⟩
      · rintro ⟨whole, reaches⟩
        rcases reaches.exists_pair (by decide) whole with ⟨more, rfl, rfl⟩
        rw [FirstNests.zero_iff.mp ((FirstNests.pair_iff closing (by decide)).mp reaches)]
        rfl
  | case4 outer rest induction =>
      apply FirstNests.inFront_pair closing (by omega)
      intro more
      rw [shallower]
      exact induction
  | case5 outer character rest notOpening notClosing notInner induction =>
      have step (more : List Char) (whole : more ++ after = rest) :
          FirstNests (-(outer + 1 : Int)) (character :: more) ↔
            FirstNests (-(outer + 1 : Int)) more := by
        apply FirstNests.cons_iff _ _ (by omega)
        · rintro tail first rfl
          exact notOpening (tail ++ after) first whole.symm
        · rintro tail first rfl
          cases outer with
          | zero => exact notClosing (tail ++ after) rfl first whole.symm
          | succ outer => exact notInner outer (tail ++ after) rfl first whole.symm
      rw [inFront_eq_some]
      constructor
      · rintro ⟨more, closed, rfl⟩
        rcases induction.mp closed with ⟨whole, reaches⟩
        exact ⟨by simp [whole], (step more whole).mpr reaches⟩
      · rintro ⟨whole, reaches⟩
        cases inside with
        | nil => exact absurd reaches.1 (by rw [nesting]; omega)
        | cons first more =>
            simp only [List.cons_append, List.cons.injEq] at whole
            rcases whole with ⟨rfl, whole⟩
            exact ⟨more, induction.mpr ⟨whole, (step more whole).mp reaches⟩, rfl⟩

/-! ## Quoted texts -/

/-- A text that may stand between two quotes: each quote in it is doubled, and with escapes a
backslash takes the next character with it. -/
inductive QuotedInside (quote : Char) (escapes : Prop) : List Char → Prop
  | nil : QuotedInside quote escapes []
  | doubled {rest : List Char} (inside : QuotedInside quote escapes rest) :
      QuotedInside quote escapes (quote :: quote :: rest)
  | escaped {character : Char} {rest : List Char} (enabled : escapes)
      (inside : QuotedInside quote escapes rest) :
      QuotedInside quote escapes ('\\' :: character :: rest)
  | single {character : Char} {rest : List Char} (notQuote : character ≠ quote)
      (notEscape : escapes → character ≠ '\\') (inside : QuotedInside quote escapes rest) :
      QuotedInside quote escapes (character :: rest)

theorem quoteEnd?_eq_some {quote : Char} {escapes : Bool} (noBackslash : quote ≠ '\\')
    {text inside after : List Char} :
    quoteEnd? quote escapes text = some (inside, after) ↔
      ∃ body, inside = body ++ [quote] ∧ inside ++ after = text ∧
        QuotedInside quote (escapes = true) body ∧
        ∀ character ∈ after.head?, character ≠ quote := by
  constructor
  · intro closed
    fun_induction quoteEnd? quote escapes text generalizing inside with
    | case1 | case3 => cases closed
    | case2 =>
        cases closed
        exact ⟨[], by simp, rfl, .nil, by simp⟩
    | case4 character next rest escaped induction =>
        rcases inFront_eq_some.mp closed with ⟨more, later, rfl⟩
        rcases induction later with ⟨body, rfl, rfl, inside, ends⟩
        simp only [Bool.and_eq_true, beq_iff_eq] at escaped
        rcases escaped with ⟨enabled, rfl⟩
        exact ⟨'\\' :: next :: body, rfl, rfl, .escaped enabled inside, ends⟩
    | case5 rest _ induction =>
        rcases inFront_eq_some.mp closed with ⟨more, later, rfl⟩
        rcases induction later with ⟨body, rfl, rfl, inside, ends⟩
        exact ⟨quote :: quote :: body, rfl, rfl, .doubled inside, ends⟩
    | case6 next rest different _ =>
        cases closed
        refine ⟨[], rfl, rfl, .nil, ?_⟩
        rintro _ ⟨⟩
        exact different
    | case7 character next rest notEscaped different induction =>
        rcases inFront_eq_some.mp closed with ⟨more, later, rfl⟩
        rcases induction later with ⟨body, rfl, whole, inside, ends⟩
        refine ⟨character :: body, rfl, by simp [← whole], .single different ?_ inside, ends⟩
        rintro enabled rfl
        exact notEscaped (by simp [enabled])
  · rintro ⟨body, rfl, rfl, inside, ends⟩
    rw [List.append_assoc]
    -- The reader takes each rule as one step, and stops where no second quote follows.
    induction inside with
    | nil =>
        cases after with
        | nil => simp [quoteEnd?]
        | cons next after => simp [quoteEnd?, noBackslash, ends next rfl]
    | doubled _ induction => simp [quoteEnd?, noBackslash, ← induction, inFront]
    | escaped enabled _ induction => simp [quoteEnd?, enabled, ← induction, inFront]
    | @single character rest notQuote notEscape _ induction =>
        have nonempty : rest ++ ([quote] ++ after) ≠ [] := by simp
        rcases List.exists_cons_of_ne_nil nonempty with ⟨next, others, whole⟩
        rw [whole] at induction
        rw [List.cons_append, whole, quoteEnd?, if_neg, if_neg notQuote, induction]
        · rfl
        · simpa using notEscape

/-! ## Dollar strings -/

/-- A dollar tag: two dollar signs with a name between them, which may be missing and holds no
dollar sign. -/
def IsDollarTag (tag : List Char) : Prop :=
  ∃ name, tag = '$' :: (name ++ ['$']) ∧ (∀ first ∈ name.head?, isNameStart first = true) ∧
    ∀ character ∈ name, isWord character = true

theorem tagRest?_eq_some {text tag after : List Char} :
    tagRest? text = some (tag, after) ↔ tag ++ after = text ∧ IsDollarTag ('$' :: tag) := by
  have dollar : isWord '$' = false := by decide
  constructor
  · intro opens
    refine ⟨append_of_tagRest? opens, ?_⟩
    unfold tagRest? at opens
    split at opens
    · cases opens
    · cases opens
      exact ⟨[], rfl, by simp, by simp⟩
    · rename_i character rest _
      split at opens
      · rename_i starts
        split at opens
        · cases opens
          refine ⟨character :: rest.takeWhile isWord, rfl, ?_, ?_⟩
          · rintro _ ⟨⟩
            exact starts
          · refine List.forall_mem_cons.mpr ⟨?_, fun _ => List.mem_takeWhile_imp⟩
            simp only [isNameStart, Bool.and_eq_true] at starts
            exact starts.1
        · cases opens
      · cases opens
  · rintro ⟨rfl, name, same, starts, words⟩
    rw [(List.cons.inj same).2]
    cases name with
    | nil => rfl
    | cons first name =>
        have parts := takeWhile_of_stop name ('$' :: after)
          (fun character member => words character (List.mem_cons_of_mem _ member))
          (by simpa using dollar)
        rw [List.append_assoc, List.cons_append, tagRest?, if_pos (starts first rfl)]
        · simp only [List.cons_append, List.nil_append, parts.1, parts.2]
        · rintro rfl
          exact absurd (words '$' (List.mem_cons_self ..)) (by simp [dollar])

theorem tagEnd?_eq_some {tag : List Char} (tagged : tag ≠ []) {text inside after : List Char} :
    tagEnd? tag text = some (inside, after) ↔
      ∃ body, inside = body ++ tag ∧ inside ++ after = text ∧
        ∀ earlier more, earlier ++ (tag ++ more) = inside → more = [] := by
  constructor
  · intro closed
    fun_induction tagEnd? tag text generalizing inside with
    | case1 => cases closed
    | case2 character rest stands =>
        have whole := append_of_tagEnd? (tagEnd?.eq_2 tag character rest ▸ if_pos stands)
        cases closed
        refine ⟨[], rfl, whole, fun earlier more same => ?_⟩
        have lengths := congrArg List.length same
        simp only [List.length_append] at lengths
        exact List.eq_nil_of_length_eq_zero (by omega)
    | case3 character rest notHere induction =>
        rcases inFront_eq_some.mp closed with ⟨more, later, rfl⟩
        rcases induction later with ⟨body, rfl, rfl, first⟩
        refine ⟨character :: body, rfl, rfl, fun earlier more same => ?_⟩
        cases earlier with
        | nil =>
            refine absurd (List.isPrefixOf_iff_prefix.mpr ⟨more ++ after, ?_⟩) notHere
            rw [← List.append_assoc, ← List.nil_append (tag ++ more), same]
            rfl
        | cons _ earlier => exact first earlier more (List.cons.inj same).2
  · rintro ⟨body, rfl, rfl, first⟩
    induction body with
    | nil =>
        rcases List.exists_cons_of_ne_nil tagged with ⟨letter, rest, rfl⟩
        simp [tagEnd?]
    | cons character body induction =>
        have later := induction fun earlier more same =>
          first (character :: earlier) more (by rw [List.cons_append, same]; rfl)
        rw [List.cons_append, List.cons_append, tagEnd?, if_neg, later]
        · rfl
        · intro stands
          have short : tag <+: character :: (body ++ tag) :=
            List.prefix_of_prefix_length_le (List.isPrefixOf_iff_prefix.mp stands)
              (List.prefix_append (character :: (body ++ tag)) after) (by simp; omega)
          rcases short with ⟨more, same⟩
          have none := first [] more same
          rw [none] at same
          have lengths := congrArg List.length same
          simp only [List.length_append, List.length_cons, List.length_nil] at lengths
          omega

end TableSchema.Sql
