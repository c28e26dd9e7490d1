import TableSchema.Proofs.JsonStrings

/-! # Reading JSON

What is written as JSON is read again as the same value, whatever the layout, if the value is made
of texts, truth values, lists and objects and is not nested too deeply. All that is written is
ASCII.
-/

namespace TableSchema.Data

/-! ## Blanks -/

def StartsBare (text : List Char) : Prop := text.head?.all (!Cursor.isJsonBlank ·) = true

theorem skipBlanks_append (place : Nat) (blanks : List Char) {rest : List Char}
    (blank : ∀ character ∈ blanks, Cursor.isJsonBlank character = true) (bare : StartsBare rest) :
    (Cursor.mk place (blanks ++ rest)).skipBlanks = ⟨place + blanks.length, rest⟩ := by
  have run : (blanks ++ rest).takeWhile Cursor.isJsonBlank = blanks := by
    rw [List.takeWhile_append_of_pos blank]
    cases rest with
    | nil => simp
    | cons character rest =>
        have stop : Cursor.isJsonBlank character = false := by simpa [StartsBare] using bare
        simp [stop]
  simp [Cursor.skipBlanks, Cursor.skip, run]

theorem skipBlanks_bare (place : Nat) {rest : List Char} (bare : StartsBare rest) :
    (Cursor.mk place rest).skipBlanks = ⟨place, rest⟩ :=
  skipBlanks_append place [] (by simp) bare

theorem isJsonBlank_of_mem_lineBreak {layout : Layout} {level : Nat} {character : Char}
    (member : character ∈ layout.lineBreak level) : Cursor.isJsonBlank character = true := by
  cases layout with
  | oneLine => cases member
  | indented spaces =>
      rcases List.mem_cons.mp member with rfl | member
      · rfl
      · rw [List.eq_of_mem_replicate member]
        rfl

theorem skipBlanks_lineBreak (layout : Layout) (level place : Nat) {rest : List Char}
    (bare : StartsBare rest) :
    ∃ next, (Cursor.mk place (layout.lineBreak level ++ rest)).skipBlanks = ⟨next, rest⟩ :=
  ⟨_, skipBlanks_append place _ (fun _ => isJsonBlank_of_mem_lineBreak) bare⟩

theorem exists_separator (layout : Layout) (level : Nat) :
    ∃ blanks, layout.separator level = ',' :: blanks ∧
      ∀ character ∈ blanks, Cursor.isJsonBlank character = true := by
  cases layout with
  | oneLine => exact ⟨[' '], rfl, by simp [Cursor.isJsonBlank]⟩
  | indented spaces => exact ⟨_, rfl, fun _ => isJsonBlank_of_mem_lineBreak⟩

theorem length_separator_pos (layout : Layout) (level : Nat) :
    0 < (layout.separator level).length := by
  obtain ⟨blanks, comma, -⟩ := exists_separator layout level
  rw [comma, List.length_cons]
  exact Nat.succ_pos _

theorem skipBlanks_separator (layout : Layout) (level place : Nat) {following : List Char}
    (bare : StartsBare following) :
    ∃ blanks next,
      (Cursor.mk place (layout.separator level ++ following)).skipBlanks =
        ⟨place, ',' :: (blanks ++ following)⟩ ∧
      (Cursor.mk (place + 1) (blanks ++ following)).skipBlanks = ⟨next, following⟩ := by
  obtain ⟨blanks, comma, blank⟩ := exists_separator layout level
  have front : StartsBare (layout.separator level ++ following) := by
    rw [comma]
    rfl
  rw [skipBlanks_bare place front, comma]
  exact ⟨blanks, _, rfl, skipBlanks_append (place + 1) blanks blank bare⟩

end TableSchema.Data

namespace TableSchema.Value

/-! ## Values that are read again -/

mutual

/-- Whether a value is made of texts, truth values, lists and objects, and lists and objects are
nested at most `room` deep. -/
def isPlain (room : Nat) : Value → Bool
  | .null | .bool _ | .text _ => true
  | .list items => 0 < room && itemsArePlain (room - 1) items
  | .object entries => 0 < room && entriesArePlain (room - 1) entries
  | _ => false

def itemsArePlain (room : Nat) : List Value → Bool
  | [] => true
  | item :: rest => isPlain room item && itemsArePlain room rest

def entriesArePlain (room : Nat) : List (String × Value) → Bool
  | [] => true
  | (_, value) :: rest => isPlain room value && entriesArePlain room rest

end

end TableSchema.Value

namespace TableSchema.Data

def jsonItemsFrom (layout : Layout) (level : Nat) : List Value → List Char
  | [] => []
  | item :: rest => jsonValue layout level item ++ jsonItems layout level rest

def jsonEntriesFrom (layout : Layout) (level : Nat) : List (String × Value) → List Char
  | [] => []
  | (key, value) :: rest =>
      jsonString key.toList ++ ':' :: ' ' :: jsonValue layout level value ++
        jsonEntries layout level rest

theorem jsonItems_eq (layout : Layout) (level : Nat) {items : List Value} (nonempty : items ≠ []) :
    jsonItems layout level items = layout.separator level ++ jsonItemsFrom layout level items := by
  cases items with
  | nil => exact absurd rfl nonempty
  | cons item rest => rw [jsonItems, jsonItemsFrom, List.append_assoc]

theorem jsonEntries_eq (layout : Layout) (level : Nat) {entries : List (String × Value)}
    (nonempty : entries ≠ []) :
    jsonEntries layout level entries =
      layout.separator level ++ jsonEntriesFrom layout level entries := by
  cases entries with
  | nil => exact absurd rfl nonempty
  | cons entry rest => simp [jsonEntries, jsonEntriesFrom]

theorem jsonValue_list (layout : Layout) (level : Nat) {items : List Value}
    (nonempty : items ≠ []) :
    jsonValue layout level (.list items) =
      '[' :: (layout.lineBreak (level + 1) ++ (jsonItemsFrom layout (level + 1) items ++
        (layout.lineBreak level ++ [']']))) := by
  cases items with
  | nil => exact absurd rfl nonempty
  | cons item rest => simp [jsonValue, jsonItemsFrom]

theorem jsonValue_object (layout : Layout) (level : Nat) {entries : List (String × Value)}
    (nonempty : entries ≠ []) :
    jsonValue layout level (.object entries) =
      '\x7b' :: (layout.lineBreak (level + 1) ++ (jsonEntriesFrom layout (level + 1) entries ++
        (layout.lineBreak level ++ ['\x7d']))) := by
  cases entries with
  | nil => exact absurd rfl nonempty
  | cons entry rest => simp [jsonValue, jsonEntriesFrom]

theorem exists_jsonValue_eq_cons {value : Value} {room : Nat} (plain : value.isPlain room = true)
    (layout : Layout) (level : Nat) :
    ∃ first more, jsonValue layout level value = first :: more ∧
      first ∈ ['n', 't', 'f', '"', '[', '\x7b'] := by
  cases value with
  | null => exact ⟨'n', "ull".toList, rfl, by simp⟩
  | bool value => cases value with
    | true => exact ⟨'t', "rue".toList, rfl, by simp⟩
    | false => exact ⟨'f', "alse".toList, rfl, by simp⟩
  | text value => exact ⟨'"', _, rfl, by simp⟩
  | list items => cases items with
    | nil => exact ⟨'[', [']'], rfl, by simp⟩
    | cons item rest => exact ⟨'[', _, jsonValue_list layout level (by simp), by simp⟩
  | object entries => cases entries with
    | nil => exact ⟨'\x7b', ['\x7d'], rfl, by simp⟩
    | cons entry rest => exact ⟨'\x7b', _, jsonValue_object layout level (by simp), by simp⟩
  | int | float | moment | brokenText => simp [Value.isPlain] at plain

/-! ## Reading values -/

section Values

variable {layout : Layout} {room steps : Nat}

theorem readJsonValue_text (steps room place : Nat) (rest : List Char) :
    readJsonValue (steps + 1) room ⟨place, '"' :: rest⟩ =
      (fun (read, after) => (Value.ofCodePoints read, after)) <$>
        readJsonString ((Cursor.mk place ('"' :: rest)).skip 1) := by
  rw [readJsonValue.eq_def]
  cases room <;> rfl

theorem readJsonValue_list (steps room place : Nat) (rest : List Char) :
    readJsonValue (steps + 1) (room + 1) ⟨place, '[' :: rest⟩ =
      if (Cursor.mk (place + 1) rest).skipBlanks.rest.head? = some ']' then
        .ok (.list [], (Cursor.mk (place + 1) rest).skipBlanks.skip 1)
      else (fun (read, after) => (Value.list read, after)) <$>
        readJsonItems steps room (Cursor.mk (place + 1) rest).skipBlanks := by
  rw [readJsonValue.eq_def]
  rfl

theorem readJsonValue_object (steps room place : Nat) (rest : List Char) :
    readJsonValue (steps + 1) (room + 1) ⟨place, '\x7b' :: rest⟩ =
      if (Cursor.mk (place + 1) rest).skipBlanks.rest.head? = some '\x7d' then
        .ok (.object [], (Cursor.mk (place + 1) rest).skipBlanks.skip 1)
      else (fun (read, after) => (Value.object read, after)) <$>
        readJsonEntries steps room (Cursor.mk (place + 1) rest).skipBlanks := by
  rw [readJsonValue.eq_def]
  rfl

/-! ### Items -/

theorem readJsonItems_last {cursor : Cursor} {item : Value} {level : Nat} {after : List Char}
    (read : Leaves (readJsonValue steps room cursor) item
      (layout.lineBreak level ++ ']' :: after)) :
    Leaves (readJsonItems (steps + 1) room cursor) [item] after := by
  obtain ⟨place, read⟩ := read
  have bracket : StartsBare (']' :: after) := rfl
  obtain ⟨next, skipped⟩ := skipBlanks_lineBreak layout level place bracket
  rw [readJsonItems, read]
  simp only [bind, Except.bind, skipped]
  exact ⟨next + 1, rfl⟩

theorem readJsonItems_more {cursor : Cursor} {item : Value} {items : List Value} {level : Nat}
    {following after : List Char}
    (read : Leaves (readJsonValue steps room cursor) item
      (layout.separator level ++ following))
    (bare : StartsBare following)
    (more : ∀ place, Leaves (readJsonItems steps room ⟨place, following⟩) items after) :
    Leaves (readJsonItems (steps + 1) room cursor) (item :: items) after := by
  obtain ⟨place, read⟩ := read
  obtain ⟨blanks, next, comma, behind⟩ := skipBlanks_separator layout level place bare
  obtain ⟨last, more⟩ := more next
  rw [readJsonItems, read]
  simp only [bind, Except.bind, comma, Cursor.skip, List.drop_one, List.tail_cons, behind, more]
  exact ⟨last, rfl⟩

/-! ### Entries -/

def behindEntry (steps room : Nat) (entry : String × Value) (next : Cursor) :
    JsonRead (List (String × Value) × Cursor) :=
  match next.rest with
  | '\x7d' :: _ => .ok ([entry], next.skip 1)
  | ',' :: _ => do
      let (entries, after) ← readJsonEntries steps room (next.skip 1).skipBlanks
      .ok (entry :: entries, after)
  | _ => .error (.expectedComma, next.place)

/-- The key of an entry is read, the colon and the blank behind it are passed over, and then the
value is read. -/
theorem readJsonEntries_entry {key : String} {value : Value} {text rest : List Char}
    (bare : StartsBare text)
    (read : ∀ place, Leaves (readJsonValue steps room ⟨place, text⟩) value rest) (place : Nat) :
    ∃ next, readJsonEntries (steps + 1) room
        ⟨place, jsonString key.toList ++ ':' :: ' ' :: text⟩ =
      behindEntry steps room (key, value) (Cursor.mk next rest).skipBlanks := by
  obtain ⟨colon, name⟩ := readJsonString_jsonString place key.toList (':' :: ' ' :: text)
  have stay : (Cursor.mk colon (':' :: ' ' :: text)).skipBlanks = ⟨colon, ':' :: ' ' :: text⟩ :=
    skipBlanks_bare colon rfl
  have behind : ((Cursor.mk colon (':' :: ' ' :: text)).skip 1).skipBlanks =
      ⟨colon + 1 + 1, text⟩ :=
    skipBlanks_append (colon + 1) [' '] (by simp [Cursor.isJsonBlank]) bare
  have quote : (jsonString key.toList ++ ':' :: ' ' :: text).head? = some '"' := rfl
  obtain ⟨next, read⟩ := read (colon + 1 + 1)
  refine ⟨next, ?_⟩
  rw [readJsonEntries]
  simp only [quote, name, ne_eq, not_true, if_false, bind, Except.bind, stay, List.head?_cons,
    map_keyChar_toNat, behind, read]
  rfl

theorem readJsonEntries_last {place level : Nat} {key : String} {value : Value}
    {text after : List Char} (bare : StartsBare text)
    (read : ∀ place, Leaves (readJsonValue steps room ⟨place, text⟩) value
      (layout.lineBreak level ++ '\x7d' :: after)) :
    Leaves (readJsonEntries (steps + 1) room ⟨place, jsonString key.toList ++ ':' :: ' ' :: text⟩)
      [(key, value)] after := by
  obtain ⟨place, entry⟩ := readJsonEntries_entry bare read place
  have brace : StartsBare ('\x7d' :: after) := rfl
  obtain ⟨next, skipped⟩ := skipBlanks_lineBreak layout level place brace
  rw [entry, skipped]
  exact ⟨next + 1, rfl⟩

theorem readJsonEntries_more {place level : Nat} {key : String} {value : Value}
    {entries : List (String × Value)} {text following after : List Char}
    (bare : StartsBare text)
    (read : ∀ place, Leaves (readJsonValue steps room ⟨place, text⟩) value
      (layout.separator level ++ following))
    (next_bare : StartsBare following)
    (more : ∀ place, Leaves (readJsonEntries steps room ⟨place, following⟩) entries after) :
    Leaves (readJsonEntries (steps + 1) room ⟨place, jsonString key.toList ++ ':' :: ' ' :: text⟩)
      ((key, value) :: entries) after := by
  obtain ⟨place, entry⟩ := readJsonEntries_entry bare read place
  obtain ⟨blanks, next, comma, behind⟩ := skipBlanks_separator layout level place next_bare
  obtain ⟨last, more⟩ := more next
  rw [entry, comma]
  simp only [behindEntry, bind, Except.bind, Cursor.skip, List.drop_one, List.tail_cons, behind,
    more]
  exact ⟨last, rfl⟩

/-! ### What is written is read -/

theorem length_jsonValue_pos {value : Value} (plain : value.isPlain room = true) (layout : Layout)
    (level : Nat) : 0 < (jsonValue layout level value).length := by
  obtain ⟨first, more, same, start⟩ := exists_jsonValue_eq_cons plain layout level
  rw [same, List.length_cons]
  exact Nat.succ_pos _

theorem head_jsonValue {value : Value} (plain : value.isPlain room = true) (layout : Layout)
    (level : Nat) (rest : List Char) :
    StartsBare (jsonValue layout level value ++ rest) ∧
      (jsonValue layout level value ++ rest).head? ≠ some ']' := by
  obtain ⟨first, more, same, start⟩ := exists_jsonValue_eq_cons plain layout level
  rw [same]
  simp only [List.mem_cons, List.not_mem_nil, or_false] at start
  rcases start with rfl | rfl | rfl | rfl | rfl | rfl <;> exact ⟨rfl, by simp⟩

theorem head_jsonItemsFrom {items : List Value} (plain : Value.itemsArePlain room items = true)
    (nonempty : items ≠ []) (layout : Layout) (level : Nat) (rest : List Char) :
    StartsBare (jsonItemsFrom layout level items ++ rest) ∧
      (jsonItemsFrom layout level items ++ rest).head? ≠ some ']' := by
  cases items with
  | nil => exact absurd rfl nonempty
  | cons item items =>
      rw [Value.itemsArePlain, Bool.and_eq_true] at plain
      rw [jsonItemsFrom, List.append_assoc]
      exact head_jsonValue plain.1 layout level _

theorem head_jsonEntriesFrom {entries : List (String × Value)} (nonempty : entries ≠ [])
    (layout : Layout) (level : Nat) (rest : List Char) :
    StartsBare (jsonEntriesFrom layout level entries ++ rest) ∧
      (jsonEntriesFrom layout level entries ++ rest).head? ≠ some '\x7d' := by
  cases entries with
  | nil => exact absurd rfl nonempty
  | cons entry entries => exact ⟨rfl, by simp [jsonEntriesFrom, jsonString]⟩

theorem leaves_text (text : String) (level place : Nat) (after : List Char) :
    Leaves (readJsonValue (steps + 1) room ⟨place, jsonValue layout level (.text text) ++ after⟩)
      (.text text) after := by
  have read := (readJsonString_jsonString place text.toList after).map Value.ofCodePoints
  rw [ofCodePoints_toNat] at read
  have written : jsonValue layout level (.text text) ++ after =
      '"' :: (text.toList.flatMap jsonChar ++ ['"'] ++ after) := by
    simp [jsonValue, jsonString]
  rw [written, readJsonValue_text]
  simpa only [jsonString, List.cons_append] using read

theorem leaves_list {items : List Value} {level place : Nat} {after : List Char}
    (plain : Value.itemsArePlain room items = true) (nonempty : items ≠ [])
    (read : ∀ place, Leaves (readJsonItems steps room
      ⟨place, jsonItemsFrom layout (level + 1) items ++
        (layout.lineBreak level ++ ']' :: after)⟩) items after) :
    Leaves (readJsonValue (steps + 1) (room + 1)
      ⟨place, jsonValue layout level (.list items) ++ after⟩) (.list items) after := by
  have head := head_jsonItemsFrom plain nonempty layout (level + 1)
    (layout.lineBreak level ++ ']' :: after)
  obtain ⟨next, skipped⟩ := skipBlanks_lineBreak layout (level + 1) (place + 1) head.1
  have written : jsonValue layout level (.list items) ++ after =
      '[' :: (layout.lineBreak (level + 1) ++ (jsonItemsFrom layout (level + 1) items ++
        (layout.lineBreak level ++ ']' :: after))) := by
    simp [jsonValue_list layout level nonempty]
  rw [written, readJsonValue_list, skipped, if_neg head.2]
  exact (read next).map Value.list

theorem leaves_object {entries : List (String × Value)} {level place : Nat} {after : List Char}
    (nonempty : entries ≠ [])
    (read : ∀ place, Leaves (readJsonEntries steps room
      ⟨place, jsonEntriesFrom layout (level + 1) entries ++
        (layout.lineBreak level ++ '\x7d' :: after)⟩) entries after) :
    Leaves (readJsonValue (steps + 1) (room + 1)
      ⟨place, jsonValue layout level (.object entries) ++ after⟩) (.object entries) after := by
  have head := head_jsonEntriesFrom nonempty layout (level + 1)
    (layout.lineBreak level ++ '\x7d' :: after)
  obtain ⟨next, skipped⟩ := skipBlanks_lineBreak layout (level + 1) (place + 1) head.1
  have written : jsonValue layout level (.object entries) ++ after =
      '\x7b' :: (layout.lineBreak (level + 1) ++ (jsonEntriesFrom layout (level + 1) entries ++
        (layout.lineBreak level ++ '\x7d' :: after))) := by
    simp [jsonValue_object layout level nonempty]
  rw [written, readJsonValue_object, skipped, if_neg head.2]
  exact (read next).map Value.object

end Values

mutual

/-- A plain value that is written is read again, whatever follows. Each step of the reader has at
least half a character of its own. -/
theorem readJsonValue_jsonValue (layout : Layout) :
    ∀ (value : Value) (level room steps place : Nat) (after : List Char),
      value.isPlain room = true → 2 * (jsonValue layout level value).length ≤ steps + 1 →
      Leaves (readJsonValue (steps + 1) room ⟨place, jsonValue layout level value ++ after⟩) value
        after
  | .null, _, _, _, place, _, _, _ => ⟨place + 4, rfl⟩
  | .bool true, _, _, _, place, _, _, _ => ⟨place + 4, rfl⟩
  | .bool false, _, _, _, place, _, _, _ => ⟨place + 5, rfl⟩
  | .text text, level, room, steps, place, after, _, _ => leaves_text text level place after
  | .list [], _, 0, _, _, _, plain, _ | .object [], _, 0, _, _, _, plain, _ => by cases plain
  | .list [], _, _ + 1, _, place, _, _, _ => ⟨place + 2, rfl⟩
  | .object [], _, _ + 1, _, place, _, _, _ => ⟨place + 2, rfl⟩
  | .list (item :: rest), level, room, steps, place, after, plain, enough => by
      -- The brackets pay for the step from the value to its items.
      rw [Value.isPlain, Bool.and_eq_true, decide_eq_true_iff] at plain
      obtain ⟨room, rfl⟩ : ∃ less, room = less + 1 := ⟨room - 1, by omega⟩
      rw [jsonValue_list layout level (by simp)] at enough
      simp only [List.length_cons, List.length_append] at enough
      obtain ⟨steps, rfl⟩ : ∃ fewer, steps = fewer + 1 := ⟨steps - 1, by omega⟩
      exact leaves_list plain.2 (by simp) fun next =>
        readJsonItems_jsonItemsFrom layout (item :: rest) (level + 1) level room steps next after
          (by simp) plain.2 (by omega)
  | .object (entry :: rest), level, room, steps, place, after, plain, enough => by
      rw [Value.isPlain, Bool.and_eq_true, decide_eq_true_iff] at plain
      obtain ⟨room, rfl⟩ : ∃ less, room = less + 1 := ⟨room - 1, by omega⟩
      rw [jsonValue_object layout level (by simp)] at enough
      simp only [List.length_cons, List.length_append] at enough
      obtain ⟨steps, rfl⟩ : ∃ fewer, steps = fewer + 1 := ⟨steps - 1, by omega⟩
      exact leaves_object (by simp) fun next =>
        readJsonEntries_jsonEntriesFrom layout (entry :: rest) (level + 1) level room steps next
          after (by simp) plain.2 (by omega)
  | .int _, _, _, _, _, _, plain, _ => by cases plain
  | .float _, _, _, _, _, _, plain, _ => by cases plain
  | .moment, _, _, _, _, _, plain, _ => by cases plain
  | .brokenText _, _, _, _, _, _, plain, _ => by cases plain

theorem readJsonItems_jsonItemsFrom (layout : Layout) :
    ∀ (items : List Value) (level lower room steps place : Nat) (after : List Char),
      items ≠ [] → Value.itemsArePlain room items = true →
      2 * (jsonItemsFrom layout level items).length ≤ steps →
      Leaves (readJsonItems (steps + 1) room ⟨place, jsonItemsFrom layout level items ++
        (layout.lineBreak lower ++ ']' :: after)⟩) items after
  | [], _, _, _, _, _, _, nonempty, _, _ => absurd rfl nonempty
  | item :: rest, level, lower, room, steps, place, after, _, plain, enough => by
      rw [Value.itemsArePlain, Bool.and_eq_true] at plain
      have long := length_jsonValue_pos plain.1 layout level
      rw [jsonItemsFrom, List.length_append] at enough
      obtain ⟨steps, rfl⟩ : ∃ fewer, steps = fewer + 1 := ⟨steps - 1, by omega⟩
      rw [jsonItemsFrom, List.append_assoc]
      have first := readJsonValue_jsonValue layout item level room steps place
      -- The last item leaves the closing bracket, any other one the separator.
      by_cases last : rest = []
      · subst last
        exact readJsonItems_last (first _ plain.1 (by omega))
      · rw [jsonItems_eq layout level last] at enough ⊢
        rw [List.append_assoc]
        have comma := length_separator_pos layout level
        rw [List.length_append] at enough
        exact readJsonItems_more (first _ plain.1 (by omega))
          (head_jsonItemsFrom plain.2 last layout level _).1
          fun next => readJsonItems_jsonItemsFrom layout rest level lower room steps next after last
            plain.2 (by omega)

theorem readJsonEntries_jsonEntriesFrom (layout : Layout) :
    ∀ (entries : List (String × Value)) (level lower room steps place : Nat) (after : List Char),
      entries ≠ [] → Value.entriesArePlain room entries = true →
      2 * (jsonEntriesFrom layout level entries).length ≤ steps →
      Leaves (readJsonEntries (steps + 1) room ⟨place, jsonEntriesFrom layout level entries ++
        (layout.lineBreak lower ++ '\x7d' :: after)⟩) entries after
  | [], _, _, _, _, _, _, nonempty, _, _ => absurd rfl nonempty
  | (key, value) :: rest, level, lower, room, steps, place, after, _, plain, enough => by
      rw [Value.entriesArePlain, Bool.and_eq_true] at plain
      have long := length_jsonValue_pos plain.1 layout level
      rw [jsonEntriesFrom] at enough ⊢
      simp only [List.length_append, List.length_cons, List.append_assoc, List.cons_append]
        at enough ⊢
      obtain ⟨steps, rfl⟩ : ∃ fewer, steps = fewer + 1 := ⟨steps - 1, by omega⟩
      have first (following : List Char) (next : Nat) := readJsonValue_jsonValue layout value level
        room steps next following plain.1 (by omega)
      have bare (following : List Char) := (head_jsonValue plain.1 layout level following).1
      by_cases last : rest = []
      · subst last
        exact readJsonEntries_last (bare _) (first _)
      · rw [jsonEntries_eq layout level last] at enough ⊢
        rw [List.append_assoc]
        rw [List.length_append] at enough
        exact readJsonEntries_more (bare _) (first _) (head_jsonEntriesFrom last layout level _).1
          fun next => readJsonEntries_jsonEntriesFrom layout rest level lower room steps next after
            last plain.2 (by omega)

end

/-- Reading inverts writing. -/
theorem ofJson_toJson (layout : Layout) {value : Value}
    (plain : value.isPlain nestingLimit = true) : ofJson (toJson layout value).toList = .ok value := by
  have written : (toJson layout value).toList = jsonValue layout 0 value ++ [] := by
    simp [toJson]
  have start := skipBlanks_bare 0 (head_jsonValue plain layout 0 []).1
  obtain ⟨place, read⟩ := readJsonValue_jsonValue layout value 0 nestingLimit
    (2 * (jsonValue layout 0 value ++ []).length + 1) 0 [] plain (by simp; omega)
  have stay : (Cursor.mk place []).skipBlanks = ⟨place, []⟩ := skipBlanks_bare place rfl
  rw [written, ofJson, start]
  simp only [bind, Except.bind, read, stay]
  rfl

/-! ## ASCII -/

theorem isAscii_lineBreak (layout : Layout) (level : Nat) : IsAscii (layout.lineBreak level) := by
  intro character member
  have blank := isJsonBlank_of_mem_lineBreak member
  simp only [Cursor.isJsonBlank, Bool.or_eq_true, beq_iff_eq] at blank
  rcases blank with ((rfl | rfl) | rfl) | rfl <;> decide

theorem isAscii_separator (layout : Layout) (level : Nat) : IsAscii (layout.separator level) := by
  cases layout with
  | oneLine => simp [Layout.separator]
  | indented spaces => simp [Layout.separator, isAscii_lineBreak]

mutual

theorem isAscii_jsonValue (layout : Layout) :
    ∀ (value : Value) (level room : Nat), value.isPlain room = true →
      IsAscii (jsonValue layout level value)
  | .null, _, _, _ | .bool true, _, _, _ | .bool false, _, _, _ | .list [], _, _, _
  | .object [], _, _, _ => by simp [jsonValue]
  | .text text, _, _, _ => isAscii_jsonString text.toList
  | .list (item :: rest), level, room, plain => by
      rw [Value.isPlain, Bool.and_eq_true, Value.itemsArePlain, Bool.and_eq_true] at plain
      simp [jsonValue, isAscii_lineBreak,
        isAscii_jsonValue layout item (level + 1) _ plain.2.1,
        isAscii_jsonItems layout rest (level + 1) _ plain.2.2]
  | .object ((key, value) :: rest), level, room, plain => by
      rw [Value.isPlain, Bool.and_eq_true, Value.entriesArePlain, Bool.and_eq_true] at plain
      simp [jsonValue, isAscii_lineBreak, isAscii_jsonString,
        isAscii_jsonValue layout value (level + 1) _ plain.2.1,
        isAscii_jsonEntries layout rest (level + 1) _ plain.2.2]
  | .int _, _, _, plain | .float _, _, _, plain | .moment, _, _, plain
  | .brokenText _, _, _, plain => by cases plain

theorem isAscii_jsonItems (layout : Layout) :
    ∀ (items : List Value) (level room : Nat), Value.itemsArePlain room items = true →
      IsAscii (jsonItems layout level items)
  | [], _, _, _ => isAscii_nil
  | item :: rest, level, room, plain => by
      rw [Value.itemsArePlain, Bool.and_eq_true] at plain
      simp [jsonItems, isAscii_separator, isAscii_jsonValue layout item level room plain.1,
        isAscii_jsonItems layout rest level room plain.2]

theorem isAscii_jsonEntries (layout : Layout) :
    ∀ (entries : List (String × Value)) (level room : Nat),
      Value.entriesArePlain room entries = true → IsAscii (jsonEntries layout level entries)
  | [], _, _, _ => isAscii_nil
  | (key, value) :: rest, level, room, plain => by
      rw [Value.entriesArePlain, Bool.and_eq_true] at plain
      simp [jsonEntries, isAscii_separator, isAscii_jsonString,
        isAscii_jsonValue layout value level room plain.1,
        isAscii_jsonEntries layout rest level room plain.2]

end

theorem isAscii_toJson (layout : Layout) {value : Value} {room : Nat}
    (plain : value.isPlain room = true) : IsAscii (toJson layout value).toList := by
  rw [toJson, String.toList_ofList]
  exact isAscii_jsonValue layout value 0 room plain

end TableSchema.Data
