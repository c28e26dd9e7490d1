import TableSchema.Proofs.SourceSearch
import TableSchema.Proofs.Utf8Decoding

/-! # The first text that can be read

A path is followed step by step, and what is at its end is read as a text. Of several paths the
first one that leads to a text counts, unless a path with a null character stands before it: this
one ends the search.
-/

namespace TableSchema

/-! ## Line ends -/

namespace Text

inductive UnifiesLineEnds : List Char → List Char → Prop
  | empty : UnifiesLineEnds [] []
  | pair {text content : List Char} (rest : UnifiesLineEnds text content) :
      UnifiesLineEnds ('\r' :: '\n' :: text) ('\n' :: content)
  | lone {text content : List Char} (alone : text.head? ≠ some '\n')
      (rest : UnifiesLineEnds text content) : UnifiesLineEnds ('\r' :: text) ('\n' :: content)
  | other {character : Char} {text content : List Char} (noReturn : character ≠ '\r')
      (rest : UnifiesLineEnds text content) :
      UnifiesLineEnds (character :: text) (character :: content)

theorem unifiesLineEnds_unifyLineEnds (text : List Char) :
    UnifiesLineEnds text (unifyLineEnds text) := by
  fun_induction unifyLineEnds text with
  | case1 => exact .empty
  | case2 _ induction => exact .pair induction
  | case3 rest alone induction =>
      refine .lone (fun first => ?_) induction
      obtain ⟨more, rfl⟩ := List.head?_eq_some_iff.mp first
      exact alone more rfl
  | case4 character rest _ other induction => exact .other other induction

theorem unifiesLineEnds_iff {text content : List Char} :
    UnifiesLineEnds text content ↔ unifyLineEnds text = content := by
  constructor
  · intro unifies
    induction unifies with
    | empty => rfl
    | pair _ induction => rw [unifyLineEnds, induction]
    | lone alone _ induction =>
        rw [unifyLineEnds, induction]
        rintro more rfl
        exact alone rfl
    | other noReturn _ induction =>
        rw [unifyLineEnds, induction]
        · rintro more rfl
          exact absurd rfl noReturn
        · exact noReturn
  · rintro rfl
    exact unifiesLineEnds_unifyLineEnds text

end Text

open Files Text

theorem Files.decodeText_eq_ok {octets : List UInt8} {content : String} :
    decodeText octets = .ok content ↔ ∃ text : String,
      text.toUTF8.data.toList = octets ∧ UnifiesLineEnds text.toList content.toList := by
  simp only [unifiesLineEnds_iff]
  constructor
  · intro decoded
    cases read : Utf8.decode octets with
    | error fault => simp [decodeText, read, Except.map] at decoded
    | ok text =>
        simp only [decodeText, read, Except.map, Except.ok.injEq] at decoded
        refine ⟨String.ofList text, Utf8.decode_eq_ok_iff.mp read, ?_⟩
        rw [← decoded, String.toList_ofList, String.toList_ofList]
  · rintro ⟨text, written, unified⟩
    have read : Utf8.decode octets = .ok text.toList := by
      rw [Utf8.decode_eq_ok_iff, String.ofList_toList, written]
    rw [decodeText, read, Except.map, unified, String.ofList_toList]

/-! ## Following paths -/

def Files.Path.Fits (path : Path) : Prop :=
  path.isTooLong = false ∧ ∀ step ∈ path.steps, Path.isLongStep step = false

instance (path : Path) : Decidable path.Fits := inferInstanceAs (Decidable (_ ∧ _))

def Host.placeAfter (host : Host) (path : Path) (count : Nat) : List String :=
  (path.steps.take count).foldl Path.follow (host.startOf path)

structure Host.Passes (host : Host) (path : Path) (count : Nat) : Prop where
  plain : path.holdsNull = false
  fits : path.Fits
  directories : ∀ index < count, host.files.at? (host.placeAfter path index) = some .directory

theorem Host.passes_iff {host : Host} {path : Path} {count : Nat} :
    host.Passes path count ↔ path.holdsNull = false ∧ path.Fits ∧
      ∀ index < count, host.files.at? (host.placeAfter path index) = some .directory :=
  ⟨fun ⟨plain, fits, directories⟩ => ⟨plain, fits, directories⟩,
    fun ⟨plain, fits, directories⟩ => ⟨plain, fits, directories⟩⟩

instance (host : Host) (path : Path) (count : Nat) : Decidable (host.Passes path count) :=
  decidable_of_iff _ Host.passes_iff.symm

structure Host.LeadsTo (host : Host) (path : Path) (octets : List UInt8) : Prop where
  passes : host.Passes path path.steps.length
  file : host.files.at? (host.placeAfter path path.steps.length) = some (.file octets)

def Host.Reads (host : Host) (path : Path) (content : String) : Prop :=
  ∃ text : String, host.LeadsTo path text.toUTF8.data.toList ∧
    UnifiesLineEnds text.toList content.toList

/-- The ways in which a path leads to no text. -/
inductive Host.Unreadable (host : Host) (path : Path) : Prop
  | tooLong (plain : path.holdsNull = false) (long : ¬path.Fits)
  | missing {count : Nat} (within : count ≤ path.steps.length) (passes : host.Passes path count)
      (nothing : host.files.at? (host.placeAfter path count) = none)
  | belowFile {count : Nat} (within : count < path.steps.length) (passes : host.Passes path count)
      {octets : List UInt8} (file : host.files.at? (host.placeAfter path count) = some (.file octets))
  | directory (passes : host.Passes path path.steps.length)
      (directory : host.files.at? (host.placeAfter path path.steps.length) = some .directory)
  | undecodable {octets : List UInt8} (leads : host.LeadsTo path octets)
      (noText : ∀ text : String, text.toUTF8.data.toList ≠ octets)

theorem Host.Unreadable.plain {host : Host} {path : Path} (unreadable : host.Unreadable path) :
    path.holdsNull = false := by
  cases unreadable with
  | tooLong plain _ => exact plain
  | missing _ passes _ | belowFile _ passes _ | directory passes _ => exact passes.plain
  | undecodable leads _ => exact leads.passes.plain

theorem Files.Tree.walk_eq_ok_iff {tree : Tree} {place steps : List String}
    (holds : (tree.at? (steps.foldl Path.follow place)).isSome = true) :
    tree.walk place steps = .ok (steps.foldl Path.follow place) ↔
      (∀ step ∈ steps, Path.isLongStep step = false) ∧ ∀ index < steps.length,
        tree.at? ((steps.take index).foldl Path.follow place) = some .directory := by
  induction steps generalizing place with
  | nil => simp [Tree.walk]
  | cons step steps induction =>
      have later := induction holds
      rw [Tree.walk, List.foldl_cons]
      rw [List.length_cons, Nat.forall_lt_succ_left]
      simp only [List.take_zero, List.foldl_nil, List.take_succ_cons, List.foldl_cons,
        List.forall_mem_cons]
      rcases tree.at? place with _ | _ | octets
      · simp
      · cases Path.isLongStep step with
        | true => simp
        | false =>
            by_cases next : (tree.at? (Path.follow place step)).isSome = true
            · simp [next, later]
            · cases steps with
              | nil => exact absurd holds next
              | cons second steps =>
                  refine iff_of_false (by simp [next]) ?_
                  rintro ⟨_, _, directories⟩
                  have here : tree.at? (Path.follow place step) = some .directory :=
                    directories 0 (Nat.succ_pos _)
                  exact next (by rw [here]; rfl)
      · simp

/-- A text is read at a path exactly if it is there. -/
theorem Host.readText_eq_ok_iff_reads {host : Host} {path : Path} {content : String} :
    host.readText path = .ok content ↔ host.Reads path content := by
  have final : host.placeAfter path path.steps.length = path.resolve host.directory := by
    rw [Host.placeAfter, List.take_length, Host.resolve_eq]
  have walks {octets : List UInt8}
      (file : host.files.at? (path.resolve host.directory) = some (.file octets)) :
      host.files.walk (host.startOf path) path.steps = .ok (path.resolve host.directory) ↔
        (∀ step ∈ path.steps, Path.isLongStep step = false) ∧ ∀ index < path.steps.length,
          host.files.at? (host.placeAfter path index) = some .directory := by
    rw [Host.resolve_eq] at file ⊢
    exact Tree.walk_eq_ok_iff (by rw [file]; rfl)
  simp only [Host.readText_eq_ok, decodeText_eq_ok]
  constructor
  · rintro ⟨plain, short, walked, _, file, text, rfl, unifies⟩
    obtain ⟨names, directories⟩ := (walks file).mp walked
    exact ⟨text, ⟨⟨plain, ⟨short, names⟩, directories⟩, final ▸ file⟩, unifies⟩
  · rintro ⟨text, ⟨⟨plain, ⟨short, names⟩, directories⟩, file⟩, unifies⟩
    rw [final] at file
    exact ⟨plain, short, (walks file).mpr ⟨names, directories⟩, _, file, text, rfl, unifies⟩

theorem Host.passes_or_unreadable {host : Host} {path : Path} (plain : path.holdsNull = false)
    (fits : path.Fits) {count : Nat} (within : count ≤ path.steps.length) :
    host.Passes path count ∨ host.Unreadable path := by
  induction count with
  | zero => exact .inl ⟨plain, fits, by simp⟩
  | succ count induction =>
      rcases induction (by omega) with passes | unreadable
      · cases node : host.files.at? (host.placeAfter path count) with
        | none => exact .inr (.missing (by omega) passes node)
        | some node' =>
            cases node' with
            | file octets => exact .inr (.belowFile (by omega) passes node)
            | directory =>
                refine .inl ⟨plain, fits, fun index below => ?_⟩
                rcases Nat.lt_succ_iff_lt_or_eq.mp below with below | rfl
                · exact passes.directories index below
                · exact node
      · exact .inr unreadable

/-- A path without a null character leads to a text, or in one of the ways to none. -/
theorem Host.unreadable_iff {host : Host} {path : Path} (plain : path.holdsNull = false) :
    host.Unreadable path ↔ ∀ content, ¬host.Reads path content := by
  constructor
  · rintro unreadable content ⟨text, ⟨⟨_, fits, directories⟩, file⟩, unifies⟩
    cases unreadable with
    | tooLong _ long => exact long fits
    | missing within _ nothing =>
        rcases Nat.lt_or_eq_of_le within with below | rfl
        · rw [directories _ below] at nothing
          cases nothing
        · rw [file] at nothing
          cases nothing
    | belowFile within _ file' =>
        rw [directories _ within] at file'
        cases file'
    | directory _ directory =>
        rw [file] at directory
        cases directory
    | undecodable leads noText =>
        cases file.symm.trans leads.file
        exact noText text rfl
  · intro unread
    by_cases fits : path.Fits
    · rcases Host.passes_or_unreadable plain fits (Nat.le_refl _) with passes | unreadable
      · cases node : host.files.at? (host.placeAfter path path.steps.length) with
        | none => exact .missing (Nat.le_refl _) passes node
        | some node' =>
            cases node' with
            | directory => exact .directory passes node
            | file octets =>
                refine .undecodable ⟨passes, node⟩ ?_
                rintro text rfl
                refine unread (String.ofList (unifyLineEnds text.toList)) ⟨text, ⟨passes, node⟩, ?_⟩
                rw [String.toList_ofList]
                exact unifiesLineEnds_unifyLineEnds _
      · exact unreadable
    · exact .tooLong plain fits

/-! ## The search -/

theorem Host.readText_of_null {host : Host} {path : Path} (null : path.holdsNull = true) :
    host.readText path = .error (.file ⟨.nullCharacter .openFile, path⟩) := by
  rw [Host.readText, Tree.readText, Tree.octets, Tree.find, null]
  rfl

section

variable {host : Host} {path : Path} {paths tried : List Path}

theorem loadFirst_cons_of_unreadable (unreadable : host.Unreadable path) :
    loadFirst host tried (path :: paths) = loadFirst host tried paths := by
  have plain := unreadable.plain
  have unread := (Host.unreadable_iff plain).mp unreadable
  rw [loadFirst]
  split
  · rename_i content read
    exact absurd (Host.readText_eq_ok_iff_reads.mp read) (unread content)
  · rename_i use other read
    exact absurd read (Host.readText_ne_nullCharacter plain use other)
  · rfl

theorem loadFirst_append_of_unreadable {before : List Path}
    (unreadable : ∀ path ∈ before, host.Unreadable path) :
    loadFirst host tried (before ++ paths) = loadFirst host tried paths := by
  induction before with
  | nil => rfl
  | cons first before induction =>
      obtain ⟨here, later⟩ := List.forall_mem_cons.mp unreadable
      rw [List.cons_append, loadFirst_cons_of_unreadable here, induction later]

theorem loadFirst_cons_of_reads {content : String} (reads : host.Reads path content) :
    loadFirst host tried (path :: paths) = .ok ⟨path, content⟩ := by
  rw [loadFirst, Host.readText_eq_ok_iff_reads.mpr reads]

theorem loadFirst_cons_of_null (null : path.holdsNull = true) :
    loadFirst host tried (path :: paths) = .error (.badPath ⟨.nullCharacter .openFile, path⟩) := by
  rw [loadFirst, Host.readText_of_null null]

end

/-- How a search among paths ends: with a text, with a path that has a null character, or with the
last path. All paths before that lead to no text. -/
inductive Host.SearchEnds (host : Host) (paths : List Path) :
    Except SourceFault SourceText → Prop
  | found {before after : List Path} {path : Path} {content : String}
      (split : paths = before ++ path :: after)
      (passed : ∀ earlier ∈ before, host.Unreadable earlier) (reads : host.Reads path content) :
      host.SearchEnds paths (.ok ⟨path, content⟩)
  | refused {before after : List Path} {path : Path} (split : paths = before ++ path :: after)
      (passed : ∀ earlier ∈ before, host.Unreadable earlier) (null : path.holdsNull = true) :
      host.SearchEnds paths (.error (.badPath ⟨.nullCharacter .openFile, path⟩))
  | nothing (passed : ∀ path ∈ paths, host.Unreadable path) :
      host.SearchEnds paths (.error (.notFound paths))

section

variable {host : Host} {paths : List Path}

/-- Behind paths that lead to no text there is one that the search ends with, if it does not end
with the last path. -/
theorem unreadable_or_exists_first (host : Host) (paths : List Path) :
    (∀ path ∈ paths, host.Unreadable path) ∨ ∃ before path after,
      paths = before ++ path :: after ∧ (∀ earlier ∈ before, host.Unreadable earlier) ∧
        (path.holdsNull = true ∨ ∃ content, host.Reads path content) := by
  induction paths with
  | nil => exact .inl (by simp)
  | cons path paths induction =>
      by_cases ends : path.holdsNull = true ∨ ∃ content, host.Reads path content
      · exact .inr ⟨[], path, paths, rfl, by simp, ends⟩
      · rw [not_or, Bool.not_eq_true, not_exists] at ends
        have unreadable := (Host.unreadable_iff ends.1).mpr ends.2
        rcases induction with all | ⟨before, first, after, rfl, earlier, ends⟩
        · exact .inl (List.forall_mem_cons.mpr ⟨unreadable, all⟩)
        · exact .inr ⟨path :: before, first, after, rfl,
            List.forall_mem_cons.mpr ⟨unreadable, earlier⟩, ends⟩

theorem Host.exists_searchEnds (host : Host) (paths : List Path) :
    ∃ result, host.SearchEnds paths result := by
  rcases unreadable_or_exists_first host paths with
    all | ⟨before, path, after, split, passed, null | ⟨content, reads⟩⟩
  · exact ⟨_, .nothing all⟩
  · exact ⟨_, .refused split passed null⟩
  · exact ⟨_, .found split passed reads⟩

theorem Host.SearchEnds.loadText_eq {result : Except SourceFault SourceText}
    (ends : host.SearchEnds paths result) : loadText host paths = result := by
  rw [loadText]
  cases ends with
  | found split passed reads =>
      rw [split, loadFirst_append_of_unreadable passed, loadFirst_cons_of_reads reads]
  | refused split passed null =>
      rw [split, loadFirst_append_of_unreadable passed, loadFirst_cons_of_null null]
  | nothing passed =>
      rw [← List.append_nil paths, loadFirst_append_of_unreadable passed, loadFirst]

theorem loadText_eq_iff {result : Except SourceFault SourceText} :
    loadText host paths = result ↔ host.SearchEnds paths result := by
  constructor
  · rintro rfl
    obtain ⟨result, ends⟩ := host.exists_searchEnds paths
    rwa [ends.loadText_eq]
  · exact Host.SearchEnds.loadText_eq

theorem Host.Reads.no_return {path : Path} {content : String} (reads : host.Reads path content) :
    '\r' ∉ content.toList := by
  obtain ⟨text, _, unifies⟩ := reads
  rw [← unifiesLineEnds_iff.mp unifies]
  exact not_mem_unifyLineEnds _

theorem exists_loadText_eq_ok_iff :
    (∃ found, loadText host paths = .ok found) ↔ ∃ before path after,
      paths = before ++ path :: after ∧ (∀ earlier ∈ before, earlier.holdsNull = false) ∧
        ∃ content, host.Reads path content := by
  constructor
  · rintro ⟨found, loaded⟩
    cases loadText_eq_iff.mp loaded with
    | found split passed reads =>
        exact ⟨_, _, _, split, fun earlier member => (passed earlier member).plain, _, reads⟩
  · rintro ⟨before, path, after, rfl, plain, content, reads⟩
    rcases unreadable_or_exists_first host before with
      all | ⟨front, first, back, rfl, passed, null | ⟨content, reads⟩⟩
    · exact ⟨_, loadText_eq_iff.mpr (.found rfl all reads)⟩
    · rw [plain first (by simp)] at null
      cases null
    · exact ⟨_, loadText_eq_iff.mpr (.found (List.append_assoc ..) passed reads)⟩

end

/-- The first text that can be read is loaded, with its line ends unified, and all paths before it
lead to no text. If no path leads to a text, all of them have been tried. Only a path with a null
character ends the search before that. -/
theorem first_readable_text_is_loaded (host : Host) (paths : List Path) :
    (∀ found, loadText host paths = .ok found ↔ ∃ before after,
      paths = before ++ found.path :: after ∧ (∀ earlier ∈ before, host.Unreadable earlier) ∧
        host.Reads found.path found.content ∧ '\r' ∉ found.content.toList) ∧
    (∀ tried, loadText host paths = .error (.notFound tried) ↔
      tried = paths ∧ ∀ path ∈ paths, host.Unreadable path) ∧
    (∀ fault, loadText host paths = .error (.badPath fault) ↔ ∃ before path after,
      paths = before ++ path :: after ∧ (∀ earlier ∈ before, host.Unreadable earlier) ∧
        path.holdsNull = true ∧ fault = ⟨.nullCharacter .openFile, path⟩) ∧
    ((∃ found, loadText host paths = .ok found) ↔ ∃ before path after,
      paths = before ++ path :: after ∧ (∀ earlier ∈ before, earlier.holdsNull = false) ∧
        ∃ content, host.Reads path content) ∧
    ∀ path, path.holdsNull = false →
      (host.Unreadable path ↔ ∀ content, ¬host.Reads path content) := by
  simp only [loadText_eq_iff]
  refine ⟨fun found => ⟨fun ends => ?_, ?_⟩, fun tried => ⟨fun ends => ?_, ?_⟩,
    fun fault => ⟨fun ends => ?_, ?_⟩, ?_, fun path => Host.unreadable_iff⟩
  · cases ends with
    | found split passed reads => exact ⟨_, _, split, passed, reads, reads.no_return⟩
  · rintro ⟨before, after, split, passed, reads, -⟩
    exact .found split passed reads
  · cases ends with
    | nothing passed => exact ⟨rfl, passed⟩
  · rintro ⟨rfl, passed⟩
    exact .nothing passed
  · cases ends with
    | refused split passed null => exact ⟨_, _, _, split, passed, null, rfl⟩
  · rintro ⟨before, path, after, split, passed, null, rfl⟩
    exact .refused split passed null
  · simpa only [loadText_eq_iff] using exists_loadText_eq_ok_iff

def hostWithOldScript : Host where
  files := ⟨[(["srv", "latin.sql"], .file [0xE9]),
    (["srv", "schema.sql"], .file [0x2D, 0x2D, 0x0D, 0x0A]), (["srv"], .directory)]⟩
  directory := ["srv"]

theorem toUTF8_ne_latin (text : String) : text.toUTF8.data.toList ≠ [0xE9] := by
  intro same
  rw [← String.ofList_toList (s := text), ← Utf8.decode_eq_ok_iff] at same
  have refused : (Utf8.decode [0xE9]).toOption = none := by decide +kernel
  rw [same] at refused
  cases refused

/-- Paths to nothing, to a directory, below a file and to a file that is no text are passed over. -/
theorem script_behind_unreadable_paths_is_loaded :
    loadText hostWithOldScript ([.ofString "missing.sql", .ofString "/srv/.",
        .ofString "schema.sql/x", .ofString "latin.sql"] ++ [.ofString "../srv/schema.sql"]) =
      .ok ⟨.ofString "../srv/schema.sql", "--\n"⟩ := by
  have missing : hostWithOldScript.Unreadable (.ofString "missing.sql") :=
    .missing (show 1 ≤ _ by decide +kernel) (by decide +kernel) (by decide +kernel)
  have directory : hostWithOldScript.Unreadable (.ofString "/srv/.") :=
    .directory (by decide +kernel) (by decide +kernel)
  have script : hostWithOldScript.files.at?
      (hostWithOldScript.placeAfter (.ofString "schema.sql/x") 1) =
        some (.file [0x2D, 0x2D, 0x0D, 0x0A]) := by decide +kernel
  have below : hostWithOldScript.Unreadable (.ofString "schema.sql/x") :=
    .belowFile (by decide +kernel) (by decide +kernel) script
  have latin : hostWithOldScript.Unreadable (.ofString "latin.sql") :=
    .undecodable ⟨by decide +kernel, by decide +kernel⟩ toUTF8_ne_latin
  refine ((first_readable_text_is_loaded hostWithOldScript _).1 _).mpr ⟨_, [], rfl, ?_, ?_, ?_⟩
  · simp [missing, directory, below, latin]
  · exact ⟨"--\r\n", ⟨by decide +kernel, by decide +kernel⟩,
      .other (by decide) (.other (by decide) (.pair .empty))⟩
  · decide +kernel

/-- A path with a null character keeps a script behind it from being read. -/
theorem null_character_ends_search :
    hostWithScript.Reads (.ofString "database/schema.sql") "--" ∧
      loadText hostWithScript [⟨.relative, ["a\x00b"]⟩, .ofString "database/schema.sql"] =
        .error (.badPath ⟨.nullCharacter .openFile, ⟨.relative, ["a\x00b"]⟩⟩) := by
  refine ⟨⟨"--", ⟨by decide +kernel, by decide +kernel⟩, ?_⟩, by decide +kernel⟩
  exact .other (by decide) (.other (by decide) .empty)

end TableSchema
