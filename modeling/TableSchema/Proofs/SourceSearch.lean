import Mathlib.Data.List.Induction
import TableSchema.Source

/-! # Which script is read

The script that is read is the first one that can be read at all, unless a path before it leads to
the same place and cannot be followed: then the place counts as tried, and the path that could be
followed is left out. Only a path with a step to the parent, or one that is too long, is in the way
like this.
-/

namespace TableSchema

open Files Config

/-! ## Paths that can be read -/

def Host.script? (host : Host) (path : Path) : Option SourceText :=
  (host.readText path).toOption.map fun content => ⟨path, content⟩

def Host.firstScript? (host : Host) (paths : List Path) : Option SourceText :=
  paths.findSome? host.script?

def Host.unreadBefore (host : Host) (paths : List Path) : List Path :=
  paths.takeWhile fun path => (host.script? path).isNone

def scriptLocations (host : Host) (settings : Settings) (base : String) : List Path :=
  listedPaths settings (if base.isEmpty then host.directoryPath else .ofString base)

/-! ## Following paths -/

/-- Whether the directories that lead to anything in the tree are in the tree, with names that are
not too long. -/
def Files.Tree.Grounded (tree : Tree) : Prop :=
  ∀ place step, (tree.at? (place ++ [step])).isSome = true →
    tree.at? place = some .directory ∧ Path.isLongStep step = false

def Host.startOf (host : Host) (path : Path) : List String :=
  if path.anchor = .relative then host.directory else []

theorem Host.resolve_eq (host : Host) (path : Path) :
    path.resolve host.directory = path.steps.foldl Path.follow (host.startOf path) := rfl

theorem Files.Tree.walk_eq_ok {tree : Tree} {place steps final : List String}
    (walked : tree.walk place steps = .ok final) : final = steps.foldl Path.follow place := by
  fun_induction Tree.walk tree place steps with
  | case1 => exact (Except.ok.inj walked).symm
  | case2 | case4 | case5 | case6 => cases walked
  | case3 place step rest _ next _ _ induction => exact induction walked

theorem Files.Tree.walk_ne_nullCharacter (tree : Tree) (place steps : List String)
    (use : PathUse) : tree.walk place steps ≠ .error (.nullCharacter use) := by
  fun_induction Tree.walk tree place steps with
  | case1 | case2 | case4 | case5 | case6 => simp
  | case3 _ _ _ _ _ _ _ induction => exact induction

theorem Files.Tree.Grounded.directory_above {tree : Tree} (grounded : tree.Grounded)
    {place steps : List String} (nonempty : steps ≠ [])
    (holds : (tree.at? (place ++ steps)).isSome = true) :
    tree.at? place = some .directory := by
  induction steps using List.reverseRecOn with
  | nil => exact absurd rfl nonempty
  | append_singleton steps step induction =>
      rw [← List.append_assoc] at holds
      have above := (grounded _ _ holds).1
      cases steps with
      | nil => simpa using above
      | cons first steps => exact induction (by simp) (by rw [above]; rfl)

/-- Without steps to the parent a path to a place that holds something can be followed. -/
theorem Files.Tree.Grounded.walk_eq {tree : Tree} (grounded : tree.Grounded)
    {place steps : List String} (down : ".." ∉ steps)
    (holds : (tree.at? (place ++ steps)).isSome = true) :
    tree.walk place steps = .ok (place ++ steps) := by
  induction steps generalizing place with
  | nil => simp [Tree.walk]
  | cons step steps induction =>
      have here := grounded.directory_above (by simp) holds
      have next : Path.follow place step = place ++ [step] :=
        if_neg fun parent => down (by simp [parent])
      rw [List.append_cons] at holds
      have holds' : (tree.at? (place ++ [step])).isSome = true := by
        cases steps with
        | nil => simpa using holds
        | cons => rw [grounded.directory_above (by simp) holds]; rfl
      have short := (grounded _ _ holds').2
      rw [Tree.walk, here]
      simp only [next, short, holds', Bool.false_eq_true, if_false, if_true]
      rw [induction (fun member => down (List.mem_cons_of_mem _ member)) holds, ← List.append_cons]

theorem foldl_follow_of_down {steps : List String} (down : ".." ∉ steps) (place : List String) :
    steps.foldl Path.follow place = place ++ steps := by
  induction steps generalizing place with
  | nil => simp
  | cons step steps induction =>
      have next : Path.follow place step = place ++ [step] :=
        if_neg fun parent => down (by simp [parent])
      rw [List.foldl_cons, next, induction fun member => down (List.mem_cons_of_mem _ member),
        ← List.append_cons]

theorem Host.readText_of_plain {host : Host} {path : Path} (plain : path.holdsNull = false) :
    host.readText path =
      if path.isTooLong then .error (.file ⟨.nameTooLong, path⟩)
      else match host.files.walk (host.startOf path) path.steps with
        | .error cause => .error (.file ⟨cause, path⟩)
        | .ok place =>
          match host.files.at? place with
          | some (.file octets) => (decodeText octets).mapError .encoding
          | _ => .error (.file ⟨.isDirectory, path⟩) := by
  rw [Host.readText, Tree.readText, Tree.octets, Tree.find, plain, ← Host.startOf]
  cases path.isTooLong with
  | true => rfl
  | false =>
      cases host.files.walk (host.startOf path) path.steps with
      | error cause => rfl
      | ok place =>
          simp only [Bool.false_eq_true, if_false, Except.mapError, bind, Except.bind]
          rcases host.files.at? place with _ | _ | octets <;> rfl

/-- What a path must be like for its text to be read: it can be followed, and ends at a file in
UTF-8. -/
theorem Host.readText_eq_ok {host : Host} {path : Path} {content : String} :
    host.readText path = .ok content ↔
      path.holdsNull = false ∧ path.isTooLong = false ∧
        host.files.walk (host.startOf path) path.steps = .ok (path.resolve host.directory) ∧
        ∃ octets, host.files.at? (path.resolve host.directory) = some (.file octets) ∧
          decodeText octets = .ok content := by
  cases plain : path.holdsNull with
  | true =>
      rw [Host.readText, Tree.readText, Tree.octets, Tree.find, plain]
      simp [bind, Except.bind, Except.mapError]
  | false =>
      rw [Host.readText_of_plain plain]
      cases path.isTooLong with
      | true => simp
      | false =>
          cases walked : host.files.walk (host.startOf path) path.steps with
          | error cause => simp
          | ok place =>
              rw [Tree.walk_eq_ok walked, ← Host.resolve_eq]
              rcases held : host.files.at? (path.resolve host.directory) with _ | _ | octets
              · simp [held]
              · simp [held]
              · cases decoded : decodeText octets <;> simp [held, decoded, Except.mapError]

theorem Host.readText_ne_nullCharacter {host : Host} {path : Path}
    (plain : path.holdsNull = false) (use : PathUse) (other : Path) :
    host.readText path ≠ .error (.file ⟨.nullCharacter use, other⟩) := by
  rw [Host.readText_of_plain plain]
  split
  · simp
  · split
    · rename_i cause walked
      rintro refused
      cases refused
      exact host.files.walk_ne_nullCharacter _ _ use walked
    · split
      · rename_i octets _
        cases decodeText octets <;> simp [Except.mapError]
      · simp

/-! ## The search -/

theorem Host.script?_eq_some {host : Host} {path : Path} {found : SourceText} :
    host.script? path = some found ↔
      found.path = path ∧ host.readText path = .ok found.content := by
  rw [Host.script?]
  cases host.readText path with
  | error fault => simp [Except.toOption]
  | ok content =>
      rcases found with ⟨path', content'⟩
      simp [Except.toOption, eq_comm]

theorem Host.firstScript?_cons (host : Host) (path : Path) (paths : List Path) :
    host.firstScript? (path :: paths) = (host.script? path).or (host.firstScript? paths) := by
  rw [firstScript?, List.findSome?_cons, firstScript?]
  cases host.script? path <;> rfl

theorem Host.path_mem_of_firstScript? {host : Host} {paths : List Path} {found : SourceText}
    (first : host.firstScript? paths = some found) : found.path ∈ paths := by
  rcases List.exists_of_findSome?_eq_some first with ⟨path, member, read⟩
  rw [(Host.script?_eq_some.mp read).1]
  exact member

/-- Paths without null characters are tried one after the other. -/
theorem loadFirst_eq {host : Host} {paths : List Path}
    (plain : ∀ path ∈ paths, path.holdsNull = false) (tried : List Path) :
    loadFirst host tried paths =
      match host.firstScript? paths with
      | some found => .ok found
      | none => .error (.notFound tried) := by
  induction paths with
  | nil => rfl
  | cons path paths induction =>
      have later := induction fun other member => plain other (List.mem_cons_of_mem _ member)
      have refused := @Host.readText_ne_nullCharacter host path (plain path (by simp))
      rw [Host.firstScript?_cons, Host.script?]
      unfold loadFirst
      split
      · rename_i content read
        simp [read, Except.toOption]
      · rename_i use other read
        exact absurd read (refused use other)
      · rename_i fault _ read
        simp [read, Except.toOption, later]

def Host.distinct (host : Host) (seen : List (List String)) : List Path → List Path
  | [] => []
  | path :: rest =>
      if seen.contains (path.resolve host.directory) then host.distinct seen rest
      else path :: host.distinct (path.resolve host.directory :: seen) rest

theorem Host.distinct_of_mem {host : Host} {seen : List (List String)} {path : Path}
    (known : path.resolve host.directory ∈ seen) (rest : List Path) :
    host.distinct seen (path :: rest) = host.distinct seen rest := by
  rw [distinct, if_pos (List.contains_iff_mem.mpr known)]

theorem Host.distinct_of_not_mem {host : Host} {seen : List (List String)} {path : Path}
    (unseen : path.resolve host.directory ∉ seen) (rest : List Path) :
    host.distinct seen (path :: rest) =
      path :: host.distinct (path.resolve host.directory :: seen) rest := by
  rw [distinct, if_neg fun known => unseen (List.contains_iff_mem.mp known)]

theorem distinctPaths_eq_ok {host : Host} {paths : List Path}
    (plain : ∀ path ∈ paths, path.holdsNull = false) (seen : List (List String)) :
    distinctPaths host.resolve seen paths = .ok (host.distinct seen paths) := by
  induction paths generalizing seen with
  | nil => rfl
  | cons path paths induction =>
      have later := induction fun other member => plain other (List.mem_cons_of_mem _ member)
      rw [distinctPaths, Host.resolve, plain path (by simp)]
      simp only [Bool.false_eq_true, if_false, bind, Except.bind]
      split
      · rename_i known
        rw [Host.distinct_of_mem known, later]
      · rename_i unseen
        rw [Host.distinct_of_not_mem unseen, later]
        rfl

theorem distinctPaths_ne_ok {host : Host} {paths : List Path} {path : Path}
    (member : path ∈ paths) (null : path.holdsNull = true) (seen : List (List String))
    (kept : List Path) : distinctPaths host.resolve seen paths ≠ .ok kept := by
  induction paths generalizing seen kept with
  | nil => cases member
  | cons first paths induction =>
      intro same
      rw [distinctPaths, Host.resolve] at same
      cases plain : first.holdsNull with
      | true => simp [plain, bind, Except.bind] at same
      | false =>
          have later : path ∈ paths := by
            rcases List.mem_cons.mp member with rfl | later
            · rw [plain] at null
              cases null
            · exact later
          simp only [plain, Bool.false_eq_true, if_false, bind, Except.bind] at same
          split at same
          · exact induction later _ _ same
          · split at same
            · cases same
            · rename_i more distinct
              exact induction later _ _ distinct

theorem Host.mem_distinct {host : Host} {seen : List (List String)} {paths : List Path}
    {path : Path} (member : path ∈ host.distinct seen paths) :
    path ∈ paths ∧ path.resolve host.directory ∉ seen := by
  induction paths generalizing seen with
  | nil => cases member
  | cons first paths induction =>
      by_cases known : first.resolve host.directory ∈ seen
      · rw [distinct_of_mem known] at member
        exact ⟨List.mem_cons_of_mem _ (induction member).1, (induction member).2⟩
      · rw [distinct_of_not_mem known] at member
        rcases List.mem_cons.mp member with rfl | later
        · exact ⟨List.mem_cons_self .., known⟩
        · exact ⟨List.mem_cons_of_mem _ (induction later).1,
            fun known => (induction later).2 (List.mem_cons_of_mem _ known)⟩

/-- The first script that can be read is still found among distinct paths if no path before it
means the same place. -/
theorem Host.firstScript?_distinct {host : Host} {paths : List Path} {found : SourceText}
    (first : host.firstScript? paths = some found) (seen : List (List String)) :
    host.firstScript? (host.distinct seen paths) = some found ↔
      found.path.resolve host.directory ∉ seen ∧
        ∀ path ∈ host.unreadBefore paths,
          path.resolve host.directory ≠ found.path.resolve host.directory := by
  induction paths generalizing seen with
  | nil => cases first
  | cons path paths induction =>
      rw [firstScript?_cons] at first
      rw [unreadBefore, List.takeWhile_cons]
      cases read : host.script? path with
      | some script =>
          rw [read] at first
          cases first
          have here := (script?_eq_some.mp read).1
          constructor
          · intro kept
            exact ⟨(mem_distinct (path_mem_of_firstScript? kept)).2, by simp⟩
          · rintro ⟨unseen, -⟩
            rw [here] at unseen
            rw [distinct_of_not_mem unseen, firstScript?_cons, read]
            rfl
      | none =>
          rw [read] at first
          have later := induction first
          simp only [Option.isNone_none, if_true, List.forall_mem_cons]
          rw [← unreadBefore]
          by_cases known : path.resolve host.directory ∈ seen
          · rw [distinct_of_mem known, later]
            constructor
            · rintro ⟨unseen, apart⟩
              exact ⟨unseen, fun same => unseen (same ▸ known), apart⟩
            · rintro ⟨unseen, _, apart⟩
              exact ⟨unseen, apart⟩
          · rw [distinct_of_not_mem known, firstScript?_cons, read, Option.none_or, later,
              List.mem_cons, not_or, ne_comm]
            tauto

/-- Two paths to one place that can both be followed read the same text, so a path that cannot be
read is in the way of another one only if it cannot be followed. -/
theorem Host.up_or_long_of_unread {host : Host} (grounded : host.files.Grounded) {path : Path}
    {found : SourceText} (read : host.script? found.path = some found)
    (unread : (host.script? path).isNone = true) (plain : path.holdsNull = false)
    (same : path.resolve host.directory = found.path.resolve host.directory) :
    ".." ∈ path.steps ∨ path.isTooLong = true := by
  by_contra down
  rw [not_or, Bool.not_eq_true] at down
  rcases Host.readText_eq_ok.mp (Host.script?_eq_some.mp read).2 with
    ⟨_, _, _, octets, held, decoded⟩
  have place : path.resolve host.directory = host.startOf path ++ path.steps := by
    rw [Host.resolve_eq, foldl_follow_of_down down.1]
  rw [← same] at held
  have walked : host.files.walk (host.startOf path) path.steps =
      .ok (path.resolve host.directory) := by
    rw [place]
    refine grounded.walk_eq down.1 ?_
    rw [← place, held]
    rfl
  have read' := Host.readText_eq_ok.mpr ⟨plain, down.2, walked, octets, held, decoded⟩
  have held' : host.script? path = some ⟨path, found.content⟩ :=
    Host.script?_eq_some.mpr ⟨rfl, read'⟩
  rw [held'] at unread
  cases unread

theorem readScript_eq (host : Host) (settings : Settings) (base : String) :
    readScript host settings base =
      ((distinctPaths host.resolve [] (scriptLocations host settings base)).mapError
        .badPath).bind (loadText host) := rfl

theorem plain_of_readScript {host : Host} {settings : Settings} {base : String}
    {found : SourceText} (read : readScript host settings base = .ok found) :
    ∀ path ∈ scriptLocations host settings base, path.holdsNull = false := by
  intro path member
  rw [Bool.eq_false_iff]
  intro null
  rw [readScript_eq] at read
  cases distinct : distinctPaths host.resolve [] (scriptLocations host settings base) with
  | error fault => simp [distinct, Except.mapError, Except.bind] at read
  | ok kept => exact distinctPaths_ne_ok member null [] kept distinct

theorem readScript_of_plain {host : Host} {settings : Settings} {base : String}
    (plain : ∀ path ∈ scriptLocations host settings base, path.holdsNull = false) :
    (readScript host settings base).toOption =
      host.firstScript? (host.distinct [] (scriptLocations host settings base)) := by
  have kept : ∀ path ∈ host.distinct [] (scriptLocations host settings base),
      path.holdsNull = false := fun path member => plain path (Host.mem_distinct member).1
  rw [readScript_eq, distinctPaths_eq_ok plain]
  simp only [Except.mapError, Except.bind, loadText, loadFirst_eq kept]
  cases host.firstScript? (host.distinct [] (scriptLocations host settings base)) <;> rfl

theorem toOption_eq_some {ε α : Type} {result : Except ε α} {value : α} :
    result.toOption = some value ↔ result = .ok value := by
  cases result <;> simp [Except.toOption]

/-- The first script that can be read is found exactly if no path holds a null character and no path
before it leads to its place in vain. In a grounded tree only a path with a step to the parent, or
one that is too long, leads in vain to a place where there is a script. -/
theorem first_script_is_read_iff (host : Host) (settings : Settings) (base : String)
    (found : SourceText)
    (first : host.firstScript? (scriptLocations host settings base) = some found) :
    (readScript host settings base = .ok found ↔
      (∀ path ∈ scriptLocations host settings base, path.holdsNull = false) ∧
        ∀ path ∈ host.unreadBefore (scriptLocations host settings base),
          path.resolve host.directory ≠ found.path.resolve host.directory) ∧
      (host.files.Grounded → ∀ path ∈ host.unreadBefore (scriptLocations host settings base),
        path.holdsNull = false →
          path.resolve host.directory = found.path.resolve host.directory →
            ".." ∈ path.steps ∨ path.isTooLong = true) := by
  have distinct := Host.firstScript?_distinct first []
  constructor
  · constructor
    · intro read
      have plain := plain_of_readScript read
      rw [← toOption_eq_some, readScript_of_plain plain, distinct] at read
      exact ⟨plain, read.2⟩
    · rintro ⟨plain, apart⟩
      rw [← toOption_eq_some, readScript_of_plain plain, distinct]
      exact ⟨List.not_mem_nil, apart⟩
  · intro grounded path member plain same
    have unread := List.all_eq_true.mp List.all_takeWhile path member
    rcases List.exists_of_findSome?_eq_some first with ⟨path', _, read⟩
    have here := (Host.script?_eq_some.mp read).1
    exact Host.up_or_long_of_unread grounded (here ▸ read) unread plain same

def hostWithScript : Host where
  files := ⟨[(["srv", "database", "schema.sql"], .file [0x2D, 0x2D]),
    (["srv", "database"], .directory), (["srv"], .directory)]⟩
  directory := ["srv"]

theorem hostWithScript_grounded : hostWithScript.files.Grounded := by
  intro place step holds
  rw [Tree.at?, if_neg (by simp)] at holds
  have known : place ++ [step] ∈ hostWithScript.files.entries.map (·.1) := by
    by_contra absent
    rw [List.lookup_eq_none_iff.mpr fun entry member => ?_] at holds
    · cases holds
    · rw [bne_iff_ne]
      rintro same
      exact absent (same ▸ List.mem_map_of_mem member)
  have parts {whole : List String} (same : place ++ [step] = whole) :
      place = whole.dropLast ∧ whole.getLast? = some step := by simp [← same]
  simp only [hostWithScript, List.map_cons, List.map_nil, List.mem_cons, List.not_mem_nil,
    or_false] at known
  rcases known with same | same | same <;> obtain ⟨rfl, last⟩ := parts same <;> cases last <;>
    decide +kernel

/-- A path to nothing and one to a directory do not keep the script from being found. -/
theorem script_behind_unread_paths_is_found :
    let settings : Settings := { schemaFile := "nowhere.sql", searchPaths := [.ofString "database"] }
    let found : SourceText := ⟨.ofString "/srv/database/schema.sql", "--"⟩
    hostWithScript.firstScript? (scriptLocations hostWithScript settings "") = some found ∧
      readScript hostWithScript settings "" = .ok found := by
  refine ⟨by decide +kernel, ?_⟩
  refine (first_script_is_read_iff hostWithScript _ "" _ (by decide +kernel)).1.mpr ⟨?_, ?_⟩
  · decide +kernel
  · decide +kernel

/-- A step to the parent behind a directory that is missing cannot be followed, but means the place
of the script, which is then not looked for. -/
theorem script_behind_missing_directory_is_lost :
    let settings : Settings := { schemaFile := "missing/../database/schema.sql" }
    hostWithScript.files.Grounded ∧
      hostWithScript.firstScript? (scriptLocations hostWithScript settings "") =
        some ⟨.ofString "/srv/database/schema.sql", "--"⟩ ∧
      readScript hostWithScript settings "" = .error (.notFound
        [.ofString "missing/../database/schema.sql", .ofString "/database/schema.sql"]) := by
  refine ⟨hostWithScript_grounded, by decide +kernel, by decide +kernel⟩

end TableSchema
