import TableSchema.Proofs.SourceSearch

/-! # Candidates for the script

The paths that are tried are the locations where the script may be, without those that lead to a
place to which an earlier one leads.
-/

namespace TableSchema

open Files Config

/-! ## First entries -/

def Host.firstEntries (host : Host) (paths : List Path) : List (Path × Nat) :=
  paths.zipIdx.filter fun entry => !((paths.take entry.2).map
    (Path.resolve host.directory)).contains (entry.1.resolve host.directory)

def Host.firstPaths (host : Host) (paths : List Path) : List Path :=
  (host.firstEntries paths).map Prod.fst

section

variable {host : Host} {paths : List Path}

theorem Host.mem_firstEntries {path : Path} {index : Nat} :
    (path, index) ∈ host.firstEntries paths ↔ paths[index]? = some path ∧
      ∀ earlier ∈ paths.take index,
        earlier.resolve host.directory ≠ path.resolve host.directory := by
  rw [firstEntries, List.mem_filter, List.mk_mem_zipIdx_iff_getElem?]
  simp only [Bool.not_eq_true', ← Bool.not_eq_true, List.contains_iff_mem, List.mem_map, not_exists,
    not_and, ne_eq]

theorem Host.firstPaths_sublist (host : Host) (paths : List Path) :
    (host.firstPaths paths).Sublist paths := by
  have kept : (host.firstEntries paths).Sublist paths.zipIdx := List.filter_sublist
  simpa only [firstPaths, List.zipIdx_map_fst] using kept.map Prod.fst

theorem Host.nodup_firstPaths (host : Host) (paths : List Path) :
    ((host.firstPaths paths).map (Path.resolve host.directory)).Nodup := by
  have increasing : paths.zipIdx.Pairwise fun first second => first.2 < second.2 := by
    rw [← List.pairwise_map (f := Prod.snd), List.zipIdx_map_snd]
    exact List.pairwise_lt_range' 1
  rw [firstPaths, List.map_map, List.Nodup, List.pairwise_map]
  refine (increasing.filter _).imp_of_mem fun {first second} member later before => ?_
  have here := (mem_firstEntries.mp member).1
  have member' : first.1 ∈ paths.take second.2 := by
    rw [List.mem_take_iff_getElem]
    obtain ⟨within, same⟩ := List.getElem?_eq_some_iff.mp here
    exact ⟨first.2, by omega, same⟩
  exact (mem_firstEntries.mp later).2 _ member'

theorem Host.exists_firstEntry {path : Path} {index : Nat} (here : paths[index]? = some path) :
    ∃ first place, (first, place) ∈ host.firstEntries paths ∧ place ≤ index ∧
      first.resolve host.directory = path.resolve host.directory := by
  induction index using Nat.strongRecOn generalizing path with
  | ind index induction =>
      by_cases new : ∀ earlier ∈ paths.take index,
          earlier.resolve host.directory ≠ path.resolve host.directory
      · exact ⟨path, index, mem_firstEntries.mpr ⟨here, new⟩, Nat.le_refl index, rfl⟩
      · simp only [not_forall, ne_eq, not_not, exists_prop] at new
        obtain ⟨earlier, member, same⟩ := new
        obtain ⟨place, within, rfl⟩ := List.mem_take_iff_getElem.mp member
        obtain ⟨first, place', entry, before, same'⟩ :=
          induction place (by omega) (List.getElem?_eq_getElem (by omega))
        exact ⟨first, place', entry, by omega, same'.trans same⟩

theorem Host.head?_firstPaths_cons (host : Host) (path : Path) (paths : List Path) :
    (host.firstPaths (path :: paths)).head? = some path := by
  rw [firstPaths, firstEntries, List.zipIdx_cons, List.filter_cons_of_pos (by simp)]
  rfl

/-- The paths behind some others lead to places that are new if they are neither where these nor
where earlier paths lead. -/
theorem Host.distinct_eq {before : List Path} {seen : List (List String)}
    (known : ∀ place, place ∈ seen ↔ place ∈ before.map (Path.resolve host.directory)) :
    host.distinct seen paths = ((paths.zipIdx before.length).filter fun entry =>
      !(((before ++ paths).take entry.2).map (Path.resolve host.directory)).contains
        (entry.1.resolve host.directory)).map Prod.fst := by
  induction paths generalizing before seen with
  | nil => rfl
  | cons path paths induction =>
      have later := @induction (before ++ [path])
      simp only [List.length_append, List.length_singleton, List.append_assoc,
        List.singleton_append, List.map_append, List.map_singleton, List.mem_append,
        List.mem_singleton] at later
      rw [List.zipIdx_cons, List.filter_cons, List.take_left' rfl]
      by_cases member : path.resolve host.directory ∈ seen
      · rw [distinct_of_mem member, if_neg (by simpa using (known _).mp member)]
        refine later fun place => ⟨fun member => .inl ((known place).mp member), ?_⟩
        rintro (earlier | rfl)
        · exact (known place).mpr earlier
        · exact member
      · rw [distinct_of_not_mem member, if_pos (by simpa using (known _).not.mp member),
          List.map_cons]
        refine congrArg _ (later fun place => ?_)
        rw [List.mem_cons, known, or_comm]

theorem Host.distinct_nil (host : Host) (paths : List Path) :
    host.distinct [] paths = host.firstPaths paths := by
  have known (place : List String) :
      place ∈ [] ↔ place ∈ ([] : List Path).map (Path.resolve host.directory) := by simp
  exact Host.distinct_eq known

/-- The first path with a null character ends the search for places. -/
theorem distinctPaths_of_null {before after : List Path} {path : Path}
    (plain : ∀ earlier ∈ before, earlier.holdsNull = false) (null : path.holdsNull = true)
    (seen : List (List String)) :
    distinctPaths host.resolve seen (before ++ path :: after) =
      .error ⟨.nullCharacter .resolve, path⟩ := by
  induction before generalizing seen with
  | nil =>
      rw [List.nil_append, distinctPaths, Host.resolve, null]
      rfl
  | cons first before induction =>
      obtain ⟨here, later⟩ := List.forall_mem_cons.mp plain
      rw [List.cons_append, distinctPaths, Host.resolve, here]
      simp only [Bool.false_eq_true, if_false, bind, Except.bind, induction later]
      split <;> rfl

theorem distinctPaths_eq_ok_iff {candidates : List Path} :
    distinctPaths host.resolve [] paths = .ok candidates ↔
      (∀ path ∈ paths, path.holdsNull = false) ∧ candidates = host.firstPaths paths := by
  constructor
  · intro distinct
    have plain : ∀ path ∈ paths, path.holdsNull = false := fun path member =>
      Bool.eq_false_iff.mpr fun null => distinctPaths_ne_ok member null [] candidates distinct
    rw [distinctPaths_eq_ok plain, Host.distinct_nil] at distinct
    exact ⟨plain, (Except.ok.inj distinct).symm⟩
  · rintro ⟨plain, rfl⟩
    rw [distinctPaths_eq_ok plain, Host.distinct_nil]

end

theorem head?_scriptLocations (host : Host) {settings : Settings} (base : String)
    (given : settings.schemaFile ≠ "") : ∃ more,
      scriptLocations host settings base = .ofString settings.schemaFile :: more := by
  have nonempty : settings.schemaFile.isEmpty = false := by simpa using given
  rw [scriptLocations, listedPaths, nonempty]
  exact ⟨_, rfl⟩

/-- The candidates are the locations of the script that lead where no earlier one leads, as they are
written: no two of them lead to one place, every location leads where one of them leads that is no
later one, and the explicit file comes first. Where a location has a null character there are none:
the first such location is reported. -/
theorem candidates_are_first_locations (host : Host) (settings : Settings) (base : String) :
    let locations := scriptLocations host settings base
    let kept := host.firstPaths locations
    (∀ candidates, candidatePaths host settings base = .ok candidates ↔
      (∀ path ∈ locations, path.holdsNull = false) ∧ candidates = kept) ∧
    (∀ before path after, locations = before ++ path :: after →
      (∀ earlier ∈ before, earlier.holdsNull = false) → path.holdsNull = true →
        candidatePaths host settings base = .error (.badPath ⟨.nullCharacter .resolve, path⟩)) ∧
    kept.Sublist locations ∧ (kept.map (Path.resolve host.directory)).Nodup ∧
    (∀ index path, locations[index]? = some path → ∃ first place,
      (first, place) ∈ host.firstEntries locations ∧ place ≤ index ∧
        first.resolve host.directory = path.resolve host.directory) ∧
    (settings.schemaFile ≠ "" → kept.head? = some (.ofString settings.schemaFile)) := by
  intro locations kept
  have searched : candidatePaths host settings base =
      (distinctPaths host.resolve [] locations).mapError .badPath := rfl
  refine ⟨fun candidates => ?_, fun before path after split plain null => ?_,
    host.firstPaths_sublist _, host.nodup_firstPaths _, fun index path => Host.exists_firstEntry,
    fun given => ?_⟩
  · rw [← distinctPaths_eq_ok_iff, searched]
    cases distinctPaths host.resolve [] locations <;> simp [Except.mapError]
  · rw [searched, split, distinctPaths_of_null plain null]
    rfl
  · obtain ⟨more, first⟩ := head?_scriptLocations host base given
    have kept_eq : kept = host.firstPaths (.ofString settings.schemaFile :: more) :=
      congrArg host.firstPaths first
    rw [kept_eq, Host.head?_firstPaths_cons]

/-- A search path that spells the explicit file in another way is left out, and so is the location
below the parent of a base without steps, which is its own parent. -/
theorem other_spellings_are_left_out :
    let settings : Settings :=
      { schemaFile := "x//schema.sql", searchPaths := [.ofString "../srv/./x/schema.sql"] }
    candidatePaths hostWithScript settings "." =
      .ok [.ofString "x/schema.sql", .ofString "database/schema.sql"] := by
  refine ((candidates_are_first_locations hostWithScript _ ".").1 _).mpr ⟨?_, ?_⟩
  · decide +kernel
  · decide +kernel

/-- There are no candidates if a location has a null character. -/
theorem location_with_null_character_is_refused :
    candidatePaths hostWithScript { schemaFile := "a\x00b" } "" =
      .error (.badPath ⟨.nullCharacter .resolve, .ofString "a\x00b"⟩) := by
  decide +kernel

end TableSchema
