/-! Associations: lists of keys with their values, in which the first entry of a key counts. -/

namespace TableSchema.Association

variable {Key Value : Type} [BEq Key]

def erase (key : Key) (entries : List (Key × Value)) : List (Key × Value) :=
  entries.filter (·.1 != key)

def set (key : Key) (value : Value) (entries : List (Key × Value)) : List (Key × Value) :=
  (key, value) :: erase key entries

example : set 1 'c' [(1, 'a'), (2, 'b')] = [(1, 'c'), (2, 'b')] := by decide

theorem lookup_cons_of_ne [LawfulBEq Key] {key : Key} {entry : Key × Value}
    (different : key ≠ entry.1) (rest : List (Key × Value)) :
    (entry :: rest).lookup key = rest.lookup key := by
  have missed : (key == entry.1) = false := by simpa using different
  rw [List.lookup_cons, missed]

theorem lookup_erase_same [LawfulBEq Key] (key : Key) (entries : List (Key × Value)) :
    (erase key entries).lookup key = none := by
  induction entries with
  | nil => rfl
  | cons entry rest induction =>
      unfold erase at induction
      by_cases equal : entry.1 = key
      · simpa [erase, equal] using induction
      · have kept := lookup_cons_of_ne (Ne.symm equal) (rest.filter (·.1 != key))
        simpa [erase, equal] using kept.trans induction

theorem lookup_erase_other [LawfulBEq Key] {key other : Key} (different : other ≠ key)
    (entries : List (Key × Value)) :
    (erase key entries).lookup other = entries.lookup other := by
  induction entries with
  | nil => rfl
  | cons entry rest induction =>
      unfold erase at induction
      by_cases equal : entry.1 = key
      · have missed := lookup_cons_of_ne (equal ▸ different) rest
        simpa [erase, equal] using induction.trans missed.symm
      · by_cases here : other = entry.1
        · rcases entry with ⟨own, value⟩
          subst here
          simp [erase, equal]
        · have kept := lookup_cons_of_ne here (rest.filter (·.1 != key))
          have missed := lookup_cons_of_ne here rest
          simpa [erase, equal] using kept.trans (induction.trans missed.symm)

theorem lookup_set_same [LawfulBEq Key] (key : Key) (value : Value)
    (entries : List (Key × Value)) : (set key value entries).lookup key = some value :=
  List.lookup_cons_self

theorem lookup_set_other [LawfulBEq Key] {key other : Key} (different : other ≠ key)
    (value : Value) (entries : List (Key × Value)) :
    (set key value entries).lookup other = entries.lookup other :=
  (lookup_cons_of_ne different _).trans (lookup_erase_other different entries)

end TableSchema.Association
