import TableSchema.Association
import TableSchema.Parsing

/-! A memory for parsed scripts. It holds the documents of the scripts that were used last, and
forgets the one that has not been used for longest when there are too many. -/

namespace TableSchema

structure ParseCache where
  entries : List (String × Document) := []

namespace ParseCache

def capacity : Nat := 128

def remembers (cache : ParseCache) (sql : String) : Bool :=
  (cache.entries.lookup sql).isSome

def remember (cache : ParseCache) (sql : String) (document : Document) : ParseCache :=
  ⟨(Association.set sql document cache.entries).take capacity⟩

theorem length_remember_le (cache : ParseCache) (sql : String) (document : Document) :
    (cache.remember sql document).entries.length ≤ capacity :=
  List.length_take_le ..

def parseDocument (cache : ParseCache) (sql : String) : Document × ParseCache :=
  let document := (cache.entries.lookup sql).getD (TableSchema.parseDocument sql)
  (document, cache.remember sql document)

end ParseCache

end TableSchema
