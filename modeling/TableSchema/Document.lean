/-! Schema documents: tables with their fields, in the order in which a script creates them. -/

namespace TableSchema

structure Field where
  name : String
  typeLabel : String
  required : Bool := false
  description : Option String := none
  deriving DecidableEq, Repr

structure Table where
  name : String
  fields : List Field
  deriving DecidableEq, Repr

namespace Table

def fieldNames (table : Table) : List String := table.fields.map (·.name)

def field? (table : Table) (name : String) : Option Field := table.fields.find? (·.name = name)

end Table

structure Document where
  tables : List Table := []
  deriving DecidableEq, Repr

namespace Document

def isEmpty (document : Document) : Bool := document.tables.isEmpty

def tableNames (document : Document) : List String := document.tables.map (·.name)

def table? (document : Document) (name : String) : Option Table :=
  document.tables.find? (·.name = name)

def fieldCount (document : Document) : Nat := (document.tables.flatMap Table.fields).length

end Document

end TableSchema
