import TableSchema.Data.Yaml.Document

/-! Readers of YAML. A program is given a reader and relies on nothing but what the reader says of a
text: a value, or a fault. The reader of the library is one of many; it knows the tags of the
common scalars and no others, and it sets no limit to nesting. -/

namespace TableSchema.Data.Yaml

structure Reader where
  read (text : List Char) : Except Fault Value
  /-- The fault that is met in the first blocks of a file, before a block that is no UTF-8. -/
  faultBefore? (octets : List UInt8) : Option Fault

def reader : Reader where
  read := ofYaml
  faultBefore? _ := none

end TableSchema.Data.Yaml
