import TableSchema.Config.Settings
import TableSchema.Data.Yaml.Reader
import TableSchema.Dialect
import TableSchema.Files.Tree

/-! The surroundings of a program: the files that it can reach, the directory in which it works, its
environment, and what it is given to read YAML and to write in dialects. -/

namespace TableSchema

open Files

structure Host where
  files : Tree := {}
  directory : List String := []
  environment : Config.Environment := {}
  yaml : Data.Yaml.Reader := Data.Yaml.reader
  translator : Translator := Dialect.translator

namespace Host

def holds (host : Host) (path : Path) : Except FileFault Bool :=
  host.files.holds host.directory path

def octets (host : Host) (path : Path) : Except FileFault (List UInt8) :=
  host.files.octets host.directory path

def readText (host : Host) (path : Path) : Except ReadFault String :=
  host.files.readText host.directory path

def resolve (host : Host) (path : Path) : Except FileFault (List String) :=
  if path.holdsNull then .error ⟨.nullCharacter .resolve, path⟩
  else .ok (path.resolve host.directory)

def directoryPath (host : Host) : Path := ⟨.root, host.directory⟩

def settings (host : Host) : Except Config.SettingsFault Config.Settings :=
  Config.Settings.ofEnvironment host.environment

end Host

end TableSchema
