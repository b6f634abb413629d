import RecordMapper.Text.Blank

/-! Which store a template or a repository works on: a family of stores and a provider's name. -/

namespace RecordMapper

inductive DatabaseType where
  | document | column | keyValue
  deriving DecidableEq

namespace DatabaseType

def all : List DatabaseType := [document, column, keyValue]

def name : DatabaseType → String
  | document => "DOCUMENT"
  | column => "COLUMN"
  | keyValue => "KEY_VALUE"

instance : ToString DatabaseType := ⟨name⟩

def ofName? (s : String) : Option DatabaseType := all.find? (·.name == s)

/-- The constructor as it is written in a one-line description. -/
def label : DatabaseType → String
  | document => "Document"
  | column => "Column"
  | keyValue => "KeyValue"

end DatabaseType

structure Qualifier where
  provider : String
  database : DatabaseType
  deriving DecidableEq

namespace Qualifier

def defaultProvider : String := "default"

/-- The provider's name is trimmed, and a blank one stands for the default provider. -/
def of (provider : String) (database : DatabaseType) : Qualifier :=
  let trimmed := Text.trim provider
  ⟨if trimmed.isEmpty then defaultProvider else trimmed, database⟩

instance : ToString Qualifier := ⟨fun q => toString q.database ++ "@" ++ q.provider⟩

end Qualifier

end RecordMapper
