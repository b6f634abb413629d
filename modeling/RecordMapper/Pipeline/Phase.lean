/-! The steps of the persist pipeline at which listeners are notified. -/

namespace RecordMapper

inductive Phase where
  | preEntity | preRecord | postRecord | postEntity
  deriving DecidableEq

namespace Phase

def all : List Phase := [preEntity, preRecord, postRecord, postEntity]

def name : Phase → String
  | preEntity => "pre-entity"
  | preRecord => "pre-record"
  | postRecord => "post-record"
  | postEntity => "post-entity"

instance : ToString Phase := ⟨name⟩

def ofName? (s : String) : Option Phase := all.find? (·.name == s)

end Phase

end RecordMapper
