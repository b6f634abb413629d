import RecordMapper.Number.Reading
import RecordMapper.Calendar.Date
import RecordMapper.Query.Statement
import RecordMapper.Store.Qualifier
import RecordMapper.Repository.Shape
import RecordMapper.Pipeline.Phase

/-!
Failures as causes. Every failure has a kind, a message and at most one failure that led to it; the
wording of all of them stands here.
-/

namespace RecordMapper

inductive ErrorKind where
  | mapping
  | dynamicQuery
  | nonUniqueResult
  | illegalState
  | nullArgument
  | store
  | hook
  | cancelled
  | extension (name : String)
  | internal
  /-- Not an error that a caller receives: the operation breaks off. -/
  | abort
  deriving DecidableEq

def ErrorKind.title : ErrorKind → String
  | .mapping => "Mapping error"
  | .dynamicQuery => "Dynamic query error"
  | .nonUniqueResult => "Non unique result error"
  | .illegalState => "Illegal state error"
  | .nullArgument => "Null argument"
  | .store => "Store error"
  | .hook => "Hook error"
  | .cancelled => "Cancelled"
  | .extension name => "Extension error: " ++ name
  | .internal => "Internal error"
  | .abort => "Abort"

/-- A setting that the built engine refuses to change. -/
inductive Setting where
  | separator | registry | listener | manager | asyncManager
  deriving DecidableEq

inductive Failure where
  /-- A failure that comes from outside the library. -/
  | reported (kind : ErrorKind) (message : String)
  | caused (kind : ErrorKind) (message : String) (cause : Failure)
  | required (parameter : String)
  | formatting
  | integerText (fault : IntegerFault)
  | floatText (fault : FloatFault)
  | mismatch (v : Value) (expected : String)
  | overflow (n : Int) (target : IntegerType)
  | unknownVariant (text type : String)
  | notVariant (v : Value) (type : String)
  | notStruct (v : Value) (type : String)
  | invalidDate (text : String) (fault : CalendarFault)
  | invalidTimestamp (text : String) (fault : CalendarFault)
  | noQueryPrefix (method : String)
  | noCondition (method : String)
  | noField (method : String)
  | missingArgument (method : String)
  /-- A `LIKE` pattern for which there is no program. -/
  | invalidPattern (fault : String)
  | undeclaredType (type : String)
  | selfEmbedding (type : String)
  | noFactory (type : String)
  | manyIdentifiers (type : String)
  | nestedIdentifier (type name : String)
  | columnClash (type column : String)
  | wrongInstance (type : String)
  | field (type name : String) (cause : Failure)
  | emptyRecord (name type : String)
  | noIdentifier (type : String)
  | noKeyEntry (name column : String)
  | noSuchRecord (name column : String) (key : Value)
  | timeToLiveOutOfRange
  | clockOverflow
  | bulkMismatch (name : String) (stored expected : Nat)
  | notUnique (query : SelectQuery)
  | listener (phase : Phase) (message : String)
  | wrongShape (method : String) (shape : ReturnShape)
  | duplicateMethod (method : String)
  | undeclaredMethod (method type : String)
  | finderShape (shape : ReturnShape)
  | frozen (setting : Setting)
  | emptySeparator
  | wrongDatabase (role : String) (qualifier : Qualifier)
  | unbound (role : String) (qualifier : Qualifier)

namespace Failure

def kind : Failure → ErrorKind
  | reported k _ | caused k _ _ => k
  | required _ => .nullArgument
  | formatting => .internal
  | noQueryPrefix _ | noCondition _ | noField _ | missingArgument _ => .dynamicQuery
  | invalidPattern _ => .dynamicQuery
  | wrongShape .. | duplicateMethod _ | undeclaredMethod .. => .dynamicQuery
  | noKeyEntry .. | noSuchRecord .. | timeToLiveOutOfRange | bulkMismatch .. => .store
  | clockOverflow => .abort
  | notUnique _ => .nonUniqueResult
  | listener .. => .hook
  | finderShape _ | frozen _ | emptySeparator | wrongDatabase .. | unbound .. => .illegalState
  | _ => .mapping

def frozenText : Setting → String
  | .separator => "Field separator cannot be changed after initialization"
  | .registry => "Registry cannot be changed after initialization"
  | .listener => "Cannot add listener after initialization"
  | .manager => "Cannot bind a RecordManager after initialization"
  | .asyncManager => "Cannot bind an AsyncRecordManager after initialization"

def message : Failure → String
  | reported _ m | caused _ m _ => m
  | required parameter => parameter ++ " is required"
  | formatting => "Formatting error: an error occurred when formatting an argument"
  | integerText fault => "Integer parsing error: " ++ fault.text
  | floatText fault => "Float parsing error: " ++ fault.text
  | mismatch v expected =>
    "Value " ++ toString v ++ " of type " ++ v.typeName ++ " is not " ++ expected
  | overflow n target => "Value " ++ toString n ++ " overflows " ++ target.name
  | unknownVariant text type => text ++ " is not a variant of " ++ type
  | notVariant v type => "Value " ++ toString v ++ " is not a variant of " ++ type
  | notStruct v type => "Value " ++ toString v ++ " is not a record of " ++ type
  | invalidDate text fault => "Invalid date " ++ text ++ ": " ++ fault.text
  | invalidTimestamp text fault => "Invalid timestamp " ++ text ++ ": " ++ fault.text
  | noQueryPrefix method => "Method " ++ method ++ " does not start with a query prefix"
  | noCondition method => "Method " ++ method ++ " has no condition"
  | noField method => "Method " ++ method ++ " has a clause without a field"
  | missingArgument method => "There is a missed argument in the method " ++ method
  | invalidPattern fault => "Invalid pattern: " ++ fault
  | undeclaredType type => "Type " ++ type ++ " is not declared"
  | selfEmbedding type => "Type " ++ type ++ " embeds itself"
  | noFactory type => "Type " ++ type ++ " has no default construction path"
  | manyIdentifiers type => "Type " ++ type ++ " declares more than one identifier field"
  | nestedIdentifier type name => "Identifier " ++ type ++ "." ++ name ++ " cannot be an entity"
  | columnClash type column => "Type " ++ type ++ " maps two fields to " ++ column
  | wrongInstance type => "Entity is not an instance of " ++ type
  | field type name _ => "Failed to convert field " ++ type ++ "." ++ name
  | emptyRecord name type => "Record " ++ name ++ " has no entries to build " ++ type ++ " from"
  | noIdentifier type => "Type " ++ type ++ " has no identifier field"
  | noKeyEntry name column => "Record " ++ name ++ " has no key entry " ++ column
  | noSuchRecord name column key =>
    "No record " ++ name ++ " with " ++ column ++ " " ++ toString key
  | timeToLiveOutOfRange =>
    "Invalid time to live: Source duration value is out of range for the target type"
  | clockOverflow => "The instant after a time to live cannot be represented"
  | bulkMismatch name stored expected =>
    "Bulk insert of " ++ name ++ " returned " ++ toString stored ++ " records for " ++
      toString expected ++ " entities"
  | notUnique query => "The query returns more than one entity, query: " ++ toString query
  | listener phase m => "Persist listener failed at " ++ toString phase ++ ": " ++ m
  | wrongShape method shape => "Method " ++ method ++ " cannot return " ++ toString shape
  | duplicateMethod method => "Method " ++ method ++ " is declared more than once"
  | undeclaredMethod method type =>
    "Method " ++ method ++ " is not declared by the repository of " ++ type
  | finderShape shape => "A finder cannot return " ++ toString shape
  | frozen setting => frozenText setting
  | emptySeparator => "Field separator cannot be empty"
  | wrongDatabase role q =>
    "The " ++ q.provider ++ " must produce " ++ role ++ " with " ++ toString q.database ++ " type"
  | unbound role q => "No " ++ role ++ " is bound to " ++ toString q

/-- The failure and what led to it, the innermost last. -/
def chain : Failure → List Failure
  | caused k m cause => caused k m cause :: cause.chain
  | field t f cause => field t f cause :: cause.chain
  | f => [f]

def causes (f : Failure) : List Failure := f.chain.tail

/-- A call stack, the innermost frame first, one numbered frame a line. -/
def stackText (frames : List String) : String :=
  "\n".intercalate (frames.mapIdx fun i frame =>
    let index := toString i
    String.ofList (List.replicate (4 - index.length) ' ') ++ index ++ ": " ++ frame)

/-- The chain of messages, followed by the call stack that the innermost failure was made in. -/
def inspect (f : Failure) (stack : List String) : String :=
  "\nCaused by: ".intercalate (f.chain.map message) ++ "\n" ++ stackText stack

end Failure

end RecordMapper
