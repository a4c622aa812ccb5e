import Workflow.Instance.Basic
import Workflow.Report.Basic

/-! Why an operation fails. Every cause belongs to a kind, and only the failure of a collaborator is
worth a second attempt with the same request. -/

namespace Workflow

inductive FailureKind where
  | validationFailed
  | notFound
  | invalidState
  | forbidden
  | unavailable
  | parse
  | config
  | serialization
deriving DecidableEq, Repr

namespace FailureKind

def name : FailureKind → String
  | validationFailed => "validation_failed"
  | notFound => "not_found"
  | invalidState => "invalid_state"
  | forbidden => "forbidden"
  | unavailable => "dependency_unavailable"
  | parse => "parse"
  | config => "config"
  | serialization => "serialization"

def heading : FailureKind → String
  | validationFailed => "Validation failed"
  | notFound => "Resource not found"
  | invalidState => "Invalid state"
  | forbidden => "Forbidden"
  | unavailable => "Dependency unavailable"
  | parse => "Parse error"
  | config => "Configuration error"
  | serialization => "Serialization error"

def message (kind : FailureKind) (detail : String) : String :=
  kind.heading ++ ": " ++ detail

def isRetryable (kind : FailureKind) : Bool :=
  kind = unavailable

end FailureKind

/-- What a database answers when it does not do as asked. -/
inductive DatabaseError where
  | uniqueViolation (message : String)
  | rejected (message : String)
  | protocol (message : String)
  /-- A column that holds something else, with what is known of it. -/
  | undecodable (column : String) (reason : Option String)
deriving DecidableEq, Repr

def DatabaseError.detail : DatabaseError → String
  | uniqueViolation message => "already exists: " ++ message
  | rejected message => "database: error returned from database: " ++ message
  | protocol message => "database: encountered unexpected or invalid data: " ++ message
  | undecodable column reason =>
    "database: error occurred while decoding column \"" ++ column ++ "\"" ++
      reason.elim "" (": " ++ ·)

inductive Failure where
  | invalidDefinition (report : Report)
  | noDefinition (id : Uuid)
  | noInstance (id : Uuid)
  | noTask (id : Uuid)
  | alreadyDefined (name version : String)
  | idTaken (id : Uuid)
  | alreadyActive (id : Uuid)
  | activatedConcurrently (id : Uuid)
  | notActive (name version : String) (status : DefinitionStatus)
  | startStepMissing (start definition : String)
  | taskAlreadyCompleted (id : Uuid)
  | instanceAlreadyCompleted (id : Uuid)
  | foreignTask (task target : Uuid)
  | stepMissing (step definition : String)
  | danglingTransition (source target : String)
  | noStarter
  | notAllowed (principal : String) (task : Uuid)
  | timedOut
  | storeFailed (call : String)
  | directoryFailed (role : String)
  | storedRecordInvalid (noun : String) (id : Uuid) (reason : String)
  | database (error : DatabaseError)
deriving DecidableEq, Repr

namespace Failure

def kind : Failure → FailureKind
  | invalidDefinition _ => .validationFailed
  | noDefinition _ | noInstance _ | noTask _ => .notFound
  | alreadyDefined .. | idTaken _ | alreadyActive _ | activatedConcurrently _ | notActive ..
  | startStepMissing .. | taskAlreadyCompleted _ | instanceAlreadyCompleted _ | foreignTask ..
  | stepMissing .. | danglingTransition .. => .invalidState
  | noStarter | notAllowed .. => .forbidden
  | timedOut | storeFailed _ | directoryFailed _ | storedRecordInvalid .. => .unavailable
  | database (.uniqueViolation _) => .invalidState
  | database _ => .unavailable

def inQuotes (text : String) : String :=
  "'" ++ text ++ "'"

def detail : Failure → String
  | invalidDefinition report => report.text
  | noDefinition id => "definition " ++ inQuotes id.text ++ " not found"
  | noInstance id => "instance " ++ inQuotes id.text ++ " not found"
  | noTask id => "task " ++ inQuotes id.text ++ " not found"
  | alreadyDefined name version =>
    "definition " ++ inQuotes name ++ " version " ++ version ++ " already exists"
  | idTaken id => "definition id " ++ inQuotes id.text ++ " already exists"
  | alreadyActive id => "definition " ++ inQuotes id.text ++ " is already active"
  | activatedConcurrently id => "definition " ++ inQuotes id.text ++ " was activated concurrently"
  | notActive name version status =>
    "definition " ++ inQuotes name ++ " version " ++ version ++ " is " ++ Named.name status ++
      ", not active"
  | startStepMissing start definition =>
    "start step " ++ inQuotes start ++ " missing from definition " ++ inQuotes definition
  | taskAlreadyCompleted id => "task " ++ inQuotes id.text ++ " is already completed"
  | instanceAlreadyCompleted id => "instance " ++ inQuotes id.text ++ " is already completed"
  | foreignTask task target =>
    "task " ++ inQuotes task.text ++ " does not belong to instance " ++ inQuotes target.text
  | stepMissing step definition =>
    "step " ++ inQuotes step ++ " missing from definition " ++ inQuotes definition
  | danglingTransition source target =>
    "transition from " ++ inQuotes source ++ " targets unknown step " ++ inQuotes target
  | noStarter => "an instance must be started by a principal"
  | notAllowed principal task =>
    "principal " ++ inQuotes principal ++ " may not complete task " ++ inQuotes task.text
  | timedOut => "collaborator call timed out"
  | storeFailed call => "store: " ++ call
  | directoryFailed role => "directory: " ++ role
  | storedRecordInvalid noun id reason =>
    "stored " ++ noun ++ " " ++ inQuotes id.text ++ " is invalid: " ++ reason
  | database error => error.detail

def message (failure : Failure) : String :=
  failure.kind.message failure.detail

def isRetryable (failure : Failure) : Bool :=
  failure.kind.isRetryable

end Failure

end Workflow
