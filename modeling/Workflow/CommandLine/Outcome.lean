import Workflow.Failure
import Workflow.Json.Printer
import Workflow.Json.Draft
import Workflow.Store.Connection

/-! What a command leaves behind: lines of output, lines about what went wrong, and a code. -/

namespace Workflow

structure Outcome where
  code : Nat := 0
  output : List String := []
  errors : List String := []
deriving DecidableEq, Repr, Inhabited

inductive ObjectFault where
  | malformed (fault : Json.SyntaxError)
  | otherValue (value : Json)

def ObjectFault.text : ObjectFault → String
  | malformed fault => fault.message
  | otherValue value => "expected a JSON object, got " ++ value.render

inductive CommandFault where
  | invalidData (fault : ObjectFault)
  | invalidCompletion (fault : ObjectFault)
  | noCompletion (text : String)
  | unreadable (kind : FailureKind) (path reason : String)
  | malformed (problem : Document.Problem)
  | connection (fault : ConnectionFault)
  | operation (failure : Failure)
  | definitionGone (name version : String)
  | invalidDefinitions (failed total : Nat)
  | stopped (steps : Nat) (pending : List String)

namespace CommandFault

def count (number : Nat) : String :=
  String.ofList (Text.decimal number)

/-- A problem with a document, which is told where it is about the shape of the data. -/
def problemText (problem : Document.Problem) : String :=
  match problem.text? with
  | some text => FailureKind.parse.message text
  | none => FailureKind.parse.heading

def listed (names : List String) : String :=
  "[" ++ ", ".intercalate names ++ "]"

def texts : CommandFault → List String
  | invalidData fault => ["invalid --data", fault.text]
  | invalidCompletion fault => [fault.text]
  | noCompletion text => [Failure.inQuotes text ++ " is not STEP=JSON"]
  | unreadable kind path reason => [kind.message (path ++ ": " ++ reason)]
  | malformed problem => [problemText problem]
  | connection fault => fault.texts
  | operation failure => [failure.message]
  | definitionGone name version =>
    ["definition " ++ Failure.inQuotes name ++ " " ++ version ++ " disappeared"]
  | invalidDefinitions failed total =>
    [count failed ++ " of " ++ count total ++ " definitions invalid"]
  | stopped steps pending =>
    ["stopped after " ++ count steps ++ " steps with pending tasks " ++ listed pending]

/-- The causes of a fault; several are numbered from the outermost one. -/
def causeLines : List String → List String
  | [] => []
  | [only] => ["", "Caused by:", "    " ++ only]
  | causes =>
    "" :: "Caused by:" :: causes.zipIdx.map fun (cause, index) =>
      String.ofList (List.replicate (5 - (Text.decimal index).length) ' ') ++ count index ++ ": " ++
        cause

def lines (fault : CommandFault) : List String :=
  match fault.texts with
  | [] => []
  | text :: causes => ("Error: " ++ text) :: causeLines causes

end CommandFault

end Workflow
