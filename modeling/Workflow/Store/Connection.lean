import Workflow.Settings.Database
import Workflow.Store.Database

/-! Connections to the database servers of a machine, each of which listens at a socket. -/

namespace Workflow

inductive ConnectionFault where
  | target (fault : TargetFault)
  | noSocket
  | timedOut
deriving DecidableEq, Repr

namespace ConnectionFault

def missingFile : String := "No such file or directory (os error 2)"

def texts : ConnectionFault → List String
  | target fault => fault.texts
  | noSocket => ["error communicating with database: " ++ missingFile, missingFile]
  | timedOut => ["pool timed out while waiting for an open connection"]

end ConnectionFault

abbrev Servers := List (String × Database)

namespace Servers

/-- Connects as the settings say: the socket of the target and its database. A pool of no
connections and no time to wait have the same effect as a host at which nobody listens. -/
def connect (servers : Servers) (account : String) (settings : DatabaseSettings) :
    Except ConnectionFault (String × Database) := do
  let target ← (settings.target account).mapError .target
  match target.socketPath? with
  | some path =>
    if settings.poolSize = 0 ∨ settings.acquireTimeoutSeconds = 0 then throw .timedOut
    match servers.lookup path with
    | some database => return (path, database)
    | none => throw .noSocket
  | none => throw .timedOut

def update (servers : Servers) (path : String) (database : Database) : Servers :=
  servers.map fun (other, held) => if other = path then (other, database) else (other, held)

end Servers

end Workflow
