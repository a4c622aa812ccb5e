import Workflow.Settings.Environment
import Workflow.Text.Duration

/-! The settings of the engine. -/

namespace Workflow

inductive StoreKind where
  | memory
  | postgres
deriving DecidableEq, Repr, Inhabited

instance : Named StoreKind where
  noun := "store"
  all := [.memory, .postgres]
  name
    | .memory => "memory"
    | .postgres => "postgres"

inductive LogFormat where
  | text
  | json
deriving DecidableEq, Repr, Inhabited

instance : Named LogFormat where
  noun := "log format"
  all := [.text, .json]
  name
    | .text => "text"
    | .json => "json"

/-- What the engine runs on, and how many milliseconds it waits for collaborators and deliveries. -/
structure EngineSettings where
  store : StoreKind := .memory
  persistenceTimeout : Nat := 5000
  notificationTimeout : Nat := 2000
  directoryFile : Option String := none
  natsUrl : Option String := none
  natsSubject : String := "taskflow.tasks.assigned"
  natsStream : String := "taskflow_tasks"
  logFormat : LogFormat := .text
deriving DecidableEq, Repr, Inhabited

namespace EngineSettings

def longestTimeout : Nat := 0xFFFFFFFFFFFFFFFF

def set (settings : EngineSettings) (entry : Variable) : Except SettingFault EngineSettings :=
  match entry.field with
  | "store" => return { settings with store := ← entry.choice }
  | "persistence_timeout_ms" =>
    return { settings with persistenceTimeout := ← entry.number longestTimeout }
  | "notification_timeout_ms" =>
    return { settings with notificationTimeout := ← entry.number longestTimeout }
  | "directory_file" => return { settings with directoryFile := some entry.value }
  | "nats_url" => return { settings with natsUrl := some entry.value }
  | "nats_subject" => return { settings with natsSubject := entry.value }
  | "nats_stream" => return { settings with natsStream := entry.value }
  | "log_format" => return { settings with logFormat := ← entry.choice }
  | _ => return settings

def family : Family EngineSettings where
  heading := "TASKFLOW_"
  fields := ["store", "persistence_timeout_ms", "notification_timeout_ms", "directory_file",
    "nats_url", "nats_subject", "nats_stream", "log_format"]
  defaults := {}
  set := set

def ofEnvironment (environment : Environment) : Except SettingFault EngineSettings :=
  family.ofEnvironment environment

end EngineSettings

end Workflow
