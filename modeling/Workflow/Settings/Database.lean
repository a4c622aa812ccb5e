import Workflow.Settings.Environment
import Workflow.Url.Basic

/-! The settings of the database, and the connection they ask for. A URL overrides the settings of
host, port, user, password and database. -/

namespace Workflow

structure DatabaseSettings where
  url : Option String := none
  host : String := "localhost"
  port : Nat := 5432
  user : String := "taskflow"
  password : String := ""
  database : String := "taskflow"
  poolSize : Nat := 10
  acquireTimeoutSeconds : Nat := 10
deriving DecidableEq, Repr, Inhabited

/-- Where a connection goes, and who asks for it. A socket directory counts instead of the host. -/
structure Target where
  host : String := "localhost"
  port : Nat := 5432
  username : String
  password : Option String := none
  database : Option String := none
  socket : Option String := none
deriving DecidableEq, Repr

namespace Target

def application : String := "taskflow"

/-- The socket of a server on the same machine. -/
def socketPath? (target : Target) : Option String :=
  let directory? := target.socket.or (if target.host.startsWith "/" then some target.host else none)
  directory?.map fun directory =>
    directory ++ "/.s.PGSQL." ++ String.ofList (Text.decimal target.port)

end Target

inductive TargetFault where
  | url (fault : UrlFault)
  | notText (fault : Text.Utf8Fault)
  | number (fault : Text.NumberFault)
  | address
  | encryption (value : String)
deriving DecidableEq, Repr

namespace TargetFault

def heading : String := "error with configuration: "

def texts : TargetFault → List String
  | url fault => [heading ++ fault.text, fault.text]
  | notText fault => [heading ++ fault.text, fault.text]
  | number fault => [heading ++ fault.text, fault.text]
  | address => [heading ++ "invalid IP address syntax", "invalid IP address syntax"]
  | encryption value =>
    let text := "unknown value " ++ Text.quoted value ++ " for `ssl_mode`"
    [heading ++ heading ++ text, heading ++ text, text]

end TargetFault

namespace DatabaseSettings

def set (settings : DatabaseSettings) (entry : Variable) :
    Except SettingFault DatabaseSettings :=
  match entry.field with
  | "url" => return { settings with url := some entry.value }
  | "host" => return { settings with host := entry.value }
  | "port" => return { settings with port := ← entry.number 0xFFFF }
  | "user" => return { settings with user := entry.value }
  | "password" => return { settings with password := entry.value }
  | "database" => return { settings with database := entry.value }
  | "pool_size" => return { settings with poolSize := ← entry.number 0xFFFFFFFF }
  | "acquire_timeout_secs" =>
    return { settings with acquireTimeoutSeconds := ← entry.number 0xFFFFFFFFFFFFFFFF }
  | _ => return settings

def family : Family DatabaseSettings where
  heading := "POSTGRES_"
  fields := ["url", "host", "port", "user", "password", "database", "pool_size",
    "acquire_timeout_secs"]
  defaults := {}
  set := set

def ofEnvironment (environment : Environment) : Except SettingFault DatabaseSettings :=
  family.ofEnvironment environment

def afterLastSign? (text : String) : Option String :=
  let chars := text.toList
  if '@' ∈ chars then some (String.ofList (chars.reverse.takeWhile (· ≠ '@')).reverse) else none

/-- The target with user and password masked. -/
def redacted (settings : DatabaseSettings) : String :=
  match settings.url with
  | some url =>
    match afterLastSign? url with
    | some place => "postgres://***@" ++ place
    | none => url
  | none =>
    "postgres://" ++ settings.user ++ ":***@" ++ settings.host ++ ":" ++
      String.ofList (Text.decimal settings.port) ++ "/" ++ settings.database

def decoded (chars : List Char) : Except TargetFault String :=
  (Url.percentDecode chars).mapError .notText

/-- The host of a URL, which is a socket directory if it stands for a path. -/
def withHost (target : Target) (host : List Char) : Except TargetFault Target :=
  match Url.percentBytes host with
  | 0x2F :: _ => return { target with socket := some (← decoded host) }
  | _ => return { target with host := String.ofList host }

def encryptions : List String :=
  ["disable", "allow", "prefer", "require", "verify-ca", "verify-full"]

def number (limit : Nat) (text : String) : Except TargetFault Nat :=
  (Text.readNatural limit text).mapError .number

/-- What a parameter in the query of a URL changes. -/
def withParameter (target : Target) (parameter : String × String) : Except TargetFault Target :=
  let (name, value) := parameter
  match name with
  | "host" =>
    return if value.startsWith "/" then { target with socket := some value }
      else { target with host := value }
  | "hostaddr" =>
    if Url.isAddress value then return { target with host := value } else throw .address
  | "port" => return { target with port := ← number 0xFFFF value }
  | "dbname" => return { target with database := some value }
  | "user" => return { target with username := value }
  | "password" => return { target with password := some value }
  | "sslmode" | "ssl-mode" =>
    if String.ofList (value.toList.map Char.toLower) ∈ encryptions then return target
    else throw (.encryption value)
  | "statement-cache-capacity" => do
    let _ ← number 0xFFFFFFFFFFFFFFFF value
    return target
  | _ => return target

/-- The target of a URL; the account stands in for a user that is not given. -/
def targetOfUrl (account : String) (url : Url) : Except TargetFault Target := do
  let target : Target := { username := account }
  let target ← match url.host with
    | some host => withHost target host
    | none => pure target
  let target := { target with port := url.port.getD target.port }
  let target ← if url.username.isEmpty then pure target
    else pure { target with username := ← decoded url.username }
  let target ← match url.password with
    | some password => pure { target with password := some (← decoded password) }
    | none => pure target
  let path := url.path.dropWhile (· = '/')
  let target ← if path.isEmpty then pure target
    else pure { target with database := some (← decoded path) }
  (Url.queryPairs (url.query.getD [])).foldlM withParameter target

def target (account : String) (settings : DatabaseSettings) : Except TargetFault Target :=
  match settings.url with
  | some text => do
    let url ← (Url.parse text).mapError .url
    targetOfUrl account url
  | none => return {
      host := settings.host
      port := settings.port
      username := settings.user
      password := some settings.password
      database := some settings.database }

end DatabaseSettings

end Workflow
