import Workflow.CommandLine.Help
import Workflow.CommandLine.Simulation
import Workflow.CommandLine.Validation
import Workflow.Service.Basic
import Workflow.Settings.Engine

/-! The program as a whole: settings from the environment, a command from the arguments, and what
comes of it. -/

namespace Workflow

structure Surroundings where
  environment : Environment := []
  files : Files := []
  servers : Servers := []
  account : String := ""
  clock : Timestamp := .epoch
  nextId : Nat := 0

namespace Surroundings

/-- The store that the settings ask for, and the server it is on. -/
def openStore (surroundings : Surroundings) (settings : EngineSettings) :
    Except CommandFault (Option String × Store) :=
  match settings.store with
  | .memory => .ok (none, .memory {})
  | .postgres => do
    let settings := (DatabaseSettings.ofEnvironment surroundings.environment).toOption.getD {}
    let (path, database) ←
      (surroundings.servers.connect surroundings.account settings).mapError .connection
    let (result, database) := Database.ensureSchema database
    result.mapError .operation
    return (some path, .relational database)

/-- The surroundings after a service has run in them. -/
def afterService (surroundings : Surroundings) (server : Option String) (service : Service) :
    Surroundings :=
  let surroundings := { surroundings with nextId := service.nextId }
  match server, service.store with
  | some path, .relational database =>
    { surroundings with servers := surroundings.servers.update path database }
  | _, _ => surroundings

def simulate (surroundings : Surroundings) (settings : EngineSettings) (options : SimulateOptions) :
    Outcome × Surroundings :=
  let begun : Except CommandFault (Plan × Option String × Store) := do
    let plan ← Simulation.plan surroundings.files settings.directoryFile options
    return (plan, ← surroundings.openStore settings)
  match begun with
  | .error fault => ({ code := 1, errors := fault.lines }, surroundings)
  | .ok (plan, server, store) =>
    let service : Service :=
      { store
        directory := { directory := plan.directory }
        patience := ⟨settings.persistenceTimeout, settings.notificationTimeout⟩
        clock := surroundings.clock
        nextId := surroundings.nextId }
    let program := (Simulation.simulate surroundings.files options.file plan).run.run []
    let ((result, events), service) := service.runProgram program
    let output := events.map SimulationEvent.text
    let surroundings := surroundings.afterService server service
    match result with
    | .ok () => ({ output }, surroundings)
    | .error fault => ({ code := 1, output, errors := fault.lines }, surroundings)

def invoke (surroundings : Surroundings) (settings : EngineSettings) :
    Invocation → Outcome × Surroundings
  | .run (.validate files) => (Validation.run surroundings.files files, surroundings)
  | .run (.simulate options) => surroundings.simulate settings options
  | .help topic => ({ output := topic.lines }, surroundings)
  | .version => ({ output := [versionLine] }, surroundings)
  | .misuse => ({ code := 2 }, surroundings)

/-- Runs the program. Settings that cannot be read are replaced by the defaults. -/
def run (surroundings : Surroundings) (arguments : List String) : Outcome × Surroundings :=
  let (settings, complaint) : EngineSettings × List String :=
    match EngineSettings.ofEnvironment surroundings.environment with
    | .ok settings => (settings, [])
    | .error fault => ({}, ["Failed to load engine config, using defaults: " ++ fault.text])
  let invocation := Invocation.ofArguments arguments
  let (outcome, surroundings) := surroundings.invoke settings invocation
  if invocation = .misuse then (outcome, surroundings)
  else ({ outcome with errors := complaint ++ outcome.errors }, surroundings)

end Surroundings

end Workflow
