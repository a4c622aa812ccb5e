import Workflow.CommandLine.Command

/-! The texts that explain the program. -/

namespace Workflow

def Topic.lines : Topic → List String
  | program => [
      "Taskflow workflow engine",
      "",
      "Usage: taskflow <COMMAND>",
      "",
      "Commands:",
      "  validate  Parse and validate definition files",
      "  simulate  Run a definition, completing every pending task until the instance ends",
      "  help      Print this message or the help of the given subcommand(s)",
      "",
      "Options:",
      "  -h, --help     Print help",
      "  -V, --version  Print version"]
  | validate => [
      "Parse and validate definition files",
      "",
      "Usage: taskflow validate <FILE>...",
      "",
      "Arguments:",
      "  <FILE>...  Definition files (.yaml, .yml or .json)",
      "",
      "Options:",
      "  -h, --help  Print help"]
  | simulate => [
      "Run a definition, completing every pending task until the instance ends",
      "",
      "Usage: taskflow simulate [OPTIONS] --as <PRINCIPAL> <FILE>",
      "",
      "Arguments:",
      "  <FILE>  Definition file",
      "",
      "Options:",
      "      --data <JSON>            Initial instance data as a JSON object [default: \x7b\x7d]",
      "      --as <PRINCIPAL>         Principal starting the instance",
      "      --directory <YAML>       Role table (YAML); overrides TASKFLOW_DIRECTORY_FILE",
      "      --complete <STEP=JSON>   Completion data for a step, can be repeated",
      "      --max-steps <MAX_STEPS>  Stop after this many task completions [default: 100]",
      "  -h, --help                   Print help"]
  | help => [
      "Print this message or the help of the given subcommand(s)",
      "",
      "Usage: taskflow help [COMMAND]...",
      "",
      "Arguments:",
      "  [COMMAND]...  Print help for the subcommand(s)"]

def versionLine : String := "taskflow 0.3.0"

end Workflow
