/-!
# Usage

The texts that tell how the command line is used.
-/

namespace Accumulator.CommandLine

/-- Lines as a text, each closed by a line feed. -/
def block (rows : List String) : String :=
  String.join (rows.map (· ++ "\n"))

/-- The short form, which also goes in front of every complaint. -/
def usage : String :=
  block [
    "usage: salsim [-h] [--batch-size BATCH_SIZE] [--dump-format \x7btext,json\x7d]",
    "              [--trace] [--verbose] [--quiet] [--log-file LOG_FILE]",
    "              [--version]",
    "              [program]"]

/-- The long form. -/
def help : String :=
  usage ++ block [
    "",
    "SAL accumulator machine simulator",
    "",
    "positional arguments:",
    "  program               SAL program file (prompted for if omitted)",
    "",
    "options:",
    "  -h, --help            show this help message and exit",
    "  --batch-size BATCH_SIZE",
    "                        Instructions per run batch (default: 1000)",
    "  --dump-format \x7btext,json\x7d",
    "                        State dump format (default: text)",
    "  --trace               Print the instruction trace when the session ends",
    "  --verbose, -v         Increase log verbosity (-v, -vv)",
    "  --quiet, -q           Only log errors",
    "  --log-file LOG_FILE   Write a DEBUG log to this file",
    "  --version             show program's version number and exit",
    "",
    "commands at the prompt: s/step, a/run, q/quit"]

/-- The version of the program. -/
def versionNumber : String := "1.0.0"

/-- The name and version of the program. -/
def version : String := block ["salsim " ++ versionNumber]

/-- A complaint about the command line. -/
def complaint (message : String) : String :=
  usage ++ block ["salsim: error: " ++ message]

end Accumulator.CommandLine
