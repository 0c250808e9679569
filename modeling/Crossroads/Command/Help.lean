import Crossroads.Command.Line

/-!
# Help

What the program says about its own use, and about arguments that make no call.
-/

namespace Crossroads.Command

/-- How the program is called. -/
def help : String :=
  "\n".intercalate [
    "Builds the routing sections of region files.",
    "",
    "init CONTAINER [--features FILE]",
    "routing CONTAINER --country NAME --features FILE",
    "cross-mwm CONTAINER --country NAME --features FILE [--data-dir DIRECTORY]",
    "info CONTAINER",
    "",
    "--config FILE  settings in TOML",
    "--json         info in JSON",
    ""]

/-- What is wrong with the arguments. -/
def Usage.message : Usage → String
  | help => "help was asked for"
  | helpForNothing => "no arguments"
  | unknownCommand => "unknown command"
  | missingCommand => "a command is missing"
  | missingArgument => "an argument is missing"
  | unknownArgument => "unexpected argument"
  | badValue => "bad value"
  | repeated => "an option stands twice"
  | needlessValue => "a flag takes no value"

end Crossroads.Command
