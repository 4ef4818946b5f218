import BuildTree.Cli.Arguments

/-!
# Usage texts

What the program says about its own command line.
-/

namespace BuildTree.Cli

def usage : String :=
  "Usage: buildspy [OPTIONS] <COMMAND>\n" ++
  "\n" ++
  "Commands:\n" ++
  "  parse [FILE] [--json] [--no-output] [--strict]   Show a build log as a tree of events\n" ++
  "  completion <SHELL>                               Print a completion script\n" ++
  "  help [COMMAND]                                   Print this text\n" ++
  "\n" ++
  "Options:\n" ++
  "  -v, --verbose          Say more\n" ++
  "  -q, --quiet            Say less\n" ++
  "      --config <PATH>    Read settings from this file\n" ++
  "      --log-file <DIR>   Write the log into this directory\n" ++
  "  -h, --help             Print this text\n" ++
  "  -V, --version          Print the version\n"

def version : String := "buildspy 0.3.0\n"

def UsageError.message : UsageError → String
  | .unknownArgument => "unexpected argument"
  | .conflict => "an option is repeated or excluded by another one"
  | .invalidValue => "a value is missing or not accepted"
  | .unexpectedValue => "an option without value was given one"
  | .unknownCommand => "unknown command"
  | .missingCommand => "a command is missing"
  | .missingRequired => "a required argument is missing"
  | .help => "help was asked for"
  | .version => "the version was asked for"
  | .nothingGiven => "no arguments were given"

end BuildTree.Cli
