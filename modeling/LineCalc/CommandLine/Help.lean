/-!
# LineCalc — help on the command line

What is printed where help is asked for: on the whole command line, or behind one of its verbs.
-/

namespace LineCalc

/-- What help is asked for. -/
inductive HelpTopic where
  | whole
  | session
  | clear
deriving DecidableEq

namespace HelpTopic

/-- How a command line is made up. -/
def usage : HelpTopic → List String
  | whole => [
      "usage: rcalc [-h] [-e EVAL_EXPR] [--format \x7bjson,human\x7d] [-p PRECISION] [-v]",
      "             [--log-level \x7bDEBUG,INFO,WARNING,ERROR\x7d] [--log-file LOG_FILE]",
      "             [--health-check]",
      "             \x7brun,clear\x7d ..."]
  | session => ["usage: rcalc run [-h] [--plain] [--no-save] [--plot-file PLOT_FILE]"]
  | clear => ["usage: rcalc clear [-h]"]

/-- What its parts mean. -/
def parts : HelpTopic → List String
  | whole => [
      "Expression calculator with variables and a vi-style editor",
      "",
      "positional arguments:",
      "  \x7brun,clear\x7d",
      "    run                 Start an interactive session (default)",
      "    clear               Remove the saved state",
      "",
      "options:",
      "  -h, --help            show this help message and exit",
      "  -e EVAL_EXPR, --eval EVAL_EXPR",
      "                        Evaluate one expression and exit (non-interactive)",
      "  --format \x7bjson,human\x7d",
      "                        Output format for --eval: json (machine-readable) or",
      "                        human (human-readable)",
      "  -p PRECISION, --precision PRECISION",
      "                        Set output precision (significant digits)",
      "  -v, --version         Show program version",
      "  --log-level \x7bDEBUG,INFO,WARNING,ERROR\x7d",
      "                        Set logging level",
      "  --log-file LOG_FILE   Write logs to file",
      "  --health-check        Run health check and verify dependencies"]
  | session => [
      "rcalc run: interactive session",
      "",
      "options:",
      "  -h, --help            show this help message and exit",
      "  --plain               Use the line-based REPL instead of the terminal UI",
      "  --no-save             Do not save state after each evaluation",
      "  --plot-file PLOT_FILE",
      "                        Default image path for 'plot'"]
  | clear => [
      "rcalc clear: remove the saved state",
      "",
      "options:",
      "  -h, --help  show this help message and exit"]

/-- **The help on a topic**, line by line. -/
def lines (t : HelpTopic) : List String :=
  t.usage ++ "" :: t.parts

end HelpTopic

end LineCalc
