import Stepwise.History.Style
import Stepwise.Text.Join

/-!
# The pages of the command line

The command line has a main page and one page for each of its commands. A page knows
its flags, the text of its usage and the text of its help.
-/

namespace Stepwise.Command

/-- How the trace of a run is printed. -/
inductive Format
  | style (s : Style)
  | json
  deriving DecidableEq, Inhabited, Repr

namespace Format

def name : Format → String
  | style .lines => "lines"
  | style .verbose => "verbose"
  | style .chain => "chain"
  | style .compact => "compact"
  | json => "json"

def all : List Format :=
  [style .lines, style .verbose, style .chain, style .compact, json]

def ofName? (s : String) : Option Format := all.find? fun f => f.name = s

end Format

/-- What can be asked for by a flag. -/
inductive Flag
  | help
  | version
  | logLevel
  | format
  | limit
  deriving DecidableEq, Inhabited, Repr

namespace Flag

def takesValue : Flag → Bool
  | help | version => false
  | logLevel | format | limit => true

/-- The flag in all its spellings, as it is named in a report. -/
def label : Flag → String
  | help => "-h/--help"
  | version => "--version"
  | logLevel => "--log-level"
  | format => "-f/--format"
  | limit => "-n/--max-steps"

end Flag

/-- The main page, and a page for each command. -/
inductive Page
  | main
  | list
  | display
  | run
  deriving DecidableEq, Inhabited, Repr

namespace Page

/-- The commands, each with its page. -/
def commands : List (String × Page) := [("list", list), ("show", display), ("run", run)]

def ofCommand? (word : String) : Option Page :=
  (commands.find? fun p => p.1 = word).map (·.2)

def flags : Page → List (String × Flag)
  | main =>
    [("-h", .help), ("--help", .help), ("--log-level", .logLevel), ("--version", .version)]
  | list | display => [("-h", .help), ("--help", .help)]
  | run =>
    [("-h", .help), ("--help", .help), ("-f", .format), ("--format", .format),
      ("-n", .limit), ("--max-steps", .limit)]

def flag? (p : Page) (word : String) : Option Flag :=
  (p.flags.find? fun q => q.1 = word).map (·.2)

/-- Whether a command is followed by the name of a program. -/
def takesName : Page → Bool
  | main | list => false
  | display | run => true

/-- The words with which a page is called. -/
def caller : Page → String
  | main => "smallstep"
  | list => "smallstep list"
  | display => "smallstep show"
  | run => "smallstep run"

/-- The lines that say how a page is called. -/
def usage : Page → List String
  | main =>
    ["usage: smallstep [-h] [--log-level LOG_LEVEL] [--version] \x7blist,show,run\x7d ..."]
  | list => ["usage: smallstep list [-h]"]
  | display => ["usage: smallstep show [-h] name"]
  | run =>
    ["usage: smallstep run [-h] [-f \x7blines,verbose,chain,compact,json\x7d]",
      "                     [-n MAX_STEPS]",
      "                     name"]

/-- The lines of a page's help that follow its usage. -/
def details : Page → List String
  | main =>
    ["",
      "SMALLSTEP - small-step reduction of SIMPLE programs",
      "",
      "positional arguments:",
      "  \x7blist,show,run\x7d",
      "    list                List built-in programs",
      "    show                Show a program and its environment",
      "    run                 Run a program and print its trace",
      "",
      "options:",
      "  -h, --help            show this help message and exit",
      "  --log-level LOG_LEVEL",
      "                        Log level for stderr output (default:",
      "                        $SMALLSTEP_LOG_LEVEL or WARNING)",
      "  --version             show program's version number and exit",
      "",
      "Examples:",
      "  smallstep list                       List programs",
      "  smallstep run increment              Run and print the trace",
      "  smallstep run triple-loop -f chain   Show program rewrites only"]
  | list =>
    ["",
      "options:",
      "  -h, --help  show this help message and exit"]
  | display =>
    ["",
      "positional arguments:",
      "  name        Program name",
      "",
      "options:",
      "  -h, --help  show this help message and exit"]
  | run =>
    ["",
      "positional arguments:",
      "  name                  Program name",
      "",
      "options:",
      "  -h, --help            show this help message and exit",
      "  -f \x7blines,verbose,chain,compact,json\x7d, "
        ++ "--format \x7blines,verbose,chain,compact,json\x7d",
      "                        Trace format",
      "  -n MAX_STEPS, --max-steps MAX_STEPS",
      "                        Stop with an error after this many steps"]

def help (p : Page) : String := Text.lines (p.usage ++ p.details)

end Page

end Stepwise.Command
