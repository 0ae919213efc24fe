import Surd.CommandLine.Grammar

/-! The texts of the command line's help. -/

namespace Surd.CommandLine

inductive CommandName where
  | primes
  | isprime
  | factor
  | isqrt
  | sqrt
  deriving DecidableEq, Repr

namespace CommandName

def all : List CommandName := [.primes, .isprime, .factor, .isqrt, .sqrt]

def text : CommandName → String
  | .primes => "primes"
  | .isprime => "isprime"
  | .factor => "factor"
  | .isqrt => "isqrt"
  | .sqrt => "sqrt"

def ofText? (name : String) : Option CommandName := all.find? fun command => command.text == name

def operand : CommandName → String
  | .sqrt => "R"
  | _ => "N"

end CommandName

def programName : String := "exactsqrt"

def version : String := "1.0.0"

def lines (texts : List String) : String := String.join (texts.map fun text => text ++ "\n")

def mainUsage : String :=
  lines [
    "usage: exactsqrt [-h] [--version] [--config CONFIG] [--output OUTPUT]",
    "                 [--no-color] [--debug]",
    "                 COMMAND ..."]

def mainBody : String :=
  lines [
    "",
    "Exact square roots of rationals over a 32-bit prime table",
    "",
    "positional arguments:",
    "  COMMAND",
    "    primes         print all primes <= N as a table",
    "    isprime        test N for primality",
    "    factor         prime factorization of N >= 2",
    "    isqrt          floor of the square root of N",
    "    sqrt           exact square root of a rational R (e.g. 12 or 1/2)",
    "",
    "options:",
    "  -h, --help       show this help message and exit",
    "  --version        show program's version number and exit",
    "  --config CONFIG  Settings TOML file (default: workspace settings.toml)",
    "  --output OUTPUT  Also write the result to a file (workspace-relative)",
    "  --no-color       Disable colored output",
    "  --debug          Show internal trace info and full tracebacks",
    "",
    "examples:",
    "  exactsqrt primes 100 --per-row 5",
    "  exactsqrt factor 4294967295",
    "  exactsqrt sqrt 64/25",
    "  exactsqrt --debug sqrt 1/2",
    "  exactsqrt sqrt -- -3/4        (negative R must follow \"--\")",
    "",
    "settings:",
    "  Read from <workspace>/settings.toml (EXACTSQRT_HOME overrides the",
    "  workspace location) or from --config PATH."]

def mainGrammar : Grammar where
  program := programName
  flags := [.help, .version, .config, .output, .noColor, .debug]
  usage := mainUsage
  help := mainUsage ++ mainBody

def CommandName.flags : CommandName → List Flag
  | .primes => [.perRow]
  | .sqrt => [.pretty]
  | _ => []

def CommandName.usage (command : CommandName) : String :=
  let options := match command with
    | .primes => " [--per-row PER_ROW]"
    | .sqrt => " [--pretty]"
    | _ => ""
  lines [s!"usage: {programName} {command.text} [-h]{options} {command.operand}"]

def CommandName.body : CommandName → String
  | .primes =>
    lines [
      "",
      "positional arguments:",
      "  N",
      "",
      "options:",
      "  -h, --help         show this help message and exit",
      "  --per-row PER_ROW  primes per line"]
  | .sqrt =>
    lines [
      "",
      "positional arguments:",
      "  R           rational a or a/b; write negative values after \"--\"",
      "",
      "options:",
      "  -h, --help  show this help message and exit",
      "  --pretty    render with sympy's pretty printer"]
  | _ =>
    lines [
      "",
      "positional arguments:",
      "  N",
      "",
      "options:",
      "  -h, --help  show this help message and exit"]

def CommandName.grammar (command : CommandName) : Grammar where
  program := programName ++ " " ++ command.text
  flags := .help :: command.flags
  usage := command.usage
  help := command.usage ++ command.body

end Surd.CommandLine
