/-!
The texts that the command line shows about itself.
-/
namespace CallCompiler.Command

def versionText : String := "lisp-to-c 0.1.0\n"

/-- A level of the command line: the program itself, or its one command. -/
inductive Level
  | program
  | compile
  deriving DecidableEq, Repr

def Level.name : Level → String
  | .program => "lisp-to-c"
  | .compile => "lisp-to-c compile"

def Level.usage : Level → String
  | .program => "usage: lisp-to-c [-h] [--version] \x7bcompile\x7d ...\n"
  | .compile =>
    "usage: lisp-to-c compile [-h] [--code CODE] [--out OUT]\n" ++
    "                         [--format \x7bcode,tokens,ast,target_ast\x7d]\n" ++
    "                         [--json-trace JSON_TRACE]\n" ++
    "                         [path]\n"

def Level.help : Level → String
  | .program =>
    Level.program.usage ++ "\n" ++
    "lisp-to-c: Prefix to Infix Call Compiler\n" ++
    "\n" ++
    "positional arguments:\n" ++
    "  \x7bcompile\x7d\n" ++
    "    compile   Compile a source file, inline code, or stdin\n" ++
    "\n" ++
    "options:\n" ++
    "  -h, --help  show this help message and exit\n" ++
    "  --version   show program's version number and exit\n"
  | .compile =>
    Level.compile.usage ++ "\n" ++
    "positional arguments:\n" ++
    "  path                  Input source file (default: stdin)\n" ++
    "\n" ++
    "options:\n" ++
    "  -h, --help            show this help message and exit\n" ++
    "  --code CODE           Inline source text\n" ++
    "  --out OUT             Output file (default: stdout)\n" ++
    "  --format \x7bcode,tokens,ast,target_ast\x7d\n" ++
    "                        Stage output to emit (default: from toml, else 'code')\n" ++
    "  --json-trace JSON_TRACE\n" ++
    "                        Dump stage trace events to a JSON file.\n"

end CallCompiler.Command
