import CallCompiler.Command.Help
import CallCompiler.Command.Words
import CallCompiler.Files.Path
import CallCompiler.Settings.Basic
import CallCompiler.Text.Quoted

/-!
What a command line asks for.
-/
namespace CallCompiler.Command

open Settings (Format)

/-- What to compile and where the results go. An output or a format that is given without a value counts
as given. -/
structure Request where
  path : Option Files.Path := none
  code : Option String := none
  out : Option (Option Files.Path) := none
  format : Option (Option Format) := none
  traceFile : Option Files.Path := none
  deriving DecidableEq, Repr

inductive Refusal
  | ambiguous (word : Ambiguity)
  | noCommand
  | badCommand (word : String)
  | unrecognized (words : List String)
  | noValue (option : String)
  | ignored (option : String) (text : String)
  | badFormat (word : String)
  | conflict (later earlier : String)

def choices (labels : List String) : String := Text.join ", " (labels.map Text.quoted)

def Refusal.message : Refusal → String
  | .ambiguous word => word.message
  | .noCommand => "the following arguments are required: command"
  | .badCommand word =>
    "argument command: invalid choice: " ++ Text.quoted word ++ " (choose from " ++
      choices ["compile"] ++ ")"
  | .unrecognized words => "unrecognized arguments: " ++ Text.join " " words
  | .noValue option => "argument " ++ option ++ ": expected one argument"
  | .ignored option text =>
    "argument " ++ option ++ ": ignored explicit argument " ++ Text.quoted text
  | .badFormat word =>
    "argument --format: invalid choice: " ++ Text.quoted word ++ " (choose from " ++
      choices (Format.all.map Format.label) ++ ")"
  | .conflict later earlier => "argument " ++ later ++ ": not allowed with argument " ++ earlier

inductive Invocation
  | compile (request : Request)
  | inform (text : String)
  | refuse (level : Level) (refusal : Refusal)

inductive Flag
  | help
  | code
  | out
  | format
  | traceFile
  deriving DecidableEq, Repr

def Flag.names : Names Flag :=
  [("-h", .help), ("--help", .help), ("--code", .code), ("--out", .out), ("--format", .format),
    ("--json-trace", .traceFile)]

def Flag.label : Flag → String
  | .help => "-h/--help"
  | .code => "--code"
  | .out => "--out"
  | .format => "--format"
  | .traceFile => "--json-trace"

/-- A request as far as the words have been read, whether the place of the path is taken, and the words
that nothing takes. -/
structure Draft where
  request : Request
  pathTaken : Bool
  extras : List String

namespace Draft

def empty : Draft := ⟨{}, false, []⟩

def extra (d : Draft) (word : String) : Draft := { d with extras := d.extras ++ [word] }

/-- Gives an option its value, if there is one: no value is the same as an empty one for code, and takes
back a trace file. -/
def setValue (d : Draft) (flag : Flag) (value : Option String) : Except Refusal Draft :=
  match flag with
  | .help => .ok d
  | .code =>
    if d.request.path.isSome then .error (.conflict "--code" "path")
    else .ok { d with request.code := some (value.getD "") }
  | .out => .ok { d with request.out := some (value.map .ofString) }
  | .format =>
    match value with
    | none => .ok { d with request.format := some none }
    | some label =>
      match Format.ofLabel? label with
      | some f => .ok { d with request.format := some (some f) }
      | none => .error (.badFormat label)
  | .traceFile => .ok { d with request.traceFile := value.map .ofString }

def setPath (d : Draft) (value : String) : Except Refusal Draft :=
  if d.request.code.isSome then .error (.conflict "path" "--code")
  else .ok { d with request.path := some (.ofString value), pathTaken := true }

end Draft

inductive Reading
  | draft (draft : Draft)
  | help

def readCompile (d : Draft) : List (Word Flag × String) → Except Refusal Reading
  | [] => .ok (.draft d)
  | (.option none _, word) :: rest => readCompile (d.extra word) rest
  | (.option (some .help) attached, _) :: _ =>
    match leftover attached with
    | some text => .error (.ignored Flag.help.label text)
    | none => .ok .help
  | (.option (some flag) (some attached), _) :: rest => do
    readCompile (← d.setValue flag attached.value?) rest
  | (.option (some flag) none, _) :: (.plain value, _) :: rest => do
    readCompile (← d.setValue flag (some value)) rest
  | (.option (some flag) none, _) :: _ => .error (.noValue flag.label)
  | (.hyphens, word) :: rest =>
    if d.pathTaken then readCompile (d.extra word) rest
    else
      match rest with
      | (_, value) :: rest => do readCompile (← d.setPath value) rest
      | [] => .ok (.draft d)
  | (.plain value, word) :: rest =>
    if d.pathTaken then readCompile (d.extra word) rest
    else
      match rest with
      | (.hyphens, _) :: rest => do readCompile (← d.setPath value) rest
      | rest => do readCompile (← d.setPath value) rest

def compileInvocation (extras : List String) (words : List String) : Invocation :=
  match classifyAll Flag.names words with
  | .error a => .refuse .compile (.ambiguous a)
  | .ok words =>
    match readCompile .empty words with
    | .error refusal => .refuse .compile refusal
    | .ok .help => .inform Level.compile.help
    | .ok (.draft d) =>
      match extras ++ d.extras with
      | [] => .compile d.request
      | unused => .refuse .program (.unrecognized unused)

inductive ProgramFlag
  | help
  | version
  deriving DecidableEq, Repr

def ProgramFlag.names : Names ProgramFlag :=
  [("-h", .help), ("--help", .help), ("--version", .version)]

def ProgramFlag.label : ProgramFlag → String
  | .help => "-h/--help"
  | .version => "--version"

def ProgramFlag.text : ProgramFlag → String
  | .help => Level.program.help
  | .version => versionText

def readProgram (extras : List String) : List (Word ProgramFlag × String) → Invocation
  | [] => .refuse .program .noCommand
  | (.option none _, word) :: rest => readProgram (extras ++ [word]) rest
  | (.option (some flag) attached, _) :: _ =>
    match leftover attached with
    | some text => .refuse .program (.ignored flag.label text)
    | none => .inform flag.text
  | [(.hyphens, _)] => .refuse .program .noCommand
  | (.hyphens, word) :: _ => .refuse .program (.badCommand word)
  | (.plain word, _) :: rest =>
    if word = "compile" then compileInvocation extras (rest.map Prod.snd)
    else .refuse .program (.badCommand word)

def interpret (words : List String) : Invocation :=
  match classifyAll ProgramFlag.names words with
  | .error a => .refuse .program (.ambiguous a)
  | .ok words => readProgram [] words

def refusalText (level : Level) (refusal : Refusal) : String :=
  level.usage ++ level.name ++ ": error: " ++ refusal.message ++ "\n"

end CallCompiler.Command
