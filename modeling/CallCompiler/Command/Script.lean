import CallCompiler.Command.Request
import CallCompiler.Console.Markup
import CallCompiler.Engine
import CallCompiler.Settings.Lookup
import CallCompiler.Text.Newline

/-!
The compile command as a list of steps: messages, files to write, and text to print. Carrying them out stops
at the first file that cannot be written and at the first message that cannot be shown.
-/
namespace CallCompiler.Command

open Console (Entry say escape pathMarkup)

inductive Step
  | log (entry : Entry)
  | write (path : Files.Path) (text : String)
  | print (text : String)

inductive Ending
  | exit (code : Nat)
  | fileFault (path : Files.Path) (fault : Files.Fault)
  | inputFault (fault : Text.Utf8.Fault)
  /-- An output was asked for without a place for it. -/
  | noPlace
  | unshown (entry : Entry) (fault : Console.MarkupFault)
  deriving DecidableEq, Repr

def noPlaceMessage : String := "'list' object has no attribute 'write_text'"

structure Script where
  steps : List Step
  ending : Ending

inductive SourceFault
  | file (path : Files.Path) (fault : Files.Fault)
  | content (path : Files.Path) (fault : Text.Utf8.Fault)
  | input (fault : Text.Utf8.Fault)

def readText (bytes : List UInt8) : Except Text.Utf8.Fault String :=
  (Text.Utf8.decode bytes).map fun s => String.ofList (Text.unifyNewlines s.toList)

def sourceText (read : Files.Path → Except Files.Fault Files.Bytes) (input : List UInt8)
    (request : Request) : Except SourceFault String :=
  match request.code, request.path with
  | some code, _ => .ok code
  | none, some path =>
    match read path with
    | .error fault => .error (.file path fault)
    | .ok bytes => (readText bytes).mapError (.content path)
  | none, none => (readText input).mapError .input

def complain (message : String) : Step := .log (say .error message)

def cannotRead (path : Files.Path) (message : String) : Script :=
  ⟨[complain ("Cannot read " ++ pathMarkup path.text ++ ": " ++ escape message)], .exit 1⟩

def SourceFault.script : SourceFault → Script
  | .file path .unusable => ⟨[], .fileFault path .unusable⟩
  | .file path fault => cannotRead path (fault.message path.text)
  | .content path fault => cannotRead path fault.message
  | .input fault => ⟨[], .inputFault fault⟩

/-- A format that is given without a value is an empty list of values, which no setting has. -/
def formatValue : Option Settings.Format → Settings.Value
  | some f => .text f.label
  | none => .list []

def Request.overrides (request : Request) : Settings.Entries :=
  (request.format.map fun f => ("output_format", formatValue f)).toList ++
    (request.traceFile.map fun _ => ("trace", Settings.Value.bool true)).toList

def writeSteps (path : Files.Path) (text : String) (message : String → Entry) : List Step :=
  [.write path text, .log (message (pathMarkup path.text))]

def outputScript (out : Option (Option Files.Path)) (output : String) : Script :=
  match out with
  | none => ⟨[.print output], .exit 0⟩
  | some none => ⟨[], .noPlace⟩
  | some (some path) => ⟨writeSteps path output fun path => say .success ("Wrote " ++ path), .exit 0⟩

def resultScript (request : Request) (stamps : Trace.Stamps) (result : Engine.Result) : Script :=
  let traceSteps :=
    match request.traceFile with
    | none => []
    | some path =>
      writeSteps path ((Trace.toJson stamps result.events).dump 2)
        fun path => say .info ("Trace written to " ++ path)
  if result.success then
    let script := outputScript request.out (result.code ++ "\n")
    { script with steps := traceSteps ++ script.steps }
  else ⟨traceSteps ++ result.errors.map (fun e => complain (escape e)), .exit 1⟩

/-- What a run takes as it is given: what is said of a text that is no document, and what the console knows
about styles. -/
structure Environment where
  wording : String → String
  styles : Console.Styles

def compileScript (env : Environment) (request : Request) (stamps : Trace.Stamps)
    (source : Except SourceFault String) (file : Option Settings.File) : Script :=
  match source with
  | .error fault => fault.script
  | .ok source =>
    let loaded := Settings.load env.wording file request.overrides
    let logs := loaded.logs.map Step.log
    match loaded.result with
    | .error fault =>
      ⟨logs ++ [complain ("Invalid configuration: " ++ escape fault.message)], .exit 1⟩
    | .ok settings =>
      let script := resultScript request stamps (Engine.run settings source)
      { script with steps := logs ++ script.steps }

structure Outcome where
  tree : Files.Tree
  logs : List Entry
  output : String
  usage : Option String
  ending : Ending

def Outcome.of (tree : Files.Tree) (ending : Ending) : Outcome := ⟨tree, [], "", none, ending⟩

/-- Carries out the steps of a script. A message that cannot be shown ends the run. -/
def perform (styles : Console.Styles) (ending : Ending) : List Step → Outcome → Outcome
  | [], o => { o with ending }
  | .log entry :: steps, o =>
    match styles.fault? entry.message with
    | none => perform styles ending steps { o with logs := o.logs ++ [entry] }
    | some fault => { o with ending := .unshown entry fault }
  | .print text :: steps, o => perform styles ending steps { o with output := o.output ++ text }
  | .write path text :: steps, o =>
    match o.tree.write path (Text.Utf8.encode text) with
    | .ok tree => perform styles ending steps { o with tree }
    | .error fault => { o with ending := .fileFault path fault }

def runCompile (env : Environment) (tree : Files.Tree) (input : List UInt8) (stamps : Trace.Stamps)
    (request : Request) : Outcome :=
  let source := sourceText tree.read input request
  let file := (Settings.find? tree tree.here).map Prod.snd
  let script := compileScript env request stamps source file
  perform env.styles script.ending script.steps (.of tree (.exit 0))

def run (env : Environment) (tree : Files.Tree) (input : List UInt8) (stamps : Trace.Stamps)
    (words : List String) : Outcome :=
  match interpret words with
  | .compile request => runCompile env tree input stamps request
  | .inform text => { Outcome.of tree (.exit 0) with output := text }
  | .refuse level refusal =>
    { Outcome.of tree (.exit 2) with usage := some (refusalText level refusal) }

end CallCompiler.Command
