import CallCompiler.Command.Script
import CallCompiler.Console.Display

/-!
The program: a command line on the files of the machine it runs on.
-/
namespace CallCompiler.Program

def faultOf : IO.Error → Files.Fault
  | .noFileOrDirectory .. | .noSuchThing .. => .missing
  | .inappropriateType _ code _ => if code = 20 ∨ 0 - code = 20 then .notFolder else .isFolder
  | .permissionDenied .. => .refused ⟨13, "Permission denied"⟩
  | .invalidArgument .. | .resourceExhausted .. => .nameTooLong
  | _ => .refused ⟨5, "Input/output error"⟩

def readFile (path : String) : IO (Except Files.Fault Files.Bytes) := do
  if path.toList.contains '\x00' then return .error .unusable
  try
    let bytes ← IO.FS.readBinFile path
    return .ok bytes.toList
  catch e => return .error (faultOf e)

def writeFile (path : String) (bytes : Files.Bytes) : IO (Except Files.Fault Unit) := do
  if path.toList.contains '\x00' then return .error .unusable
  try
    IO.FS.writeBinFile path bytes.toByteArray
    return .ok ()
  catch e => return .error (faultOf e)

def openProject (folder : Files.Place) : IO (Option Settings.File) := do
  let path := Files.placeText (folder ++ [Settings.fileName])
  match ← readFile path with
  | .error .missing | .error .notFolder | .error .isFolder => return none
  | content => return some ⟨path, content⟩

partial def readInput (input : IO.FS.Stream) (before : ByteArray) : IO ByteArray := do
  let bytes ← input.read 65536
  if bytes.isEmpty then return before else readInput input (before ++ bytes)

def readSource (request : Command.Request) : IO (Except Command.SourceFault String) := do
  match request.code, request.path with
  | none, some path =>
    let content ← readFile path.text
    return Command.sourceText (fun _ => content) [] request
  | none, none =>
    let bytes ← readInput (← IO.getStdin) .empty
    return Command.sourceText (fun _ => .error .missing) bytes.toList request
  | some _, _ => return Command.sourceText (fun _ => .error .missing) [] request

def finish : Command.Ending → IO UInt32
  | .exit code => return code.toUInt32
  | .fileFault path fault => do
    IO.eprintln (fault.message path.text)
    return 1
  | .inputFault fault => do
    IO.eprintln fault.message
    return 1
  | .noPlace => do
    IO.eprintln Command.noPlaceMessage
    return 1
  | .unshown _ fault => do
    IO.eprintln fault.message
    return 1

/-- Names of styles without regard to case and blanks around them, and no handlers. -/
def environment : Command.Environment where
  wording _ := "not a valid TOML document"
  styles :=
    { normal name := String.ofList (Text.lower (Text.trim Text.isBlank name.toList))
      handlerFault? _ := none }

def perform (ending : Command.Ending) : List Command.Step → IO UInt32
  | [] => finish ending
  | .log entry :: steps => do
    match environment.styles.fault? entry.message with
    | none =>
      IO.eprintln entry.line
      perform ending steps
    | some fault => finish (.unshown entry fault)
  | .print text :: steps => do
    IO.print text
    perform ending steps
  | .write path text :: steps => do
    match ← writeFile path.text (Text.Utf8.encode text) with
    | .ok () => perform ending steps
    | .error fault => finish (.fileFault path fault)

def compile (request : Command.Request) : IO UInt32 := do
  let source ← readSource request
  let folder := (Files.Path.ofString (← IO.currentDir).toString).parts
  let project ← Files.nearestAbove openProject folder.reverse
  let now ← IO.monoMsNow
  let stamps : Trace.Stamps :=
    ⟨fun n => "event-" ++ toString now ++ "-" ++ toString n, fun _ => (now, 3)⟩
  let script := Command.compileScript environment request stamps source (project.map Prod.snd)
  perform script.ending script.steps

end CallCompiler.Program

def main (words : List String) : IO UInt32 := do
  match CallCompiler.Command.interpret words with
  | .compile request => CallCompiler.Program.compile request
  | .inform text =>
    IO.print text
    return 0
  | .refuse level refusal =>
    IO.eprint (CallCompiler.Command.refusalText level refusal)
    return 2
