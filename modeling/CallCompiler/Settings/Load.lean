import CallCompiler.Console.Log
import CallCompiler.Files.Tree
import CallCompiler.Settings.Validate
import CallCompiler.Text.Utf8
import CallCompiler.Toml.Document

/-!
Settings from a project file, with values that override it. A file that cannot be opened or is not a document
only gives a warning; a file that is not text is a fault. What the warning says about a text that is no
document is left open: it is a parameter, the wording.
-/
namespace CallCompiler.Settings

open Console

def fileName : String := "pyproject.toml"

/-- The table inside of the table `tool` that settings stand in. -/
def sectionName : String := "lisp_to_c"

structure File where
  path : String
  content : Except Files.Fault Files.Bytes

inductive LoadFault
  | undecodable (fault : Text.Utf8.Fault)
  /-- A number has this many digits, which are too many. -/
  | unreadableNumber (count : Nat)
  | invalid (problems : List Problem)

def LoadFault.message : LoadFault → String
  | .undecodable fault => fault.message
  | .unreadableNumber count => Toml.oversizedMessage count
  | .invalid problems => Problem.report problems

structure Section where
  entries : Entries
  readable : Bool
  logs : List Entry

def warn (message : String) : Entry := ⟨.warning, message⟩

def couldNotRead (path reason : String) : Entry := warn ("Could not read " ++ path ++ ": " ++ reason)

def Section.ofDocument (path : String) (document : Entries) : Section :=
  match (document.get? "tool").getD (.table []) with
  | .table tool =>
    match (Entries.get? tool sectionName).getD (.table []) with
    | .table entries => ⟨entries, true, []⟩
    | _ => ⟨[], true, [warn ("Ignoring non-table [tool." ++ sectionName ++ "] in " ++ path)]⟩
  | _ => ⟨[], true, []⟩

def Section.read (wording : String → String) : Option File → Except LoadFault Section
  | none => .ok ⟨[], false, []⟩
  | some ⟨path, .error fault⟩ => .ok ⟨[], false, [couldNotRead path (fault.message path)]⟩
  | some ⟨path, .ok bytes⟩ =>
    match Text.Utf8.decode bytes with
    | .error fault => .error (.undecodable fault)
    | .ok text =>
      match Toml.parse text with
      | .ok document => .ok (.ofDocument path document)
      | .error .malformed => .ok ⟨[], false, [couldNotRead path (wording text)]⟩
      | .error (.tooManyDigits count) => .error (.unreadableNumber count)

/-- The values of a section with overrides; an override that is null does not count. -/
def merged (entries overrides : Entries) : Entries :=
  overrides.foldl (fun es (key, v) => match v with | .null => es | v => es.insert key v) entries

def isKnown (key : String) : Bool := Field.all.any fun f => f.name == key

def unknownKeys (entries : Entries) : List Entry :=
  let messages := (entries.filter fun (key, _) => !isKnown key).map fun (key, _) =>
    "Ignoring unknown config key '" ++ key ++ "'"
  (messages.mergeSort fun a b => decide (a ≤ b)).map warn

structure Loaded where
  logs : List Entry
  result : Except LoadFault Settings

def load (wording : String → String) (file : Option File) (overrides : Entries) : Loaded :=
  match Section.read wording file with
  | .error fault => ⟨[], .error fault⟩
  | .ok found =>
    let entries := merged found.entries overrides
    ⟨found.logs ++ unknownKeys entries, (ofValues entries).mapError .invalid⟩

end CallCompiler.Settings
