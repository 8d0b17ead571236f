import CallCompiler.Files.Path
import CallCompiler.Text.Quoted

/-!
A tree of files, with a folder that relative paths start from. Files are kept with the parts of their place
from the root.
-/
namespace CallCompiler.Files

structure Refusal where
  number : Nat
  reason : String
  deriving DecidableEq, Repr

inductive Fault
  | missing
  | notFolder
  | isFolder
  | nameTooLong
  | refused (refusal : Refusal)
  /-- The path has a character that no path can have. -/
  | unusable
  deriving DecidableEq, Repr

def Fault.refusal? : Fault → Option Refusal
  | .missing => some ⟨2, "No such file or directory"⟩
  | .notFolder => some ⟨20, "Not a directory"⟩
  | .isFolder => some ⟨21, "Is a directory"⟩
  | .nameTooLong => some ⟨36, "File name too long"⟩
  | .refused refusal => some refusal
  | .unusable => none

def Fault.message (path : String) (fault : Fault) : String :=
  match fault.refusal? with
  | some r => "[Errno " ++ toString r.number ++ "] " ++ r.reason ++ ": " ++ Text.quoted path
  | none => "embedded null byte"

abbrev Place := List String

abbrev Bytes := List UInt8

structure Tree where
  files : List (Place × Bytes)
  folders : List Place
  here : Place
  unread : Place → Option Refusal := fun _ => none
  /-- Why a file may not be written at a place, after so many others. -/
  unwritten : Nat → Place → Option Refusal := fun _ _ => none
  writes : Nat := 0

inductive Kind
  | file
  | folder
  deriving DecidableEq, Repr

/-- The nearest folder, from a place upward, where something is found. The place is given in reverse. -/
def nearestAbove {m : Type → Type} [Monad m] {α : Type} (look : Place → m (Option α)) :
    List String → m (Option (Place × α))
  | [] => do return (← look []).map ([], ·)
  | part :: above => do
    let folder := (part :: above).reverse
    match ← look folder with
    | some found => return some (folder, found)
    | none => nearestAbove look above

namespace Tree

def content? (t : Tree) (place : Place) : Option Bytes := t.files.lookup place

def isFile (t : Tree) (place : Place) : Bool := (t.content? place).isSome

/-- What stands at a place. Every place above a file or a folder is a folder. -/
def kind? (t : Tree) (place : Place) : Option Kind :=
  if t.isFile place then some .file
  else if place.isPrefixOf t.here || t.folders.any place.isPrefixOf ||
      t.files.any fun (p, _) => place.isPrefixOf p then some .folder
  else none

/-- Goes down a path from a place. The last part need not exist. -/
def descend (t : Tree) : Place → List String → Except Fault Place
  | place, [] => .ok place
  | place, part :: rest =>
    match t.kind? place with
    | none => .error .missing
    | some .file => .error .notFolder
    | some .folder =>
      if part.utf8ByteSize > 255 then .error .nameTooLong
      else descend t (if part = ".." then place.dropLast else place ++ [part]) rest

def locate (t : Tree) (path : Path) : Except Fault Place :=
  if path.text.toList.contains '\x00' then .error .unusable
  else if path.text.utf8ByteSize > 4095 then .error .nameTooLong
  else t.descend (if path.isAbsolute then [] else t.here) path.parts

/-- What comes of reading the file at a place, if there is one. -/
def opened? (t : Tree) (place : Place) : Option (Except Fault Bytes) :=
  (t.content? place).map fun bytes =>
    match t.unread place with
    | none => .ok bytes
    | some refusal => .error (.refused refusal)

def read (t : Tree) (path : Path) : Except Fault Bytes := do
  let place ← t.locate path
  match t.opened? place with
  | some content => content
  | none => if t.kind? place = some .folder then .error .isFolder else .error .missing

def put (t : Tree) (place : Place) (bytes : Bytes) : Tree :=
  { t with
    files :=
      if t.isFile place then t.files.map fun (p, b) => if p == place then (p, bytes) else (p, b)
      else t.files ++ [(place, bytes)]
    writes := t.writes + 1 }

def write (t : Tree) (path : Path) (bytes : Bytes) : Except Fault Tree := do
  let place ← t.locate path
  if t.kind? place = some .folder then .error .isFolder
  else
    match t.unwritten t.writes place with
    | some refusal => .error (.refused refusal)
    | none => .ok (t.put place bytes)

def nearest (t : Tree) (name : String) (place : Place) : Option (Place × Except Fault Bytes) :=
  Id.run (nearestAbove (fun folder => pure (t.opened? (folder ++ [name]))) place.reverse)

end Tree

end CallCompiler.Files
