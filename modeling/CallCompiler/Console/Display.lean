import CallCompiler.Console.Log
import CallCompiler.Console.Markup
import CallCompiler.Text.Blank

/-!
Where messages are shown. There is one current display: standard error, or one of several displays in
memory that have a name and a width. Messages go to the current display only.
-/
namespace CallCompiler.Console

/-- The displays made so far with their widths, and the current one; none stands for standard error. -/
structure Displays where
  widths : List (String × Nat)
  current : Option String

namespace Displays

def fresh : Displays := ⟨[], none⟩

/-- Makes a display current. Its width is settled the first time. -/
def select (d : Displays) (name : String) (width : Nat) : Displays where
  widths := if (d.widths.lookup name).isSome then d.widths else d.widths ++ [(name, width)]
  current := some name

def reset (d : Displays) : Displays := { d with current := none }

def standardWidth : Nat := 80

def width (d : Displays) : Nat :=
  match d.current with
  | none => standardWidth
  | some name => (d.widths.lookup name).getD standardWidth

end Displays

def Entry.line (e : Entry) : String :=
  let label := e.level.label.toList
  let column := label ++ List.replicate (8 - label.length) ' '
  String.ofList (Text.trimEnd Text.isBlank (column ++ ' ' :: plain (.text 0) e.message.toList))

end CallCompiler.Console
