import CallCompiler.Files.Tree
import CallCompiler.Settings.Load

/-!
Settings in a tree of files: those of the nearest folder, from a place upward, that has a project file.
-/
namespace CallCompiler.Settings

def find? (tree : Files.Tree) (place : Files.Place) : Option (Files.Place × File) :=
  (tree.nearest fileName place).map fun (folder, content) =>
    (folder, ⟨Files.placeText (folder ++ [fileName]), content⟩)

def loadFrom (wording : String → String) (tree : Files.Tree) (place : Files.Place) (overrides : Entries) :
    Loaded :=
  load wording ((find? tree place).map Prod.snd) overrides

end CallCompiler.Settings
