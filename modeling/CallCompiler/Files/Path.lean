import CallCompiler.Text.Join

/-!
Paths in a tree of files. Doubled slashes and single points have no meaning; two points are kept, since
what they lead to depends on the tree.
-/
namespace CallCompiler.Files

structure Path where
  /-- The slashes that a path starts with: none, one, or exactly two. -/
  anchor : String
  parts : List String
  deriving DecidableEq, Repr

def pieces : List Char → List (List Char)
  | [] => [[]]
  | '/' :: cs => [] :: pieces cs
  | c :: cs =>
    match pieces cs with
    | [] => [[c]]
    | p :: ps => (c :: p) :: ps

namespace Path

def ofString (s : String) : Path where
  anchor :=
    match (s.toList.takeWhile (· == '/')).length with
    | 0 => ""
    | 2 => "//"
    | _ => "/"
  parts := ((pieces s.toList).map String.ofList).filter fun p => p != "" && p != "."

def isAbsolute (p : Path) : Bool := p.anchor != ""

def text (p : Path) : String :=
  if p.anchor = "" ∧ p.parts = [] then "." else p.anchor ++ Text.join "/" p.parts

def settle : List String → List String → List String
  | place, [] => place
  | place, part :: rest => settle (if part = ".." then place.dropLast else place ++ [part]) rest

/-- The place that a path names from a folder, when no part is a link. -/
def resolve (p : Path) (folder : List String) : List String :=
  settle (if p.isAbsolute then [] else folder) p.parts

end Path

def placeText (place : List String) : String := "/" ++ Text.join "/" place

end CallCompiler.Files
