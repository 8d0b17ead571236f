import CallCompiler.Json.Basic

/-!
What stands in a tree and is not a node of that tree: a node of the other tree, a node of a kind that has
no rules, or no node at all. Only its tag and its dictionary form are known.
-/
namespace CallCompiler

structure Foreign where
  tag : String
  form : Json

end CallCompiler
