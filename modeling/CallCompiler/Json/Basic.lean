/-!
JSON values. A number is a decimal, with none of its digits after the point unless it says so. The fields of
an object stand in the order in which they are written.
-/
namespace CallCompiler

inductive Json
  | null
  | bool (value : Bool)
  | number (digits : Int) (places : Nat := 0)
  | string (value : String)
  | array (items : List Json)
  | object (fields : List (String × Json))
  deriving Inhabited

end CallCompiler
