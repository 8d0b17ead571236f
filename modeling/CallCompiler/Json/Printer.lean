import CallCompiler.Json.Basic
import CallCompiler.Text.Hex

/-!
Printed JSON. Every item and field has a line of its own, indented by its depth, and only plain
characters are used: all others are written as escapes, as a pair of them above U+FFFF.
-/
namespace CallCompiler.Json

def unit (n : Nat) : List Char := '\\' :: 'u' :: Text.hex 4 n

def stringChar (c : Char) : List Char :=
  if c = '"' then ['\\', '"']
  else if c = '\\' then ['\\', '\\']
  else if c = '\n' then ['\\', 'n']
  else if c = '\r' then ['\\', 'r']
  else if c = '\t' then ['\\', 't']
  else if c = '\x08' then ['\\', 'b']
  else if c = '\x0c' then ['\\', 'f']
  else if 0x20 ≤ c.toNat ∧ c.toNat ≤ 0x7e then [c]
  else if c.toNat < 0x10000 then unit c.toNat
  else
    unit (0xd800 + (c.toNat - 0x10000) / 0x400) ++ unit (0xdc00 + (c.toNat - 0x10000) % 0x400)

def printString (s : String) (rest : List Char) : List Char :=
  '"' :: s.toList.flatMap stringChar ++ '"' :: rest

def newline (indent depth : Nat) (rest : List Char) : List Char :=
  '\n' :: List.replicate (indent * depth) ' ' ++ rest

/-- A decimal: its sign, its digits, and a point before the last `places` of them. -/
def decimal (digits : Int) (places : Nat) : List Char :=
  if places = 0 then (toString digits).toList
  else
    let written := (toString digits.natAbs).toList
    let padded := List.replicate (places + 1 - written.length) '0' ++ written
    let whole := padded.length - places
    (if digits < 0 then ['-'] else []) ++ padded.take whole ++ '.' :: padded.drop whole

mutual

/-- The printed form of a value at a depth, followed by `rest`. -/
def print (indent depth : Nat) : Json → List Char → List Char
  | .null, rest => "null".toList ++ rest
  | .bool true, rest => "true".toList ++ rest
  | .bool false, rest => "false".toList ++ rest
  | .number digits places, rest => decimal digits places ++ rest
  | .string s, rest => printString s rest
  | .array [], rest => '[' :: ']' :: rest
  | .array (item :: items), rest =>
    '[' :: newline indent (depth + 1) (print indent (depth + 1) item
      (printItems indent (depth + 1) items (newline indent depth (']' :: rest))))
  | .object [], rest => '\x7b' :: '\x7d' :: rest
  | .object ((key, value) :: fields), rest =>
    '\x7b' :: newline indent (depth + 1) (printString key (':' :: ' ' ::
      print indent (depth + 1) value
        (printFields indent (depth + 1) fields (newline indent depth ('\x7d' :: rest)))))

def printItems (indent depth : Nat) : List Json → List Char → List Char
  | [], rest => rest
  | item :: items, rest =>
    ',' :: newline indent depth (print indent depth item (printItems indent depth items rest))

def printFields (indent depth : Nat) : List (String × Json) → List Char → List Char
  | [], rest => rest
  | (key, value) :: fields, rest =>
    ',' :: newline indent depth (printString key (':' :: ' ' ::
      print indent depth value (printFields indent depth fields rest)))

end

def dump (indent : Nat) (value : Json) : String := String.ofList (value.print indent 0 [])

end CallCompiler.Json
