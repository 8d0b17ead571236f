import CallCompiler.Toml.Scalars
import CallCompiler.Toml.Strings

/-!
Keys and values of a TOML document, with arrays and inline tables. A value can hold others, so reading one
takes a bound on the number of steps, which the length of the text provides.
-/
namespace CallCompiler.Toml

open Settings

abbrev Key := List String

def isGap (c : Char) : Bool := c == ' ' || c == '\t'

def skipGap (cs : List Char) : List Char := cs.dropWhile isGap

def skipComment (cs : List Char) : Except Fault (List Char) :=
  match cs with
  | '#' :: cs =>
    if (cs.takeWhile (· != '\n')).any isControl then .error .malformed
    else .ok (cs.dropWhile (· != '\n'))
  | cs => .ok cs

def skipFiller : (steps : Nat) → List Char → Except Fault (List Char)
  | 0, cs => .ok cs
  | steps + 1, cs =>
    let cs := cs.dropWhile fun c => isGap c || c == '\n'
    match cs with
    | '#' :: _ => skipComment cs >>= skipFiller steps
    | cs => .ok cs

def isBareKeyChar (c : Char) : Bool :=
  Text.isDigit c || ('a' ≤ c && c ≤ 'z') || ('A' ≤ c && c ≤ 'Z') || c == '-' || c == '_'

def keyPart (cs : List Char) : Except Fault (String × List Char) :=
  let bare := cs.takeWhile isBareKeyChar
  if !bare.isEmpty then .ok (String.ofList bare, cs.dropWhile isBareKeyChar)
  else
    match lineString? cs with
    | some (text, rest) => .ok (String.ofList text, rest)
    | none => .error .malformed

/-- A key of one or more parts with points between them. Ends at the first character after it that is not
a blank. -/
def key : (steps : Nat) → List Char → Except Fault (Key × List Char)
  | 0, _ => .error .malformed
  | steps + 1, cs => do
    let (part, cs) ← keyPart cs
    match skipGap cs with
    | '.' :: cs =>
      let (parts, cs) ← key steps (skipGap cs)
      return (part :: parts, cs)
    | cs => return ([part], cs)

/-- Changes the table that a path leads to, making the tables on the way. Where `intoLists` allows it, the
path goes through the last table of a list. -/
def updateAt (intoLists : Bool) (change : Entries → Option Entries) : Key → Entries → Option Entries
  | [], entries => change entries
  | part :: path, entries =>
    match entries.get? part with
    | none => (updateAt intoLists change path []).map fun t => entries ++ [(part, .table t)]
    | some (.table t) => (updateAt intoLists change path t).map fun t => entries.replace part (.table t)
    | some (.list items) =>
      match intoLists, items.getLast? with
      | true, some (.table t) =>
        (updateAt intoLists change path t).map fun t =>
          entries.replace part (.list (items.dropLast ++ [.table t]))
      | _, _ => none
    | some _ => none

def addNew (name : String) (value : Value) (entries : Entries) : Option Entries :=
  if entries.has name then none else some (entries ++ [(name, value)])

def addAt (intoLists : Bool) (key : Key) (value : Value) (entries : Entries) : Option Entries :=
  match key.getLast? with
  | none => none
  | some name => updateAt intoLists (addNew name value) key.dropLast entries

def covers (keys : List Key) (key : Key) : Bool := keys.any fun k => k.isPrefixOf key

def isCompound : Value → Bool
  | .list _ | .table _ => true
  | _ => false

def orMalformed {α : Type} : Option α → Except Fault α
  | some a => .ok a
  | none => .error .malformed

mutual

def value : (steps : Nat) → List Char → Except Fault (Value × List Char)
  | 0, _ => .error .malformed
  | steps + 1, cs =>
    match cs with
    | '[' :: cs => do
      let cs ← skipFiller steps cs
      items steps [] cs
    | '\x7b' :: cs =>
      match skipGap cs with
      | '\x7d' :: cs => .ok (.table [], cs)
      | cs => pairs steps [] [] cs
    | cs =>
      match string? cs with
      | some (text, rest) => .ok (.text (String.ofList text), rest)
      | none =>
        match scalar? cs with
        | some (v, rest) => v.map (·, rest)
        | none => .error .malformed

def items : (steps : Nat) → List Value → List Char → Except Fault (Value × List Char)
  | 0, _, _ => .error .malformed
  | steps + 1, before, cs =>
    match cs with
    | ']' :: cs => .ok (.list before.reverse, cs)
    | cs => do
      let (v, cs) ← value steps cs
      match ← skipFiller steps cs with
      | ']' :: cs => return (.list (v :: before).reverse, cs)
      | ',' :: cs => items steps (v :: before) (← skipFiller steps cs)
      | _ => .error .malformed

/-- The pairs of an inline table up to its end. Keys in `frozen` have a compound value. -/
def pairs : (steps : Nat) → List Key → Entries → List Char → Except Fault (Value × List Char)
  | 0, _, _, _ => .error .malformed
  | steps + 1, frozen, entries, cs => do
    let (k, v, cs) ← pair steps cs
    if covers frozen k then .error .malformed
    else
      let entries ← orMalformed (addAt false k v entries)
      match skipGap cs with
      | '\x7d' :: cs => return (.table entries, cs)
      | ',' :: cs => pairs steps (if isCompound v then k :: frozen else frozen) entries (skipGap cs)
      | _ => .error .malformed

def pair : (steps : Nat) → List Char → Except Fault (Key × Value × List Char)
  | 0, _ => .error .malformed
  | steps + 1, cs => do
    let (k, cs) ← key steps cs
    match cs with
    | '=' :: cs =>
      let (v, cs) ← value steps (skipGap cs)
      return (k, v, cs)
    | _ => .error .malformed

end

end CallCompiler.Toml
