import CallCompiler.Text.Blank

/-!
Markup in messages. A tag is a bracket, one of a few characters, and everything up to a closing bracket; an
odd number of backslashes in front makes it plain text. A tag opens a style, or closes one that is open; a
message in which a tag closes nothing cannot be shown.
-/
namespace CallCompiler.Console

def startsTagName (c : Char) : Bool :=
  ('a' ≤ c && c ≤ 'z') || c == '#' || c == '/' || c == '@'

def isTag : List Char → Bool
  | c :: cs => startsTagName c && cs.find? (fun d => d == '[' || d == ']') == some ']'
  | [] => false

def slashes (n : Nat) : List Char := List.replicate n '\\'

/-- Escapes the tags of a text, given the number of backslashes just before it. -/
def escapeTags (n : Nat) : List Char → List Char
  | [] => slashes n
  | c :: cs =>
    if c = '\\' then escapeTags (n + 1) cs
    else if c = '[' ∧ isTag cs then slashes (2 * n + 1) ++ c :: escapeTags 0 cs
    else slashes n ++ c :: escapeTags 0 cs

def endsInSlash (cs : List Char) : Bool :=
  match cs.reverse with
  | '\\' :: '\\' :: _ => false
  | '\\' :: _ => true
  | _ => false

def escape (s : String) : String :=
  let cs := escapeTags 0 s.toList
  String.ofList (if endsInSlash cs then cs ++ ['\\'] else cs)

/-- Where a text with markup is read: after some backslashes, in a tag that shows, or in one that does
not. -/
inductive Spot
  | text (slashes : Nat)
  | shown
  | hidden
  deriving DecidableEq, Repr

def plain : Spot → List Char → List Char
  | .text n, [] => slashes n
  | .shown, [] => []
  | .hidden, [] => []
  | .text n, c :: cs =>
    if c = '\\' then plain (.text (n + 1)) cs
    else if c = '[' then
      if isTag cs then
        if n % 2 = 1 then slashes (n / 2) ++ c :: plain .shown cs
        else slashes (n / 2) ++ plain .hidden cs
      else slashes (n - 1) ++ c :: plain (.text 0) cs
    else slashes n ++ c :: plain (.text 0) cs
  | .shown, c :: cs => c :: plain (if c = ']' then .text 0 else .shown) cs
  | .hidden, c :: cs => plain (if c = ']' then .text 0 else .hidden) cs

def pathMarkup (path : String) : String := "[path]" ++ escape path ++ "[/path]"

structure Tag where
  name : String
  parameters : Option String
  deriving DecidableEq, Repr

namespace Tag

def ofText (cs : List Char) : Tag where
  name := String.ofList (cs.takeWhile (· != '='))
  parameters :=
    match cs.dropWhile (· != '=') with
    | [] => none
    | _ :: rest => some (String.ofList rest)

def text (tag : Tag) : String :=
  "[" ++ tag.name ++ ((tag.parameters.map ("=" ++ ·)).getD "") ++ "]"

/-- The name of the style that a tag closes; an empty one stands for the innermost style. -/
def closes? (tag : Tag) : Option String :=
  match tag.name.toList with
  | '/' :: name => some (String.ofList (Text.trim Text.isBlank name))
  | _ => none

def handler? (tag : Tag) : Option String :=
  if tag.name.toList.head? = some '@' then tag.parameters.filter (· != "") else none

end Tag

/-- The tags of a text that act, with their positions. The text stands after some backslashes. -/
def activeTags (position slashes : Nat) : List Char → List (Nat × Tag)
  | [] => []
  | c :: cs =>
    if c = '\\' then activeTags (position + 1) (slashes + 1) cs
    else if c = '[' ∧ isTag cs ∧ slashes % 2 = 0 then
      (position, .ofText (cs.takeWhile (· != ']'))) :: activeTags (position + 1) 0 cs
    else activeTags (position + 1) 0 cs

inductive MarkupFault
  | unmatched (tag : Tag) (position : Nat)
  | nothingOpen (position : Nat)
  | badHandler (message : String)
  deriving DecidableEq, Repr

def MarkupFault.message : MarkupFault → String
  | .unmatched tag position =>
    "closing tag '" ++ tag.text ++ "' at position " ++ toString position ++ " doesn't match any open tag"
  | .nothingOpen position =>
    "closing tag '[/]' at position " ++ toString position ++ " has nothing to close"
  | .badHandler message => message

structure Styles where
  /-- The form in which the name of a style is kept, so that a style can be closed under another name. -/
  normal : String → String
  handlerFault? : String → Option String

namespace Styles

variable (styles : Styles)

def close (tag : Tag) (rest : List Tag) : Except MarkupFault (List Tag) :=
  match tag.handler?.bind styles.handlerFault? with
  | none => .ok rest
  | some message => .error (.badHandler message)

/-- What a tag makes of the styles that are open, the innermost of which is the first. -/
def readTag (opened : List Tag) (position : Nat) (tag : Tag) : Except MarkupFault (List Tag) :=
  match tag.closes? with
  | none => .ok (⟨styles.normal tag.name, tag.parameters⟩ :: opened)
  | some "" =>
    match opened with
    | [] => .error (.nothingOpen position)
    | last :: rest => styles.close last rest
  | some name =>
    let isMeant (t : Tag) : Bool := t.name == styles.normal name
    match opened.find? isMeant with
    | none => .error (.unmatched tag position)
    | some last => styles.close last (opened.eraseP isMeant)

def readTags (opened : List Tag) : List (Nat × Tag) → Except MarkupFault (List Tag)
  | [] => .ok opened
  | (position, tag) :: tags => do readTags (← styles.readTag opened position tag) tags

def fault? (message : String) : Option MarkupFault :=
  match styles.readTags [] (activeTags 0 0 message.toList) with
  | .ok _ => none
  | .error fault => some fault

end Styles

end CallCompiler.Console
