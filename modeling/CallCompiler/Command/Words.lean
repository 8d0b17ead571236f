import CallCompiler.Text.Digit
import CallCompiler.Text.Join

/-!
The words of a command line. A word that starts with a hyphen is an option, unless it is just that, reads
as a negative number, or has a blank in it. A long option may be cut short as long as one option alone
goes on like it. After two hyphens alone there are no more options.
-/
namespace CallCompiler.Command

/-- A text in the same word as its option: after the equals sign of a long option, or after a single
letter, where an equals sign between the two does not count. -/
inductive Attached
  | equals (text : String)
  | glued (text : String)
  deriving DecidableEq, Repr

def Attached.text : Attached → String
  | .equals text | .glued text => text

/-- The value that an attached text gives. Two hyphens alone are no value, though the option is given. -/
def Attached.value? (a : Attached) : Option String := if a.text = "--" then none else some a.text

inductive Word (α : Type)
  | plain (text : String)
  | hyphens
  | option (flag : Option α) (attached : Option Attached)

abbrev Names (α : Type) := List (String × α)

structure Ambiguity where
  word : String
  options : List String

def Ambiguity.message (a : Ambiguity) : String :=
  "ambiguous option: " ++ a.word ++ " could match " ++ Text.join ", " a.options

/-- A hyphen and digits, or a hyphen, digits or none, a point and digits. -/
def isNegative : List Char → Bool
  | '-' :: cs =>
    let rest := cs.dropWhile Text.isScriptDigit
    match rest with
    | [] => !cs.isEmpty
    | '.' :: places => !places.isEmpty && places.all Text.isScriptDigit
    | _ => false
  | _ => false

def looksNegative (cs : List Char) : Bool :=
  isNegative cs || (cs.getLast? == some '\n' && isNegative cs.dropLast)

def splitEquals (cs : List Char) : List Char × Option (List Char) :=
  match cs.dropWhile (· != '=') with
  | [] => (cs, none)
  | _ :: value => (cs.takeWhile (· != '='), some value)

def candidates {α : Type} (names : Names α) (cs : List Char) : List (String × α × Option Attached) :=
  match cs with
  | '-' :: '-' :: _ =>
    let (start, value) := splitEquals cs
    let attached := value.map fun v => Attached.equals (String.ofList v)
    (names.filter fun (name, _) => start.isPrefixOf name.toList).map
      fun (name, flag) => (name, flag, attached)
  | cs =>
    (names.filter fun (name, _) => name.toList == cs.take 2).map
      fun (name, flag) => (name, flag, some (.glued (String.ofList (cs.drop 2))))

def attachedTo (name value : List Char) : Attached :=
  if name.length = 2 then .glued (String.ofList value) else .equals (String.ofList value)

def hyphenWord {α : Type} (names : Names α) (word : String) : Except Ambiguity (Word α) :=
  let cs := word.toList
  let (start, value) := splitEquals cs
  match names.lookup word, value, names.lookup (String.ofList start) with
  | some flag, _, _ => .ok (.option (some flag) none)
  | none, some v, some flag => .ok (.option (some flag) (some (attachedTo start v)))
  | _, _, _ =>
    match candidates names cs with
    | [(_, flag, attached)] => .ok (.option (some flag) attached)
    | [] =>
      if looksNegative cs || cs.contains ' ' then .ok (.plain word) else .ok (.option none none)
    | several => .error ⟨word, several.map fun (name, _) => name⟩

def classify {α : Type} (names : Names α) (word : String) : Except Ambiguity (Word α) :=
  match word.toList with
  | '-' :: _ :: _ => hyphenWord names word
  | _ => .ok (.plain word)

def classifyAll {α : Type} (names : Names α) :
    List String → Except Ambiguity (List (Word α × String))
  | [] => .ok []
  | word :: words =>
    if word = "--" then .ok ((.hyphens, word) :: words.map fun w => (.plain w, w))
    else do
      let w ← classify names word
      let rest ← classifyAll names words
      return (w, word) :: rest

/-- What is left over of the text after an option `-h`. Each `h` that it starts with is that option again,
so nothing is left over of one or more of these alone. -/
def gluedLeftover : List Char → Option String
  | [] => some ""
  | ['h'] => none
  | 'h' :: rest => gluedLeftover rest
  | rest => some (String.ofList rest)

def leftover : Option Attached → Option String
  | none => none
  | some (.equals text) => some text
  | some (.glued text) => gluedLeftover text.toList

end CallCompiler.Command
