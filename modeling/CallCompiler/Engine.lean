import CallCompiler.Json.Printer
import CallCompiler.Pipeline
import CallCompiler.Settings.Basic
import CallCompiler.Trace

/-!
Runs under settings. A run goes through the stages up to the one that the settings ask for, records each as
a phase, and gives a result in every case.
-/
namespace CallCompiler.Engine

structure Result where
  code : String
  errors : List String
  success : Bool
  events : List Trace.Event

def Result.hasErrors (r : Result) : Bool := !r.errors.isEmpty

def phase {α β : Type} (t : Trace) (name detail : String) (value : Except Fault α)
    (metadata : α → List (String × Json)) (next : Trace → α → Trace × Except Fault β) :
    Trace × Except Fault β :=
  let t := t.start name detail
  match value with
  | .error f => (t.fail f, .error f)
  | .ok a => next (t.finish (metadata a)) a

def count (label : String) (n : Nat) : List (String × Json) := [(label, .number n)]

def sourceSize : Source.Node → Nat
  | .program body => body.length
  | _ => 0

def targetSize : Target.Node → Nat
  | .program body => body.length
  | _ => 0

def stages (settings : Settings) (source : String) : Trace × Except Fault String :=
  phase .empty "Lexing" (toString source.length ++ " characters") (Token.lex source)
      (fun tokens => count "tokens" tokens.length) fun t tokens =>
    if settings.format = .tokens then
      (t, .ok ((Json.array (tokens.map Token.toJson)).dump settings.indent))
    else
      phase t "Parsing" "" (Source.parse tokens)
          (fun tree => count "top_level" (sourceSize tree)) fun t tree =>
        if settings.format = .ast then (t, .ok (tree.toJson.dump settings.indent))
        else
          phase t "Transforming" "" tree.lower
              (fun target => count "top_level" (targetSize target)) fun t target =>
            if settings.format = .targetAst then (t, .ok (target.toJson.dump settings.indent))
            else
              phase t "Rendering" "" (Target.render target)
                (fun code => count "characters" code.length) fun t code => (t, .ok code)

def run (settings : Settings) (source : String) : Result :=
  let (t, output) := stages settings source
  let events := if settings.trace then t.events else []
  match output with
  | .ok code => ⟨code, [], true, events⟩
  | .error f => ⟨"", [f.report], false, events⟩

end CallCompiler.Engine
