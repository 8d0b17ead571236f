/-!
Log entries: a level and a message. A message to the user starts with the sign of its level.
-/
namespace CallCompiler.Console

inductive Level
  | info
  | success
  | warning
  | error
  deriving DecidableEq, Repr

def Level.label : Level → String
  | .info => "INFO"
  | .success => "SUCCESS"
  | .warning => "WARNING"
  | .error => "ERROR"

def Level.sign : Level → String
  | .info => "ℹ️  "
  | .success => "✅ "
  | .warning => "⚠️  "
  | .error => "❌ "

structure Entry where
  level : Level
  message : String
  deriving DecidableEq, Repr

def say (level : Level) (message : String) : Entry := ⟨level, level.sign ++ message⟩

end CallCompiler.Console
