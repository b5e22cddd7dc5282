import ShellInterface.Layout

namespace ShellInterface

inductive Level
  | error
  | warn
  | info
  | debug
  | trace
deriving DecidableEq, Repr

-- A severity takes a whole word.
instance : Storable Level := ⟨.number 8⟩

def Level.name : Level → String
  | error => "ERROR"
  | warn  => "WARN"
  | info  => "INFO"
  | debug => "DEBUG"
  | trace => "TRACE"

-- One line of the log. The target names the process that wrote it.
structure LogLine where
  level : Level
  target : String
  text : String
deriving DecidableEq, Repr

end ShellInterface
