/-!
# Log records

What a run reports while it goes on, in order.  Only warnings and errors are recorded.
-/

namespace Scaffold

/-- How grave a record is. -/
inductive LogLevel where
  | warning
  | error
  deriving DecidableEq, Repr

/-- The name of a level. -/
def LogLevel.name : LogLevel → String
  | .warning => "WARNING"
  | .error => "ERROR"

/-- The part of the program that a record comes from. -/
inductive LogChannel where
  | compiler
  | relations
  | templates
  | exporter
  | generator
  | commandLine
  deriving DecidableEq, Repr

/-- The name of a channel. -/
def LogChannel.name : LogChannel → String
  | .compiler => "modulegen.compiler"
  | .relations => "modulegen.relations"
  | .templates => "modulegen.templates"
  | .exporter => "modulegen.exporters"
  | .generator => "modulegen.generator"
  | .commandLine => "modulegen"

/-- A record of a log. -/
structure LogRecord where
  level : LogLevel
  channel : LogChannel
  message : String
  deriving DecidableEq, Repr

/-- A warning. -/
def LogRecord.warning (channel : LogChannel) (message : String) : LogRecord :=
  ⟨.warning, channel, message⟩

/-- An error. -/
def LogRecord.error (channel : LogChannel) (message : String) : LogRecord :=
  ⟨.error, channel, message⟩

end Scaffold
