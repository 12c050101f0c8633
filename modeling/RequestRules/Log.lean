import RequestRules.Text

/-!
# Log records

A record has a level, a source, and a message, and is written on a line with all three.
-/

namespace RequestRules.Log

inductive Level
  | info
  | warning
  | error
  | critical
  deriving DecidableEq, Repr

def Level.name : Level → Text
  | info => .of "INFO"
  | warning => .of "WARNING"
  | error => .of "ERROR"
  | critical => .of "CRITICAL"

inductive Source
  | program
  | configuration
  | inventory
  | hub
  deriving DecidableEq, Repr

def Source.name : Source → Text
  | program => .of "httpbinding.__main__"
  | configuration => .of "httpbinding.dependencies.config_manager"
  | inventory => .of "httpbinding.binding.manager"
  | hub => .of "httpbinding.core"

structure Record where
  level : Level
  source : Source
  message : Text
  deriving DecidableEq, Repr

namespace Record

def render (r : Record) : Text := r.level.name ++ .of " [" ++ r.source.name ++ .of "] " ++ r.message

/-- Only a verbose log has records that are no warnings. -/
def isShown (verbose : Bool) (r : Record) : Bool := verbose || r.level ≠ .info

/-- A record with a surrogate cannot be written to a file. -/
def isWritable (r : Record) : Bool := !r.render.any CodePoint.isSurrogate

end Record

end RequestRules.Log
