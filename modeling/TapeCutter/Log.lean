/-! Log lines as data. An operation returns the lines it wrote, oldest first;
nothing in the library writes to a console. -/
namespace TapeCutter.Log

inductive Level where
  | debug
  | info
  | warn
deriving DecidableEq

/-- The word in front of a printed line. -/
def Level.tag : Level → String
  | debug => "DEBUG"
  | info => "INFO"
  | warn => "WARN"

structure Line where
  level : Level
  message : String
deriving DecidableEq

def debug (message : String) : Line := ⟨.debug, message⟩

def info (message : String) : Line := ⟨.info, message⟩

def warn (message : String) : Line := ⟨.warn, message⟩

/-- The printed form: the level, a blank, the message. -/
def Line.text (line : Line) : String := line.level.tag ++ " " ++ line.message

end TapeCutter.Log
