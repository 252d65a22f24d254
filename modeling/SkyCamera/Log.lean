/-!
Lines of a progress log, in the order in which things happened.
-/
namespace SkyCamera

inductive LogLevel
  | warn
  | info
  | debug

structure LogLine where
  level : LogLevel
  text : String

def LogLevel.name : LogLevel → String
  | warn => "WARN"
  | info => "INFO"
  | debug => "DEBUG"

def LogLine.render (line : LogLine) : String := line.level.name ++ " " ++ line.text

end SkyCamera
