import Antenna.Library.Text

/-! The three escapers that put text into a Turtle literal: the router's, the event encoder's and the
embedding interface's. -/

namespace LeanAntenna

def replace (target : Char) (replacement text : Text) : Text :=
  text.flatMap fun c => if c = target then replacement else [c]

/-- `dispatch::turtle_escape` -/
def turtleEscape (text : Text) : Text :=
  replace '\r' ['\\', 'r'] (replace '\n' ['\\', 'n']
    (replace '"' ['\\', '"'] (replace '\\' ['\\', '\\'] text)))

def escapeChar (c : Char) : Text :=
  match c with
  | '"' => ['\\', '"']
  | '\\' => ['\\', '\\']
  | '\n' => ['\\', 'n']
  | '\r' => ['\\', 'r']
  | other => [other]

/-- `carrier::turtle_escape` -/
def eventEscape (text : Text) : Text := text.flatMap escapeChar

def escapeTurtleChar (c : Char) : Text :=
  match c with
  | '\\' => ['\\', '\\']
  | '"' => ['\\', '"']
  | '\n' => ['\\', 'n']
  | '\r' => ['\\', 'r']
  | other => [other]

/-- `ffi::escape_turtle_string` -/
def escapeTurtleString (text : Text) : Text := text.flatMap escapeTurtleChar

end LeanAntenna
