import ShaderBackend.Log.Calendar
import ShaderBackend.Log.Entry
/-! Log entries as lines of a console, with the severity and the source in color. -/
namespace ShaderBackend.Log

/-- A way to show text, by the parameters of the control sequence that selects it. -/
structure Style where
  parameters : String
  deriving DecidableEq, Repr

namespace Style

def brightBlack : Style := ⟨"90"⟩
def cyan : Style := ⟨"36"⟩
def green : Style := ⟨"32"⟩
def yellow : Style := ⟨"33"⟩
def boldRed : Style := ⟨"1;31"⟩
def brightBlue : Style := ⟨"94"⟩

/-- The control sequence that selects the style. -/
def select (s : Style) : String := "\x1b[" ++ s.parameters ++ "m"

/-- The control sequence that ends every style. -/
def reset : String := "\x1b[0m"

/-- Selects the style again after each end of styles inside the text. -/
def reselect (s : Style) (text : String) : String := text.replace reset (reset ++ s.select)

/-- The text in the style; plain text where colors are off. -/
def apply (s : Style) (color : Bool) (text : String) : String :=
  if color then s.select ++ s.reselect text ++ reset else text

end Style

namespace Severity

def style : Severity → Style
  | trace => .brightBlack
  | debug => .cyan
  | info => .green
  | warn => .yellow
  | error => .boldRed

/-- The severity in five capitals, padded on the right. -/
def column : Severity → String
  | trace => "TRACE"
  | debug => "DEBUG"
  | info => "INFO "
  | warn => "WARN "
  | error => "ERROR"

end Severity

/-- File and line after the message, for an entry that has both. -/
def Entry.placeText (e : Entry) : String :=
  match e.file, e.line with
  | some file, some line => s!" ({file}:{line})"
  | _, _ => ""

/-- Time, severity and source in brackets, and the message. -/
def Entry.consoleLine (e : Entry) (time : Timestamp) (color : Bool) : String :=
  "[" ++ time.render ++ "] [" ++ e.severity.style.apply color e.severity.column
    ++ "] [" ++ Style.brightBlue.apply color e.source ++ "] " ++ e.message ++ e.placeText ++ "\n"

end ShaderBackend.Log
