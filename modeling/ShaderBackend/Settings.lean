import ShaderBackend.Log.Logger
import ShaderBackend.Platform
/-!
Settings read once at the start from named variables. What a variable does not say, or says in a
form that is not understood, has a default.
-/
namespace ShaderBackend

structure Settings where
  log : Log.Config
  /-- Number of compiler threads, zero to derive it from the cores. -/
  compilerThreads : UInt32
  compilerPriority : ThreadPriority
  deriving DecidableEq, Repr

namespace Settings

def default : Settings := ⟨.default, 0, .normal⟩

/-- The least severity to log; the word none turns logging off. -/
def logLevelVariable : String := "SHADER_BRIDGE_LOG_LEVEL"

/-- The directory for the log file; empty or the word none for no file. -/
def logPathVariable : String := "SHADER_BRIDGE_LOG_PATH"

def compilerThreadsVariable : String := "SHADER_BRIDGE_NUM_COMPILER_THREADS"

def compilerPriorityVariable : String := "SHADER_BRIDGE_COMPILER_PRIORITY"

def defaultLogFile : String := "shader_bridge.log"

/-- A name in a directory. A slash comes between them unless the directory ends with one. -/
def pathIn (directory name : String) : String :=
  if directory.isEmpty || directory.endsWith "/" then directory ++ name
  else directory ++ "/" ++ name

/-- The log file in a directory: the name of the program and that of the file. -/
def logFile (program directory file : String) : String :=
  pathIn directory (program ++ "_" ++ file)

/-- Value of decimal digits, `none` for any other character or for none at all. -/
def digitsValue? : List Char → Option Nat
  | [] => none
  | cs => cs.foldlM (fun value c =>
      if c.isDigit then some (value * 10 + (c.toNat - '0'.toNat)) else none) 0

/-- A number below 2 to the 32 in decimal digits. A plus sign may come first. -/
def word? (cs : List Char) : Option UInt32 :=
  let digits := match cs with
    | '+' :: rest => rest
    | cs => cs
  (digitsValue? digits).bind fun n => if n < UInt32.size then some (UInt32.ofNat n) else none

def thresholdOf (level : Option String) : Log.Threshold :=
  match level with
  | none => some .info
  | some "none" => none
  | some name => some ((Log.Severity.ofName? name).getD .info)

def targetsOf (threshold : Log.Threshold) (program file : String) (directory : Option String) :
    List Log.Target :=
  match threshold, directory with
  | some _, some directory =>
    if directory = "" || directory = "none" then [.stderr]
    else [.stderr, .file (logFile program directory file)]
  | _, _ => [.stderr]

/-- Settings from the variables that `lookup` finds, for a program of this name and a log file of
this name. White space around the number of threads does not count. -/
def ofVariables (program file : String) (lookup : String → Option String) : Settings :=
  let threshold := thresholdOf (lookup logLevelVariable)
  { log := ⟨threshold, targetsOf threshold program file (lookup logPathVariable)⟩
    compilerThreads :=
      ((lookup compilerThreadsVariable).bind fun s => word? (Text.trim s.toList)).getD 0
    compilerPriority :=
      ((lookup compilerPriorityVariable).bind ThreadPriority.ofName?).getD .normal }

end Settings
end ShaderBackend
