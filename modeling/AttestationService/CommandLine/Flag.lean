/-!
What the command line can set, and the help that says so.
-/

namespace AttestationService.CommandLine

inductive Flag where
  | configPath
  | logPath
  | port
  | socket
  | verifierRoot
  | successMarker
  | help
  deriving DecidableEq, Repr

namespace Flag

def all : List Flag := [configPath, logPath, port, socket, verifierRoot, successMarker, help]

def long : Flag → String
  | configPath => "config-path"
  | logPath => "log-path"
  | port => "port"
  | socket => "socket"
  | verifierRoot => "verifier-root"
  | successMarker => "success-marker"
  | help => "help"

def short? : Flag → Option Char
  | configPath => some 'c'
  | help => some 'h'
  | _ => none

def valueName? : Flag → Option String
  | configPath => some "CONFIG_PATH"
  | logPath => some "LOG_PATH"
  | port => some "PORT"
  | socket => some "SOCKET"
  | verifierRoot => some "VERIFIER_ROOT"
  | successMarker => some "SUCCESS_MARKER"
  | help => none

def about : Flag → String
  | configPath => "The path to the config file"
  | logPath => "Path to the log file where service logs are written"
  | port => "Port on which the HTTP service will listen"
  | socket => "Path to the unix socket file"
  | verifierRoot => "Root directory for the GPU verifier, containing its python environment"
  | successMarker => "Message indicating successful attestation in the verifier's output"
  | help => "Print help"

def takesValue (f : Flag) : Bool := f.valueName?.isSome

def ofLong? (name : String) : Option Flag := all.find? (·.long == name)

def ofShort? (letter : Char) : Option Flag := all.find? (·.short? == some letter)

def shown (f : Flag) : String :=
  match f.valueName? with
  | some value => s!"--{f.long} <{value}>"
  | none => s!"--{f.long}"

def helpLines (f : Flag) : List String :=
  let lead := match f.short? with
    | some letter => s!"  -{letter}, "
    | none => "      "
  [lead ++ f.shown, "          " ++ f.about]

end Flag

def programName : String := "gpu-attest-gateway"

def usage (used : List Flag) : String :=
  let flags := if used.isEmpty then ["[OPTIONS]"] else used.map Flag.shown
  "Usage: " ++ programName ++ " " ++ " ".intercalate flags

def help : String :=
  String.join ((["Exposes GPU attestation over HTTP on a TCP port and a unix socket", "", usage [], "",
    "Options:"] ++ Flag.all.flatMap Flag.helpLines).map (· ++ "\n"))

end AttestationService.CommandLine
