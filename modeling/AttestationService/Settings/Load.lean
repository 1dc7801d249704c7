import AttestationService.Settings.Environment
import AttestationService.Settings.Field
import AttestationService.Settings.File
import AttestationService.Settings.KeyPath

/-!
The service's settings and where they come from: defaults, the environment, a file and overrides,
each above the ones before it.
-/

namespace AttestationService

structure ServerSettings where
  port : UInt16
  socketPath : String
  readTimeout : Duration
  writeTimeout : Duration
  deriving DecidableEq, Repr

structure VerifierSettings where
  root : String
  successMarker : String
  elevate : Bool
  deriving DecidableEq, Repr

structure LogSettings where
  enabled : Bool
  path : String
  deriving DecidableEq, Repr

structure Settings where
  server : ServerSettings
  verifier : VerifierSettings
  log : LogSettings
  deriving DecidableEq, Repr

namespace ServerSettings

def default : ServerSettings where
  port := 8123
  socketPath := "/var/run/gpu-attestation/gpu-attestation.sock"
  readTimeout := .ofSeconds 30
  writeTimeout := .ofSeconds 30

def endpoint (s : ServerSettings) : String := s!"0.0.0.0:{s.port.toNat}"

def shape : Settings.Section :=
  ⟨"server", "ServerConfig", ["port", "socket_path", "read_timeout", "write_timeout"]⟩

def ofValue (v : Settings.Value) : Except Settings.FieldError ServerSettings := do
  let given ← shape.given v
  let port ← Settings.field given "port" Settings.Value.toPort default.port
  let socketPath ← Settings.field given "socket_path" Settings.Value.toText default.socketPath
  let readTimeout ← Settings.field given "read_timeout" Settings.Value.toDuration default.readTimeout
  let writeTimeout ←
    Settings.field given "write_timeout" Settings.Value.toDuration default.writeTimeout
  pure ⟨port, socketPath, readTimeout, writeTimeout⟩

end ServerSettings

namespace VerifierSettings

def default : VerifierSettings where
  root := "/usr/local/lib/local_gpu_verifier"
  successMarker := "GPU Attestation is Successful"
  elevate := true

def shape : Settings.Section := ⟨"verifier", "VerifierConfig", ["root", "success_marker", "elevate"]⟩

def ofValue (v : Settings.Value) : Except Settings.FieldError VerifierSettings := do
  let given ← shape.given v
  let root ← Settings.field given "root" Settings.Value.toText default.root
  let successMarker ←
    Settings.field given "success_marker" Settings.Value.toText default.successMarker
  let elevate ← Settings.field given "elevate" Settings.Value.toFlag default.elevate
  pure ⟨root, successMarker, elevate⟩

end VerifierSettings

namespace LogSettings

def default : LogSettings where
  enabled := true
  path := "/usr/local/bin/local_gpu_verifier_http_service/attestation_service.log"

def file? (s : LogSettings) : Option String := if s.enabled then some s.path else none

def shape : Settings.Section := ⟨"log", "LogConfig", ["enabled", "path"]⟩

def ofValue (v : Settings.Value) : Except Settings.FieldError LogSettings := do
  let given ← shape.given v
  let enabled ← Settings.field given "enabled" Settings.Value.toFlag default.enabled
  let path ← Settings.field given "path" Settings.Value.toText default.path
  pure ⟨enabled, path⟩

end LogSettings

namespace Settings

structure Overrides where
  logPath : Option String
  port : Option UInt16
  socketPath : Option String
  verifierRoot : Option String
  successMarker : Option String
  deriving DecidableEq, Repr

namespace Overrides

def none : Overrides := ⟨.none, .none, .none, .none, .none⟩

def layer (o : Overrides) : List (String × Value) :=
  let text (key : String) (s : Option String) : List (String × Value) :=
    (s.map fun s => (key, Value.scalar .none (.text s))).toList
  text "log.path" o.logPath
    ++ (o.port.map fun p => ("server.port", Value.scalar .none (.integer p.toNat))).toList
    ++ text "server.socket_path" o.socketPath ++ text "verifier.root" o.verifierRoot
    ++ text "verifier.success_marker" o.successMarker

end Overrides

inductive LoadError where
  | file (e : FileError)
  | field (e : FieldError)
  deriving DecidableEq, Repr

namespace LoadError

def context : LoadError → String
  | .file _ => "parsing config"
  | .field _ => "deserializing config"

def message? : LoadError → Option String
  | .file e => e.message?
  | .field e => some e.message

end LoadError

def gather (tree : Files.Tree) (environment : Environment) (file : Option String)
    (overrides : Overrides) : Except LoadError Value := do
  let middle ←
    match file with
    | .none => pure []
    | some name => (fileLayer tree name).mapError .file
  pure (((Value.empty.lay environment.layer).lay middle).lay overrides.layer)

def sectionOf {α : Type} (v : Value) (name : String) (read : Value → Except FieldError α)
    (default : α) : Except FieldError α :=
  match v with
  | .table _ members =>
    match members.lookup name with
    | some value => read value
    | .none => .ok default
  | _ => .ok default

def ofValue (v : Value) : Except FieldError Settings := do
  let server ← sectionOf v ServerSettings.shape.name ServerSettings.ofValue .default
  let verifier ← sectionOf v VerifierSettings.shape.name VerifierSettings.ofValue .default
  let log ← sectionOf v LogSettings.shape.name LogSettings.ofValue .default
  pure ⟨server, verifier, log⟩

def load (tree : Files.Tree) (environment : Environment) (file : Option String)
    (overrides : Overrides) : Except LoadError Settings := do
  let value ← gather tree environment file overrides
  (ofValue value).mapError .field

end Settings

end AttestationService
