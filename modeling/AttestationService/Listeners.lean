import AttestationService.Files.Tree
import AttestationService.OsError

/-!
Where the service listens: a port, and a socket in the file tree. An entry in the socket's way is
removed unless it is a directory, and the directories that the socket needs are made.
-/

namespace AttestationService

structure Host where
  files : Files.Tree
  hidden : List (List UInt8)
  deriving Repr

inductive ListenError where
  | portRefused (endpoint : String) (cause : OsError)
  | notRemoved (cause : SystemError)
  | noDirectory (cause : SystemError)
  | noSocket (cause : SystemError)
  deriving DecidableEq, Repr

namespace ListenError

def context : ListenError → String
  | .portRefused endpoint _ => s!"Failed to bind to {endpoint}"
  | .notRemoved _ => "Failed to remove existing socket file"
  | .noDirectory _ => "Failed to create socket directory"
  | .noSocket _ => "Failed to create unix socket"

def cause : ListenError → SystemError
  | .portRefused _ cause => .os cause
  | .notRemoved cause | .noDirectory cause | .noSocket cause => cause

def message (e : ListenError) : String := s!"{e.context}: {e.cause.message}"

end ListenError

namespace Host

def hasZero (path : Files.Path) : Bool := path.contains 0

/-- How many octets the address of a socket has room for, the one that ends a path included. -/
def addressRoom : Nat := 108

def directoryMode : Nat := 0o755

def socketMode : Nat := 0o666

def clear (host : Host) (path : Files.Path) : Except ListenError Host :=
  if hasZero path then .ok host
  else
    match host.files.entryAt path with
    | .error _ => .ok host
    | .ok _ =>
      match host.files.unlink path with
      | .error e => .error (.notRemoved (.os e))
      | .ok files => .ok { host with files }

def prepareDirectory (host : Host) (path : Files.Path) : Except ListenError Unit × Host :=
  match path.parent? with
  | none => (.ok (), host)
  | some directory =>
    if directory.isEmpty then (.ok (), host)
    else if hasZero directory then (.error (.noDirectory .zeroInPath), host)
    else
      match host.files.makeWithHolders directory directoryMode with
      | (.ok (), files) => (.ok (), { host with files })
      | (.error e, files) => (.error (.noDirectory (.os e)), { host with files })

/-- Makes the socket. An empty path leaves the choice of a name to the system, and a path that
begins with a zero is a name outside the tree. -/
def bind (host : Host) (path : Files.Path) : Except ListenError Host :=
  match path with
  | [] => .ok host
  | 0 :: name =>
    if addressRoom ≤ name.length then
      .error (.noSocket (.other "abstract socket name must be shorter than SUN_LEN"))
    else if host.hidden.contains name then .error (.noSocket (.os .addressInUse))
    else .ok { host with hidden := name :: host.hidden }
  | _ =>
    if hasZero path then
      .error (.noSocket (.other "paths must not contain interior null bytes"))
    else if addressRoom ≤ path.length then
      .error (.noSocket (.other "path must be shorter than SUN_LEN"))
    else
      match host.files.makeSocket path directoryMode with
      | .error e => .error (.noSocket (.os e))
      | .ok files => .ok { host with files }

/-- Lets every user reach the socket. The system's answer to the change of mode may be no, and that
is for the log alone. -/
def share (host : Host) (change : Except OsError Unit) (path : Files.Path) :
    Option SystemError × Host :=
  if hasZero path then (some .zeroInPath, host)
  else
    match (host.files.chmod path socketMode).bind fun files => change.map fun _ => files with
    | .error e => (some (.os e), host)
    | .ok files => (none, { host with files })

/-- Makes a socket to listen on, and says what kept its mode from being changed, if anything did. The
host is left as far as that went. -/
def openSocket (host : Host) (change : Except OsError Unit) (path : Files.Path) :
    Except ListenError (Option SystemError) × Host :=
  match host.clear path with
  | .error e => (.error e, host)
  | .ok cleared =>
    match cleared.prepareDirectory path with
    | (.error e, host) => (.error e, host)
    | (.ok (), ready) =>
      match ready.bind path with
      | .error e => (.error e, ready)
      | .ok bound =>
        let (complaint, shared) := bound.share change path
        (.ok complaint, shared)

/-- Takes the port and then the socket. Nothing is touched if the port cannot be had. -/
def listen (host : Host) (endpoint : String) (port change : Except OsError Unit)
    (path : Files.Path) : Except ListenError (Option SystemError) × Host :=
  match port with
  | .error e => (.error (.portRefused endpoint e), host)
  | .ok () => host.openSocket change path

def closeSocket (host : Host) (path : Files.Path) : Except SystemError Host :=
  if hasZero path then .error .zeroInPath
  else
    match host.files.unlink path with
    | .error e => .error (.os e)
    | .ok files => .ok { host with files }

end Host

end AttestationService
