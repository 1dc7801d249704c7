import AttestationService.CommandLine.Arguments
import AttestationService.Connection
import AttestationService.Listeners
import AttestationService.Log.Journal
import AttestationService.Verifier.Installation

/-!
The program from its command line to its end. `Launch.begin` gets it as far as listening, or to an
early end; after that it serves connections and waits until a signal stops it.
-/

namespace AttestationService

structure Launch where
  arguments : List (List UInt8)
  environment : Settings.Environment
  host : Host
  takePort : UInt16 → Except OsError String
  /-- What the system says to a change of the socket's mode. -/
  changeMode : Except OsError Unit
  ids : Nat → Correlation.Seed

structure Ending where
  code : Nat
  output : String
  errors : String
  host : Host

structure Running where
  service : Service
  socketPath : String
  journal : Log.Journal
  host : Host
  session : Session

def Log.Journal.text (journal : Log.Journal) : String :=
  String.join (journal.lines.reverse.map (· ++ "\n"))

namespace Launch

def lookup? (l : Launch) (name : String) : Option (List Char) :=
  (l.environment.lookup (Utf8.encodeString name)).bind Utf8.decode?

def usualSearchPath : String := "/bin:/usr/bin"

def searchPath (l : Launch) : Files.Path :=
  (l.environment.lookup (Utf8.encodeString "PATH")).getD (Utf8.encodeString usualSearchPath)

def failed (host : Host) (errors : String) : Ending := ⟨1, "", errors, host⟩

def loadFailure (e : Settings.LoadError) : String :=
  "Failed to load config: " ++ ": ".intercalate (e.context :: e.message?.toList) ++ "\n"

def openJournal (l : Launch) (settings : Settings) : Except Ending (Log.Journal × Files.Tree) :=
  let (filter, faults) := Log.Filter.ofText ((l.lookup? "RUST_LOG").getD [])
  let lines := (faults.map Log.Filter.complaint).reverse
  match settings.log.file? with
  | none => .ok (⟨filter, none, lines⟩, l.host.files)
  | some path =>
    match Log.openFile l.host.files path with
    | (.ok file, files) => .ok (⟨filter, some file, lines⟩, files)
    | (.error fault, files) =>
      let said : Log.Journal := ⟨filter, none, lines⟩
      .error (failed { l.host with files }
        (said.text ++ s!"Failed to initialize logging: {fault.message}\n"))

def greeting (settings : Settings) : Log.Greeting :=
  ⟨settings.server.port.toNat, settings.server.socketPath, settings.verifier.root,
    settings.verifier.successMarker, settings.log.file?⟩

/-- The service that the settings describe. Its verifier finds the files as they are now. -/
def serviceOf (l : Launch) (settings : Settings) (files : Files.Tree) : Service :=
  let installation : Verifier.Installation :=
    ⟨Utf8.encodeString settings.verifier.root, settings.verifier.elevate⟩
  ⟨⟨settings.server.readTimeout.milliseconds, settings.server.writeTimeout.milliseconds⟩,
    settings.verifier.successMarker, installation.tool ⟨files, l.searchPath⟩, l.ids⟩

def listen (l : Launch) (settings : Settings) (journal : Log.Journal) (files : Files.Tree) :
    Except Ending Running :=
  let (journal, files) := journal.write files none (.starting (greeting settings))
  let address := l.takePort settings.server.port
  let path := settings.server.socketPath
  match ({ l.host with files } : Host).listen settings.server.endpoint (address.map fun _ => ())
      l.changeMode (Utf8.encodeString path) with
  | (.error e, host) =>
    let (journal, files) :=
      journal.write host.files none (.startFailed s!"Failed to start server: {e.message}")
    .error (failed { host with files } journal.text)
  | (.ok complaint, host) =>
    let (journal, files) := match complaint with
      | none => (journal, host.files)
      | some e => journal.write host.files none (.socketNotShared e)
    let (journal, files) :=
      journal.write files none (.listening (address.toOption.getD settings.server.endpoint))
    let (journal, files) := journal.write files none (.listeningSocket path)
    .ok ⟨l.serviceOf settings files, path, journal, { host with files }, .start⟩

def begin (l : Launch) : Except Ending Running :=
  match CommandLine.read l.arguments with
  | .error .help => .error ⟨0, CommandLine.help, "", l.host⟩
  | .error (.fault fault) => .error ⟨2, "", fault.text, l.host⟩
  | .ok arguments =>
    match Settings.load l.host.files l.environment arguments.file arguments.overrides with
    | .error e => .error (failed l.host (loadFailure e))
    | .ok settings => do
      let (journal, files) ← l.openJournal settings
      l.listen settings journal files

end Launch

namespace Running

def record (r : Running) (entries : List Entry) : Running :=
  let (journal, files) := entries.foldl (fun (journal, files) entry =>
    journal.write files (some entry.id.text) entry.notice) (r.journal, r.host.files)
  { r with journal, host := { r.host with files } }

def serve (r : Running) (octets : List UInt8) : Conversation × Running :=
  let (conversation, session) := Connection.converse r.service octets r.session
  (conversation, { r with session }.record conversation.entries)

def wait (r : Running) (milliseconds : Nat) : Running :=
  let (account, session) := r.session.pause r.service milliseconds
  { r with session }.record account.entries

/-- Stops the program. Runs that have not ended by then are not heard of again. -/
def stop (r : Running) (signal : Log.StopSignal) : Ending :=
  let (journal, files) := r.journal.write r.host.files none (.stopRequested signal)
  let host : Host := { r.host with files }
  let (journal, host) : Log.Journal × Host :=
    match host.closeSocket (Utf8.encodeString r.socketPath) with
    | .ok host => (journal, host)
    | .error e =>
      let (journal, files) := journal.write host.files none (.socketNotRemoved r.socketPath e)
      (journal, { host with files })
  let (journal, files) := journal.write host.files none .stopping
  ⟨0, "", journal.text, { host with files }⟩

end Running

end AttestationService
