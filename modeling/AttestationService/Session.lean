import AttestationService.Intake
import AttestationService.Outcome
import AttestationService.Route
import AttestationService.RunQueue

/-!
The service in time, in milliseconds. Calls are sent at their times; each is taken in on its own,
an admitted one waits for its run, and each ends with a response or because its client gave up. The
runs of callers that are gone take place all the same.
-/

namespace AttestationService

structure Deadlines where
  /-- For each chunk of a body. -/
  read : Nat
  /-- For the whole response. -/
  write : Nat
  deriving DecidableEq, Repr

structure Service where
  deadlines : Deadlines
  successMarker : String
  tool : Verifier.Tool
  /-- What a numbered call's id is made of if the client gives none. -/
  ids : Nat → Correlation.Seed

structure Call where
  request : Http.Request
  sent : Nat
  patience : Option Nat

inductive Departure where
  | expired
  | cancelled
  deriving DecidableEq, Repr

/-- When and how a call ends if nothing answers it first. The deadline comes before the client. -/
def Call.departure (writeDeadline : Nat) (call : Call) : Nat × Departure :=
  let deadline := call.sent + writeDeadline
  match call.patience with
  | none => (deadline, .expired)
  | some patience =>
    if call.sent + patience < deadline then (call.sent + patience, .cancelled)
    else (deadline, .expired)

inductive Reply where
  | answered (response : Http.Response) (time : Nat)
  | cancelled (time : Nat)

def Reply.time : Reply → Nat
  | .answered _ time => time
  | .cancelled time => time

structure Entry where
  time : Nat
  id : Correlation
  notice : Log.Notice

namespace Service

def identify (service : Service) (number : Nat) (request : Http.Request) : Correlation :=
  .resolve request.headers (service.ids number)

/-- The response as it leaves the service: with the request's id, and without a body if the method
asks for none. -/
def finalize (id : Correlation) (method : Http.Method) (response : Http.Response) : Http.Response :=
  let response := if method = .head then response.withoutBody else response
  { response with headers := response.headers.set Correlation.responseHeader id.headerValue }

structure Arrival where
  call : Call
  id : Correlation
  entries : List Entry
  stage : Reply ⊕ Ticket

def depart (id : Correlation) (call : Call) (departure : Nat × Departure) : Reply :=
  match departure with
  | (time, .expired) => .answered (finalize id call.request.method (.empty 408)) time
  | (time, .cancelled) => .cancelled time

/-- Whether the taking in of a call gets as far as the given time. At one and the same moment it
comes before the client's giving up and after the deadline. -/
def reaches (departure : Nat × Departure) (time : Nat) : Bool :=
  time < departure.1 || (time == departure.1 && departure.2 == .cancelled)

def arrive (service : Service) (number : Nat) (call : Call) : Arrival :=
  let id := service.identify number call.request
  let departure := call.departure service.deadlines.write
  let assigned : List Entry := match id with
    | .assigned _ => [⟨call.sent, id, .idAssigned⟩]
    | .provided _ => []
  let answered (response : Http.Response) (time : Nat) : Reply :=
    .answered (finalize id call.request.method response) time
  match Route.immediate? call.request with
  | some response =>
    let reply :=
      if reaches departure call.sent then answered response call.sent else depart id call departure
    ⟨call, id, assigned, .inl reply⟩
  | none =>
    let intake := Intake.ofRequest service.deadlines.read call.sent call.request
    let heard := intake.notices.filter fun n => reaches departure n.1
    let entries := assigned ++ heard.map fun n => ⟨n.1, id, n.2⟩
    let stage : Reply ⊕ Ticket :=
      if reaches departure intake.ready then
        match intake.verdict with
        | .ok nonce => .inr ⟨number, id, nonce, intake.ready⟩
        | .error rejection => .inl (answered rejection.response intake.ready)
      else .inl (depart id call departure)
    ⟨call, id, entries, stage⟩

/-- The reply to a call whose run is known, and what is reported when the run has answered it. The
client's giving up comes before an end of the run at the same moment, and so does the deadline. -/
def conclude (service : Service) (arrival : Arrival) (tenure : Tenure) : Reply × List Entry :=
  let departure := arrival.call.departure service.deadlines.write
  if tenure.ends < departure.1 then
    let ending := tenure.performance.ending
    let run := ending.run
    let outcome := Outcome.ofRun run service.successMarker
    let lost : List Log.Notice := match ending with
      | .panicked text => [.runLost (Verifier.Ending.panicReason text)]
      | .completed _ => []
    let failed : List Log.Notice := (run.failure.map .runFailed).toList
    let completed : Log.Notice := .attestCompleted outcome.status (tenure.ends - arrival.call.sent)
    (.answered (finalize arrival.id arrival.call.request.method outcome.response) tenure.ends,
      (lost ++ failed ++ [completed]).map fun n => ⟨tenure.ends, arrival.id, n⟩)
  else (depart arrival.id arrival.call departure, [])

end Service

structure Session where
  queue : RunQueue
  now : Nat
  calls : Nat

structure Account where
  replies : List Reply
  occurrences : List Occurrence
  entries : List Entry

namespace Session

def start : Session := ⟨.empty, 0, 0⟩

def occurrenceEntries (occurrences : List Occurrence) : List Entry :=
  occurrences.flatMap fun o => o.notices.map fun n => ⟨o.time, o.tenure.ticket.id, n⟩

/-- Entries by time; those of one moment stay in their order. -/
def sortEntries (entries : List Entry) : List Entry :=
  entries.mergeSort fun a b => a.time ≤ b.time

/-- Nothing is sent for a while. What is due at the end of that while has not happened yet. -/
def pause (service : Service) (milliseconds : Nat) (s : Session) : Account × Session :=
  let now := s.now + milliseconds
  let (occurrences, queue) := s.queue.advance service.tool (some now)
  (⟨[], occurrences, occurrenceEntries occurrences⟩, ⟨queue, now, s.calls⟩)

def tickets (arrivals : List Service.Arrival) : List Ticket :=
  (arrivals.filterMap fun a => a.stage.getRight?).mergeSort fun a b => a.admitted ≤ b.admitted

def endOf? (occurrences : List Occurrence) (caller : Nat) : Option Tenure :=
  occurrences.findSome? fun
    | .ended tenure => if tenure.ticket.caller = caller then some tenure else none
    | .started _ => none

/-- Sends the calls and waits until each has ended. What is due at that moment still happens. -/
def exchange (service : Service) (calls : List Call) (s : Session) : Account × Session :=
  let arrivals := calls.zipIdx.map fun (call, i) => service.arrive (s.calls + i) call
  let (early, queue) := s.queue.acceptAll service.tool (tickets arrivals)
  let all := early ++ (queue.advance service.tool none).1
  let concluded := arrivals.map fun arrival =>
    match arrival.stage with
    | .inl reply => (reply, [])
    | .inr ticket =>
      match endOf? all ticket.caller with
      | some tenure => service.conclude arrival tenure
      | none => (Service.depart arrival.id arrival.call (arrival.call.departure service.deadlines.write), [])
  let replies := concluded.map (·.1)
  let now := (replies.map Reply.time).foldl max s.now
  let (late, queue) := queue.advance service.tool (some (now + 1))
  let occurrences := early ++ late
  let entries := sortEntries
    (arrivals.flatMap (·.entries) ++ occurrenceEntries occurrences ++ concluded.flatMap (·.2))
  (⟨replies, occurrences, entries⟩, ⟨queue, now, s.calls + calls.length⟩)

end Session

end AttestationService
