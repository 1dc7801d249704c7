import AttestationService.Http.Answer
import AttestationService.Http.Chunked
import AttestationService.Session

/-!
A connection: requests one after the other in a stretch of octets, each answered before the next is
looked at. The connection ends with a request that asks for it, with octets that are no request, and
with a body whose end was not reached.
-/

namespace AttestationService

namespace Http

def Transfer.deliver (transfer : Transfer) (octets : List UInt8) : Delivery :=
  match transfer with
  | .chunked => Chunked.read octets
  | .sized 0 => ⟨[], .complete, octets⟩
  | .sized length =>
    if octets.isEmpty then ⟨[], .missing, []⟩
    else if octets.length < length then ⟨[octets], .missing, []⟩
    else ⟨[octets.take length], .complete, octets.drop length⟩

def brokenBody : String := "error reading a body from connection"

/-- The body as the service reads it. What is missing never comes. -/
def Delivery.chunks (readDeadline : Nat) (delivery : Delivery) : List Chunk :=
  delivery.pieces.map (⟨0, .ok ·⟩) ++
    match delivery.ending with
    | .complete | .trailed => []
    | .broken => [⟨0, .error brokenBody⟩]
    | .missing => [⟨readDeadline, .ok []⟩]

end Http

structure Conversation where
  answers : List Http.Answer
  closed : Bool
  occurrences : List Occurrence
  entries : List Entry

namespace Connection

def foreignOpening : List UInt8 := Http.ascii "PRI * HTTP/2.0\r\n\r\nSM\r\n\r\n"

def wantsBody (head : Http.Head) : Bool :=
  Route.ofPath head.target.path == .attest && head.method == .post

def looks (transfer : Http.Transfer) (delivery : Http.Delivery) : Nat :=
  match transfer with
  | .sized _ => delivery.pieces.length
  | .chunked => delivery.pieces.length + 1

/-- Whether the octets after a body can be reached. A body that nothing reads is passed over if that
takes no more than a look before the response, unless the client waits for a word, and one after. -/
def passes (head : Http.Head) (framing : Http.Framing) (delivery : Http.Delivery) : Bool :=
  delivery.ending == .complete &&
    if wantsBody head then delivery.pieces.flatten.length ≤ maxBodySize
    else looks framing.transfer delivery ≤ if framing.awaitsWord then 1 else 2

def refuse (version : Http.Version) (fault : Http.HeadFault) : Conversation :=
  ⟨[.ofResponse version false none (.empty fault.status)], true, [], []⟩

def respond (service : Service) (head : Http.Head) (framing : Http.Framing)
    (delivery : Http.Delivery) (session : Session) : Conversation × Session :=
  let request : Http.Request :=
    ⟨head.method, head.target, head.headers, delivery.chunks service.deadlines.read⟩
  let (account, session) := session.exchange service [⟨request, session.now, none⟩]
  let word : List Http.Answer :=
    if framing.awaitsWord && wantsBody head && framing.transfer != .sized 0 then [.sendBody] else []
  let answers := account.replies.filterMap fun
    | .answered response _ => some (.ofResponse head.version framing.keepAlive head.method response)
    | .cancelled _ => none
  let goesOn := framing.keepAlive && passes head framing delivery
  (⟨word ++ answers, !goesOn, account.occurrences, account.entries⟩, session)

/-- Works through the octets, `fuel` requests at most. What is no request is answered in the version
of the last request. -/
def converseWith (service : Service) :
    Nat → Http.Version → List UInt8 → Session → Conversation × Session
  | 0, _, _, session => (⟨[], false, [], []⟩, session)
  | fuel + 1, version, octets, session =>
    match Http.Head.read octets with
    | .starved => (⟨[], false, [], []⟩, session)
    | .failed fault => (refuse version fault, session)
    | .done head rest =>
      match Http.Framing.ofHead head with
      | .error fault => (refuse version fault, session)
      | .ok framing =>
        let delivery := framing.transfer.deliver rest
        let (first, session) := respond service head framing delivery session
        if first.closed then (first, session)
        else
          let (others, session) := converseWith service fuel head.version delivery.rest session
          (⟨first.answers ++ others.answers, others.closed, first.occurrences ++ others.occurrences,
            first.entries ++ others.entries⟩, session)

def converse (service : Service) (octets : List UInt8) (session : Session) :
    Conversation × Session :=
  if foreignOpening.isPrefixOf octets then (⟨[], true, [], []⟩, session)
  else converseWith service (octets.length + 1) .oneOne octets session

end Connection

end AttestationService
