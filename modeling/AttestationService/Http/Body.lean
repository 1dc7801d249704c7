/-!
Request bodies, which arrive chunk by chunk. `collect` waits for each chunk no longer than the read
deadline and takes no more octets than the limit.
-/

namespace AttestationService.Http

/-- A chunk arrives `delay` milliseconds after the one before it was taken, or reading fails then. -/
structure Chunk where
  delay : Nat
  content : Except String (List UInt8)

inductive BodyError where
  | failed (reason : String)
  | late
  | tooLong
  deriving DecidableEq, Repr

def BodyError.message : BodyError → String
  | .failed reason => reason
  | .late => "data was not received within the designated timeout"
  | .tooLong => "length limit exceeded"

namespace Body

/-- Reads the chunks from the time `now` on, `room` octets at most, and says when it was done. A
chunk that is due exactly at the deadline is late. -/
def collect (deadline : Nat) (now room : Nat) (taken : List (List UInt8)) :
    List Chunk → Nat × Except BodyError (List UInt8)
  | [] => (now, if deadline = 0 then .error .late else .ok taken.reverse.flatten)
  | chunk :: rest =>
    if deadline ≤ chunk.delay then (now + deadline, .error .late)
    else
      match chunk.content with
      | .error reason => (now + chunk.delay, .error (.failed reason))
      | .ok octets =>
        if room < octets.length then (now + chunk.delay, .error .tooLong)
        else collect deadline (now + chunk.delay) (room - octets.length) (octets :: taken) rest

end Body

end AttestationService.Http
