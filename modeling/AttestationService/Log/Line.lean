import AttestationService.Log.Filter

/-!
Lines of the log, without the time that each begins with: the level, the request it was reported on
behalf of, the part of the service, the message and the fields.
-/

namespace AttestationService.Log

def harmless (c : Char) : List Char :=
  let n := c.toNat
  if n = 0x07 ∨ n = 0x08 ∨ n = 0x0C ∨ n = 0x1B ∨ n = 0x7F then
    ['\\', 'x'] ++ (Nat.toDigits 16 (256 + n)).tail
  else if 0x80 ≤ n ∧ n ≤ 0x9F then ['\\', 'u', '\x7b'] ++ Nat.toDigits 16 n ++ ['\x7d']
  else [c]

def messageText (notice : Notice) : String :=
  String.ofList (notice.message.toList.flatMap harmless)

def fieldText (field : String × String) : String := s!" {field.1}={field.2}"

def requestText (id : String) : String := requestSpan ++ "\x7brequest_id=" ++ id ++ "\x7d: "

def line (filter : Filter) (id : Option String) (notice : Notice) : String :=
  let request := if filter.showsRequests then (id.map requestText).getD "" else ""
  let fields := String.join (notice.fields.map fieldText)
  s!"{notice.level.name} {request}{notice.source}: {messageText notice}{fields}"

def line? (filter : Filter) (id : Option String) (notice : Notice) : Option String :=
  if filter.allows id.isSome notice then some (line filter id notice) else none

end AttestationService.Log
