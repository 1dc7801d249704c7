import AttestationService.Http.Head

/-!
What the fields of a head say about the body and the connection: where the body ends, whether the
client waits to be asked for it, and whether another request may follow.
-/

namespace AttestationService.Http

inductive Transfer where
  | sized (length : Nat)
  | chunked
  deriving DecidableEq, Repr

structure Framing where
  transfer : Transfer
  keepAlive : Bool
  awaitsWord : Bool
  deriving DecidableEq, Repr

namespace Framing

def maxLength : Nat := 0xFFFFFFFFFFFFFFFD

def isPlainOctet (o : UInt8) : Bool := o == 0x09 || (0x20 ≤ o && o < 0x7F)

def lower (octets : List UInt8) : String :=
  String.ofList ((Scanner.characters octets).map Char.toLower)

/-- The items between the commas of a value, in lower case. Other than plain text has none. -/
def items (value : List UInt8) : List String :=
  if value.all isPlainOctet then
    (Text.fields 0x2C value).map fun item => lower (Scanner.stripped item)
  else []

def isDigit (o : UInt8) : Bool := 0x30 ≤ o && o ≤ 0x39

def length? (value : List UInt8) : Option Nat :=
  if !value.isEmpty && value.all isDigit then
    let length := value.foldl (fun n o => 10 * n + (o.toNat - 0x30)) 0
    if length < 0x10000000000000000 then some length else none
  else none

structure Draft where
  length : Option Nat
  chunked : Option Bool
  keepAlive : Bool
  awaitsWord : Bool

/-- A field takes effect. A length counts for nothing once a transfer encoding was named, and two
different lengths are a fault. -/
def Draft.step (version : Version) (draft : Draft) (header : Header) : Except HeadFault Draft :=
  if header.name = "transfer-encoding" then
    if version = .oneZero then .error .malformed
    else .ok { draft with chunked := some ((items header.value).getLast? == some "chunked") }
  else if header.name = "content-length" then
    if draft.chunked.isSome then .ok draft
    else
      match length? header.value, draft.length with
      | none, _ => .error .malformed
      | some length, some known => if length = known then .ok draft else .error .malformed
      | some length, none =>
        if length ≤ maxLength then .ok { draft with length := some length } else .error .tooLarge
  else if header.name = "connection" then
    let items := items header.value
    .ok { draft with
      keepAlive := if draft.keepAlive then !items.contains "close" else items.contains "keep-alive" }
  else if header.name = "expect" then
    .ok { draft with awaitsWord := lower header.value == "100-continue" }
  else .ok draft

/-- The framing that a head asks for. A body in an encoding whose end cannot be known is a fault. -/
def ofHead (head : Head) : Except HeadFault Framing := do
  let start : Draft := ⟨none, none, head.version == .oneOne, false⟩
  let draft ← head.headers.foldlM (Draft.step head.version) start
  let framing (transfer : Transfer) : Framing :=
    ⟨transfer, draft.keepAlive, draft.awaitsWord && head.version == .oneOne⟩
  match draft.chunked with
  | some true => .ok (framing .chunked)
  | some false => .error .malformed
  | none => .ok (framing (.sized (draft.length.getD 0)))

end Framing

end AttestationService.Http
