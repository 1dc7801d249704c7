import AttestationService.Hex
import AttestationService.Text.Utf8

/-!
The nonce that a client may bind into an attestation: thirty-two octets in hexadecimal. The text is
kept as the client wrote it, letter case included.
-/

namespace AttestationService

def Nonce.size : UInt64 := 32

structure Nonce where
  text : String
  isHex : Hex.isEncodingOf (Utf8.encodeString text) Nonce.size = true
  deriving DecidableEq

inductive Nonce.Error where
  | notHex
  deriving DecidableEq, Repr

def Nonce.Error.message : Nonce.Error → String
  | .notHex => "nonce must be a 32-byte hex string"

def Nonce.ofString (text : String) : Except Nonce.Error Nonce :=
  if h : Hex.isEncodingOf (Utf8.encodeString text) Nonce.size = true then .ok ⟨text, h⟩
  else .error .notHex

/-- An empty text stands for no nonce. -/
def Nonce.optional (text : String) : Except Nonce.Error (Option Nonce) :=
  if text.isEmpty then .ok none else (Nonce.ofString text).map some

end AttestationService
