import AttestationService.Json.Record

/-!
The three messages that the service exchanges as JSON: the request with an optional nonce, the
envelope around a verifier run, and the build information. Each is written with its fields in their
order and read as a record.
-/

namespace AttestationService

structure NonceRequest where
  nonce : Option String
  deriving DecidableEq, Repr

structure Envelope where
  output : String
  token : Option Json.Value
  deriving Repr, BEq

structure BuildInfo where
  version : String
  commit : String
  builtAt : String
  deriving DecidableEq, Repr

namespace NonceRequest

def shape : Json.Shape := ⟨"struct AttestRequest", [⟨"nonce", .optionalText⟩]⟩

/-- A missing nonce is left out. -/
def toJson (r : NonceRequest) : Json.Value :=
  .object (r.nonce.toList.map fun n => ("nonce", .string n))

def ofJson? (input : Json.Input) : Except Json.RecordError NonceRequest :=
  (Json.readRecord shape input).map fun
    | [.text nonce] => ⟨some nonce⟩
    | _ => ⟨none⟩

end NonceRequest

namespace Envelope

def shape : Json.Shape :=
  ⟨"struct AttestResponse", [⟨"attestation_output", .text⟩, ⟨"entity_attestation_token", .optionalValue⟩]⟩

/-- A missing token is written as null. -/
def toJson (e : Envelope) : Json.Value :=
  .object [("attestation_output", .string e.output),
    ("entity_attestation_token", e.token.getD .null)]

def ofJson? (input : Json.Input) : Except Json.RecordError Envelope :=
  (Json.readRecord shape input).map fun
    | [.text output, .value token] => ⟨output, some token⟩
    | [.text output, _] => ⟨output, none⟩
    | _ => ⟨"", none⟩

end Envelope

namespace BuildInfo

def shape : Json.Shape :=
  ⟨"struct AboutResponse", [⟨"version", .text⟩, ⟨"git_hash", .text⟩, ⟨"built_at", .text⟩]⟩

def toJson (b : BuildInfo) : Json.Value :=
  .object [("version", .string b.version), ("git_hash", .string b.commit),
    ("built_at", .string b.builtAt)]

def ofJson? (input : Json.Input) : Except Json.RecordError BuildInfo :=
  (Json.readRecord shape input).map fun
    | [.text version, .text commit, .text builtAt] => ⟨version, commit, builtAt⟩
    | _ => ⟨"", "", ""⟩

end BuildInfo

end AttestationService
