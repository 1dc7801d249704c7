import AttestationService.Http.Body
import AttestationService.Http.Method
import AttestationService.Http.Target

/-!
Requests.
-/

namespace AttestationService.Http

structure Request where
  method : Method
  target : Target
  headers : Headers
  body : List Chunk

end AttestationService.Http
