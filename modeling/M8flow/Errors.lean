import Mathlib.Logic.Basic

/-!
# API errors

`ApiError` is what the host raises to answer a request with an error response.
-/

namespace M8flow

/-- `errors.ApiError`, with the fields every response carries and the two that
mark a submission whose automatic follow-up step failed. -/
structure ApiError where
  errorCode : String
  message : String
  statusCode : Nat
  taskSubmitted : Option Bool
  automaticStepErrorMessage : Option String
  processInstanceId : Option Nat
  deriving Repr, DecidableEq

/-- `ApiError(error_code, message, status_code)` with the other fields absent. -/
def ApiError.of (errorCode message : String) (statusCode : Nat) : ApiError :=
  { errorCode, message, statusCode, taskSubmitted := none,
    automaticStepErrorMessage := none, processInstanceId := none }

end M8flow
