/-!
# The exceptions of the HTTP layer

`error` is the machine-readable code of the body; `message` is the text, or the
list of texts a validation failure reports.
-/

namespace Flexi

structure HttpError where
  status : Nat
  error : String
  message : List String
  deriving DecidableEq, Repr

namespace HttpError

def badRequest (error : String) (message : List String) : HttpError := ⟨400, error, message⟩

def validation (message : String) : HttpError := badRequest "VALIDATION_ERROR" [message]

/-- What the exception filter makes of an error that is no `HttpException`. -/
def unexpected : HttpError := ⟨500, "INTERNAL_SERVER_ERROR", ["An unexpected error occurred"]⟩

def notFound (message : String) : HttpError := ⟨404, "NOT_FOUND", [message]⟩

end HttpError

end Flexi
