import JobPipeline.Core.Values
import JobPipeline.Lib.HexText

/-!
# Errors (`core/errors.py`)

A `ServiceError` is what the API layer turns into an HTTP response. `Exc` collects everything
that can be raised through the functions modelled here.
-/

set_option autoImplicit false

namespace JobPipeline

structure ServiceError where
  code : String
  message : String
  statusCode : Nat
  details : JsonObject

def notFoundError (message : String) : ServiceError := ⟨"not_found", message, 404, []⟩

def conflictError (message : String) (details : JsonObject) : ServiceError :=
  ⟨"conflict", message, 409, details⟩

def badRequestError (message : String) (details : JsonObject) : ServiceError :=
  ⟨"bad_request", message, 400, details⟩

def dependencyUnavailableError (message : String) (details : JsonObject) : ServiceError :=
  ⟨"dependency_unavailable", message, 503, details⟩

/-- A raised exception. -/
inductive Exc where
  | service (e : ServiceError)
  /-- `TransientJobError(message)`: a failed, timed out or resultless attempt. -/
  | transient (message : String)
  | keyError (key : String)
  | valueError (text : String)
  /-- `sqlalchemy.exc.IntegrityError`: this unique constraint refused the transaction. -/
  | integrityError (constraint : String)
  /-- `sqlalchemy.exc.DataError`: a value does not fit this column. -/
  | dataError (column : String)
  /-- Any other exception, by class name and `str`. -/
  | other (className text : String)

/-- The class a caller sees: `NotFoundError`, `ConflictError` and so on. -/
def Exc.className : Exc → String
  | .service e =>
    if e.code = "not_found" then "NotFoundError"
    else if e.code = "conflict" then "ConflictError"
    else if e.code = "bad_request" then "BadRequestError"
    else "DependencyUnavailableError"
  | .transient _ => "TransientJobError"
  | .keyError _ => "KeyError"
  | .valueError _ => "ValueError"
  | .integrityError _ => "IntegrityError"
  | .dataError _ => "DataError"
  | .other className _ => className

/-- The quote of `repr`: double where the text has single ones only. -/
def reprQuote (s : List Char) : Char :=
  if Char.ofNat 39 ∈ s ∧ Char.ofNat 34 ∉ s then Char.ofNat 34 else Char.ofNat 39

/-- One character of a `repr`. From 256 on every character is taken to be printable. -/
def reprChar (quote c : Char) : List Char :=
  let backslash := Char.ofNat 92
  if c = quote ∨ c = backslash then [backslash, c]
  else if c.toNat = 9 then [backslash, 't']
  else if c.toNat = 10 then [backslash, 'n']
  else if c.toNat = 13 then [backslash, 'r']
  else if c.toNat < 32 ∨ (127 ≤ c.toNat ∧ c.toNat ≤ 160) ∨ c.toNat = 173 then
    backslash :: 'x' :: PyStr.hexText 2 c.toNat
  else [c]

/-- `repr` of a text. -/
def reprText (s : String) : String :=
  let quote := reprQuote s.toList
  String.ofList (quote :: s.toList.flatMap (reprChar quote) ++ [quote])

/-- The details of an error are texts, numbers and truth values. -/
def reprField : String × Json → String
  | (k, .str s) => reprText k ++ ": " ++ reprText s
  | (k, .num n) => reprText k ++ ": " ++ n
  | (k, .bool b) => reprText k ++ ": " ++ if b then "True" else "False"
  | (k, _) => reprText k ++ ": ..."

/-- `str(exc)`. A `ServiceError` is a dataclass that never calls `Exception.__init__`, so its
    `args` are the constructor's own arguments: the message alone, or the tuple of the message
    and the details. -/
def Exc.text : Exc → String
  | .service e =>
    if e.code = "not_found" then e.message
    else "(" ++ reprText e.message ++ ", \x7b" ++
      ", ".intercalate (e.details.map reprField) ++ "\x7d)"
  | .transient message => message
  | .keyError key => reprText key
  | .valueError text => text
  | .integrityError constraint => "duplicate key value violates unique constraint " ++ constraint
  | .dataError column => "value does not fit column " ++ column
  | .other _ text => text

end JobPipeline
