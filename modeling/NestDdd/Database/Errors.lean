import NestDdd.Shared.Js

/-!
# Database errors

The typed errors the database layer throws (`src/application/errors`,
`src/infrastructure/database/errors`), as the objects their constructors build,
and `mapOracleError` (`clients/oracle/oracle-error.mapper.ts`), which turns a
driver error into one of them. The mapper knows a driver error by its shape: an
object with a `code` or an `errorNum`.
-/

namespace NestDdd.Database

open NestDdd.Shared

/-! ### Application errors -/

/-- `new AppError(message, details)`, for the subclass `cls`, with the fields the
subclass adds. -/
def appError (cls : String) (message : JsString) (details : JsValue)
    (fields : List (String × JsValue)) : JsValue :=
  .object (.appError cls)
    ([("message", .string message), ("isAppError", .bool true), ("details", details)] ++ fields)

/-- `new InfrastructureError(message, cause)`: the cause is kept as `details` too. -/
def infrastructureError (cls : String) (message : JsString) (cause : JsValue)
    (fields : List (String × JsValue)) : JsValue :=
  appError cls message cause (("cause", cause) :: fields)

/-- `new UnauthorizedError(message)`. -/
def unauthorizedError (message : JsString) : JsValue :=
  appError "UnauthorizedError" message .undefined []

/-- `new ConflictError(message, details)`. -/
def conflictError (message : JsString) (details : JsValue) : JsValue :=
  appError "ConflictError" message details []

/-- `new DatabaseConnectionError(sourceKey, cause)`. -/
def databaseConnectionError (sourceKey : JsString) (cause : JsValue) : JsValue :=
  infrastructureError "DatabaseConnectionError"
    (JsString.concat ["Failed to acquire a DB connection for \"", sourceKey, "\""]) cause
    [("sourceKey", .string sourceKey)]

/-- `new DatabaseExecutionError(sourceKey, sqlTag, cause, code)`. -/
def databaseExecutionError (sourceKey : JsString) (sqlTag : Option JsString) (cause code : JsValue) :
    JsValue :=
  infrastructureError "DatabaseExecutionError"
    (JsString.concat ["DB execution failed for \"", sourceKey, "\"",
      if (JsValue.ofOption sqlTag).truthy then JsString.concat [" (", sqlTag.getD [], ")"] else [],
      if code.truthy then JsString.concat [" [", code.text, "]"] else []])
    cause
    [("sourceKey", .string sourceKey), ("sqlTag", .ofOption sqlTag), ("code", code)]

/-! ### Mapping driver errors -/

/-- `CONNECTION_CODES`: the pool is exhausted, the network failed or the session is dead. -/
def CONNECTION_CODES : List JsString :=
  ["NJS-040", "NJS-076", "NJS-500", "NJS-501", "NJS-503", "NJS-510", "NJS-521", "DPI-1010",
    "DPI-1080", "ORA-03113", "ORA-03114", "ORA-03135", "ORA-12170", "ORA-12514", "ORA-12541",
    "ORA-12543", "ORA-12545"]

/-- `isOracleLikeError`. -/
def isOracleLikeError (error : JsValue) : Bool := error.has "code" || error.has "errorNum"

/-- The code the mapper goes by: `code`, or else one made from `errorNum`. -/
def oracleCode (error : JsValue) : JsValue :=
  (error.get "code").orElse
    (if (error.get "errorNum").truthy then
      .string (JsString.concat ["ORA-", (error.get "errorNum").text.padStart 5 0x30])
    else .undefined)

/-- Whether the value is one of the connection-level codes. -/
def isConnectionCode : JsValue → Bool
  | .string s => CONNECTION_CODES.contains s
  | _ => false

/-- Whether the value is the code of a unique constraint violation. -/
def isUniqueViolation : JsValue → Bool
  | .string s => s == JsString.ofString "ORA-00001"
  | _ => false

/-- `mapOracleError`. -/
def mapOracleError (error : JsValue) (sourceKey : JsString) (tag : Option JsString) : JsValue :=
  if !isOracleLikeError error then error
  else if !(oracleCode error).truthy then error
  else if isUniqueViolation (oracleCode error) then
    conflictError "Duplicate value" (.object .plain
      [("code", oracleCode error), ("sourceKey", .string sourceKey), ("tag", .ofOption tag)])
  else if isConnectionCode (oracleCode error) then databaseConnectionError sourceKey error
  else databaseExecutionError sourceKey tag error (oracleCode error)

end NestDdd.Database
