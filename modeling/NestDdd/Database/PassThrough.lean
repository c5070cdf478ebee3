import NestDdd.Database.Transaction
import NestDdd.Database.Identity

/-!
# Errors that pass through the mapper

`mapOracleError` promises that errors the application has made itself pass through it.
It knows a driver's error by a `code` or an `errorNum`, and `DatabaseExecutionError`, which
it makes itself, has a `code`. A call nested in the function of another call has its error
mapped twice.

## What is proved

* `mapOracleError_eq_self_iff` — the mapper returns exactly those values themselves that
  carry no code.
* `passesThrough_iff` — so the promise is kept of exactly those; and of the mapper's own
  errors it is kept of all but `DatabaseExecutionError`.
* `nested_error_relabelled` — a nested call's error that leaves with the key of the outer
  source and without the inner tag.
-/

namespace NestDdd.Database

open NestDdd.Theory NestDdd.Shared

variable {α : Type} {source : OracleSource} {t : Trace Driver}

/-! ### What the mapper looks for -/

/-- `!!(error.code ?? error.errorNum)`. -/
def hasDriverCode (error : JsValue) : Bool := ((error.get "code").orElse (error.get "errorNum")).truthy

/-- An error of the application: a subclass of `AppError` or of `DomainError`. -/
def isApplicationError : JsValue → Bool
  | .object (.appError _) _ | .object (.domainError _) _ => true
  | _ => false

/-- The prefix makes every text made from `errorNum` a code. -/
theorem truthy_ora (s : JsString) : (JsValue.string (JsString.concat ["ORA-", s])).truthy = true := rfl

theorem oracleCode_truthy (error : JsValue) : (oracleCode error).truthy = hasDriverCode error := by
  have hnumber (n : JsValue) : (if n.truthy then
      JsValue.string (JsString.concat ["ORA-", n.text.padStart 5 0x30]) else .undefined).truthy = n.truthy := by
    cases hn : n.truthy with
    | false => rfl
    | true => exact truthy_ora _
  unfold oracleCode hasDriverCode
  cases error.get "code" with
  | undefined | null => exact hnumber _
  | _ => rfl

/-- A value without the properties is no driver's error. -/
theorem hasDriverCode_of_not_like {error : JsValue} (h : isOracleLikeError error = false) :
    hasDriverCode error = false := by
  have hget (key : String) (hk : error.has key = false) : error.get key = .undefined := by
    cases error with
    | object cls props =>
      have hnone : props.lookup key = none := by simpa [JsValue.has] using hk
      simp [JsValue.get, hnone]
    | _ => rfl
  obtain ⟨hcode, hnum⟩ := (Bool.or_eq_false_iff).mp h
  rw [hasDriverCode, hget _ hcode, hget _ hnum]
  rfl

/-- The mapper in terms of what it looks for. -/
theorem mapOracleError_eq (error : JsValue) (sourceKey : JsString) (tag : Option JsString) :
    mapOracleError error sourceKey tag =
      if hasDriverCode error = false then error
      else if isUniqueViolation (oracleCode error) then
        conflictError "Duplicate value" (.object .plain
          [("code", oracleCode error), ("sourceKey", .string sourceKey), ("tag", .ofOption tag)])
      else if isConnectionCode (oracleCode error) then databaseConnectionError sourceKey error
      else databaseExecutionError sourceKey tag error (oracleCode error) := by
  unfold mapOracleError
  rw [oracleCode_truthy]
  cases hlike : isOracleLikeError error with
  | false => simp [hasDriverCode_of_not_like hlike]
  | true => cases hasDriverCode error <;> rfl

/-! ### The mapper's own errors -/

@[simp] theorem hasDriverCode_conflictError (message : JsString) (details : JsValue) :
    hasDriverCode (conflictError message details) = false := rfl

@[simp] theorem hasDriverCode_databaseConnectionError (sourceKey : JsString) (cause : JsValue) :
    hasDriverCode (databaseConnectionError sourceKey cause) = false := rfl

@[simp] theorem hasDriverCode_databaseExecutionError (sourceKey : JsString) (tag : Option JsString)
    (cause code : JsValue) (h : code.truthy = true) :
    hasDriverCode (databaseExecutionError sourceKey tag cause code) = true := by
  cases code with
  | undefined | null => cases h
  | _ => exact h

/-- An error is not its own cause. -/
theorem databaseExecutionError_ne (sourceKey : JsString) (tag : Option JsString) (cause code : JsValue) :
    databaseExecutionError sourceKey tag cause code ≠ cause := by
  intro h
  have hsize := congrArg sizeOf h
  simp [databaseExecutionError, infrastructureError, appError] at hsize
  omega

/-- **The mapper returns a value itself** if and only if it carries no code. -/
theorem mapOracleError_eq_self_iff (error : JsValue) (sourceKey : JsString) (tag : Option JsString) :
    mapOracleError error sourceKey tag = error ↔ hasDriverCode error = false := by
  rw [mapOracleError_eq]
  split
  · next h => simp [h]
  · next h =>
    refine iff_of_false (fun heq => ?_) h
    -- the errors without a code differ from one that has a code, and the other one has it as its cause
    split at heq
    · exact h (heq ▸ hasDriverCode_conflictError _ _)
    · split at heq
      · exact h (heq ▸ hasDriverCode_databaseConnectionError _ _)
      · exact databaseExecutionError_ne _ _ _ _ heq

/-- Of the mapper's results, those that carry a code. -/
theorem hasDriverCode_mapOracleError (error : JsValue) (sourceKey : JsString) (tag : Option JsString) :
    hasDriverCode (mapOracleError error sourceKey tag) =
      (hasDriverCode error && !isUniqueViolation (oracleCode error) && !isConnectionCode (oracleCode error)) := by
  rw [mapOracleError_eq]
  cases h : hasDriverCode error with
  | false => simp [h]
  | true =>
    cases hu : isUniqueViolation (oracleCode error) with
    | true => simp
    | false =>
      cases hc : isConnectionCode (oracleCode error) with
      | true => simp
      | false =>
        have htruthy : (oracleCode error).truthy = true := (oracleCode_truthy error).trans h
        simp [htruthy]

/-! ### The promise -/

/-- An error that passes through: the mapper returns it itself, so mapping twice is mapping once, and
a call whose function it leaves throws it as it is. -/
structure PassesThrough (e : JsValue) : Prop where
  /-- It is returned itself. -/
  itself : ∀ sourceKey tag, mapOracleError e sourceKey tag = e
  /-- Once is enough. -/
  idempotent : ∀ sourceKey tag sourceKey' tag',
    mapOracleError (mapOracleError e sourceKey tag) sourceKey' tag' = mapOracleError e sourceKey tag
  /-- A call whose function throws it, as when it is what a nested call has thrown, throws it itself. -/
  nested : ∀ {α : Type} (source : OracleSource) (call : Call α) {t : Trace Driver} {r : Except JsValue α},
    Exec (call.run source) t r → ∀ after, Course source call.fn call.options t (some (.error e, after)) →
      r = .error e

/-- What a call throws when its function throws. -/
theorem Call.run_of_threw {call : Call α} {r : Except JsValue α} {e : JsValue} {after : Trace Driver}
    (h : Exec (call.run source) t r) (hc : Course source call.fn call.options t (some (.error e, after))) :
    r = .error (mapError source e call.options.tag) := by
  obtain ⟨transactional, fn, options⟩ := call
  cases transactional with
  | false =>
    rcases withConnection_run h with ⟨e', ha, -⟩ | ⟨setup, user, during, settled, rest, rfl, ha, hf, -, rfl⟩
    · cases course_unique hc (.refused ha)
    · cases course_unique hc (.ran ha hf)
      rfl
  | true =>
    rcases withConnection_run h with ⟨e', ha, -⟩ | ⟨setup, user, _, _, rest, rfl, ha, hf, -, rfl⟩
    · cases course_unique hc (.refused ha)
    · obtain ⟨during, settled, ending, hfn, hend, rfl⟩ := transaction_run hf
      rw [List.append_assoc] at hc
      cases course_unique hc (.ran ha hfn)
      cases hend with
      | thrown => rfl

/-- An error passes through exactly if it carries no code. -/
theorem passesThrough_iff_code (e : JsValue) : PassesThrough e ↔ hasDriverCode e = false := by
  constructor
  · intro h
    exact (mapOracleError_eq_self_iff e [] none).mp (h.itself [] none)
  · intro h
    have hself (sourceKey : JsString) (tag : Option JsString) : mapOracleError e sourceKey tag = e :=
      (mapOracleError_eq_self_iff e sourceKey tag).mpr h
    refine ⟨hself, fun sourceKey tag sourceKey' tag' => ?_, @fun _ source call t r hrun after hc => ?_⟩
    · rw [hself sourceKey tag, hself]
    · rw [Call.run_of_threw hrun hc, mapError, hself]

/-- **What passes through**: exactly the errors that carry no code; of the errors the mapper makes or
lets through, all but those it makes for a code that is neither the one of a duplicate value nor a
connection-level one. -/
theorem passesThrough_iff (e : JsValue) (sourceKey : JsString) (tag : Option JsString) :
    (PassesThrough e ↔ hasDriverCode e = false) ∧
      (PassesThrough (mapOracleError e sourceKey tag) ↔
        (hasDriverCode e = false ∨ isUniqueViolation (oracleCode e) = true ∨
          isConnectionCode (oracleCode e) = true)) := by
  refine ⟨passesThrough_iff_code e, ?_⟩
  rw [passesThrough_iff_code, hasDriverCode_mapOracleError]
  cases hasDriverCode e <;> cases isUniqueViolation (oracleCode e) <;>
    cases isConnectionCode (oracleCode e) <;> simp

/-- What a procedure raises with `raise_application_error(-20101, …)`. -/
def raised : JsValue := .object .error [("code", .string "ORA-20101"), ("errorNum", .int 20101)]

/-- What a call on the source `reports` throws when its statement, tagged `load`, raises that. -/
def reportsError : JsValue := mapOracleError raised "reports" (some "load")

/-- A call on the source `core` in whose function that call is awaited. -/
def outerCall : Call JsValue := ⟨false, @Prog.ask Conn (.outside (.string "reports")), .none⟩

/-- The trace of the outer call. -/
def outerTrace : Trace Driver :=
  [⟨.getConnection, .ok ()⟩, ⟨.outside (.string "reports"), .error reportsError⟩,
    ⟨.setCallTimeout .reset (.ofNat 0), .ok ()⟩, ⟨.close false, .ok ()⟩]

theorem outer_course :
    Course (.default "core") outerCall.fn outerCall.options outerTrace
      (some (.error reportsError, outerTrace.drop 2)) := by
  have hacquire : Exec (acquire (.default "core") .none) [⟨.getConnection, .ok ()⟩] (.ok none) :=
    .call .done
  have hfn : Exec (callFn (.default "core") none outerCall.fn)
      [⟨.outside (.string "reports"), .error reportsError⟩] (.error reportsError) := .call .done
  exact Course.ran hacquire hfn

/-- **A nested call's error is relabelled**: it is an error of the application, and it leaves the outer
call as one of the outer source, without the tag of its statement. -/
theorem nested_error_relabelled :
    isApplicationError reportsError = true ∧ ¬ PassesThrough reportsError ∧
      ∃ e, Exec (outerCall.run (.default "core")) outerTrace (.error e) ∧
        Course (.default "core") outerCall.fn outerCall.options outerTrace
          (some (.error reportsError, outerTrace.drop 2)) ∧
        (reportsError.get "sourceKey" = .string "reports" ∧ reportsError.get "sqlTag" = .string "load") ∧
        e.get "sourceKey" = .string "core" ∧ e.get "sqlTag" = .undefined := by
  refine ⟨rfl, fun h => ?_, _, .call (.call (.call (.call .done))), outer_course, ⟨rfl, rfl⟩, rfl, rfl⟩
  have hself := (mapOracleError_eq_self_iff reportsError [] none).mp (h.itself [] none)
  exact absurd (hself.symm.trans (by decide : hasDriverCode reportsError = true)) nofun

end NestDdd.Database
