import Pazuzu.Gateway.Encoding
import Pazuzu.Python.Exceptions

/-! When a request is answered. An error that the handler does not name, or a
reply that cannot be encoded, leaves the client without any line. -/
namespace Pazuzu.Gateway

open Python

variable (python : Interpreter) (calls : Calls)

section Statement

/-- The reply with a result or an error. -/
def reply (id : Json) : Except Error Json → Json
  | .ok result => success id result
  | .error error => failure python id error

/-- What a handler owes its client: for a line that is no request the error
with a null id, else what the dispatch ends with under the id of the request. -/
def due (line : Bytes) : Json :=
  match decode python line with
  | .error error => reply python .null (.error error)
  | .ok request => reply python (request.get "id") (dispatch python calls request)

/-- Exactly one line is written, the one that is due, and the writer closed. -/
def Answered (line : Bytes) (handled : Handled) : Prop :=
  handled = { written := [lineOf (due python calls line)], closed := true }

/-- An execute request that passes every check, with an integer for its timeout
that is too large for a double. -/
def TimeoutOverflows (operation : Json) (params : Fields) : Prop :=
  equals operation "execute" = true ∧ ∃ command stdin n retrySafe,
    executeParams params = .ok (command, stdin, .int n, retrySafe) ∧ Double.ofInt n = none

/-- The call of the supervisor that a request makes, by its operation, ends in
this error. -/
inductive CallFails (operation : Json) (params : Fields) : Error → Prop
  | status (error : Error) (hOperation : equals operation "status" = true)
      (hCall : calls.health (truthy (params.get "probe" (.bool false))) = .error error) :
      CallFails operation params error
  | reconnect (force : Bool) (error : Error) (hOperation : equals operation "reconnect" = true)
      (hForce : params.get "force" (.bool false) = .bool force)
      (hCall : calls.reconnect force = .error error) : CallFails operation params error
  | attachment (error : Error)
      (hOperation : equals operation "connection_attachment" = true ∨
        equals operation "shell_attachment" = true)
      (hParams : params.isEmpty = true) (hCall : calls.connectionAttachment = .error error) :
      CallFails operation params error
  | execute (command : Text) (stdin : Bytes) (timeout : Json) (retrySafe : Bool) (x : Double)
      (error : Error) (hOperation : equals operation "execute" = true)
      (hParams : executeParams params = .ok (command, stdin, timeout, retrySafe))
      (hTimeout : float timeout = .ok x) (hCall : calls.execute command stdin x retrySafe = .error error) :
      CallFails operation params error
  | transfer (tool : Text) (arguments : List Text) (executable : Text) (timeout : Json) (x : Double)
      (error : Error) (hOperation : equals operation "transfer" = true)
      (hParams : transferParams params = .ok (tool, arguments, executable, timeout))
      (hTimeout : float timeout = .ok x)
      (hCall : calls.transfer tool arguments executable x = .error error) :
      CallFails operation params error

/-- The id and what is sent with it can be encoded, and are short enough with
every character escaped. -/
def Fits (id : Json) : Except Error Json → Prop
  | .ok result =>
      (id.depth < python.nesting ∧ result.depth < python.nesting) ∧
        (id.fault = none ∧ result.fault = none) ∧ id.width + result.width + 34 ≤ maxMessageBytes
  | .error error =>
      id.depth < python.nesting ∧ id.fault = none ∧
        id.width + escapedWidth (text (error.typeName python)) + escapedWidth (text error.text) + 58 ≤
          maxMessageBytes

/-- The requests that are answered. The line is not nested beyond the recursion
limit; no timeout overflows; the supervisor ends with nothing but a result or an
error the handler names; and what is sent fits. -/
def Answerable (line : Bytes) : Prop :=
  python.loads line ≠ .error .recursionError ∧
    match decode python line with
    | .error error => Fits python .null (.error error)
    | .ok request =>
        (∀ params, isOne (request.get "v") = true → isText (request.get "id") = true →
          request.get "params" = .obj params →
          ¬TimeoutOverflows (request.get "op") params ∧
            ∀ error, CallFails calls (request.get "op") params error → error.isAnswered = true) ∧
        Fits python (request.get "id") (dispatch python calls request)

end Statement

section Operations

variable {python calls} {operation : Json} {params : Fields} {error : Error}

theorem equals_iff {value : Json} {literal : String} :
    equals value literal = true ↔ value = .str (text literal) := by
  cases value with
  | str content => simp [equals]
  | _ => simp [equals]

theorem operate_status : operate python calls (.str (text "status")) params =
    (calls.health (truthy (params.get "probe" (.bool false)))).map Health.asDict := rfl

theorem operate_reconnect : operate python calls (.str (text "reconnect")) params =
    (requireBool (.typeError "force must be a boolean") (params.get "force" (.bool false))).bind
      fun force => (calls.reconnect force).bind fun health => .ok health.asDict := rfl

theorem operate_execute : operate python calls (.str (text "execute")) params = execute calls params := by
  have hNames : equals (.str (text "execute")) "status" = false ∧
      equals (.str (text "execute")) "reconnect" = false ∧
      equals (.str (text "execute")) "shutdown" = false ∧
      isOneOf (.str (text "execute")) ["connection_attachment", "shell_attachment"] = .ok false ∧
      equals (.str (text "execute")) "execute" = true := ⟨rfl, rfl, rfl, rfl, rfl⟩
  obtain ⟨hStatus, hReconnect, hShutdown, hAttach, hName⟩ := hNames
  simp only [operate, hStatus, hReconnect, hShutdown, hAttach, hName, bind, Except.bind,
    Bool.false_eq_true, ↓reduceIte]

theorem operate_transfer : operate python calls (.str (text "transfer")) params = transfer calls params := by
  have hNames : equals (.str (text "transfer")) "status" = false ∧
      equals (.str (text "transfer")) "reconnect" = false ∧
      equals (.str (text "transfer")) "shutdown" = false ∧
      isOneOf (.str (text "transfer")) ["connection_attachment", "shell_attachment"] = .ok false ∧
      equals (.str (text "transfer")) "execute" = false ∧
      equals (.str (text "transfer")) "transfer" = true := ⟨rfl, rfl, rfl, rfl, rfl, rfl⟩
  obtain ⟨hStatus, hReconnect, hShutdown, hAttach, hExecute, hName⟩ := hNames
  simp only [operate, hStatus, hReconnect, hShutdown, hAttach, hExecute, hName, bind, Except.bind,
    Bool.false_eq_true, ↓reduceIte]

/-- A call that fails makes the whole operation fail with the same error. -/
theorem operate_of_callFails (h : CallFails calls operation params error) :
    operate python calls operation params = .error error := by
  cases h with
  | status _ hOperation hCall =>
      rw [equals_iff.mp hOperation, operate_status, hCall]
      rfl
  | reconnect force _ hOperation hForce hCall =>
      rw [equals_iff.mp hOperation, operate_reconnect, hForce]
      simp only [requireBool, Except.bind, hCall]
  | attachment _ hOperation hParams hCall =>
      have hAttach : ∀ name, name = "connection_attachment" ∨ name = "shell_attachment" →
          operate python calls (.str (text name)) params = .error error := by
        rintro name (rfl | rfl)
        all_goals
          change (require params.isEmpty _).bind (fun _ => calls.connectionAttachment.bind fun attachment =>
            .ok attachment.asDict) = _
          simp only [require, hParams, ↓reduceIte, Except.bind, hCall]
      rcases hOperation with hName | hName
      · rw [equals_iff.mp hName]
        exact hAttach _ (Or.inl rfl)
      · rw [equals_iff.mp hName]
        exact hAttach _ (Or.inr rfl)
  | execute command stdin timeout retrySafe x _ hOperation hParams hTimeout hCall =>
      rw [equals_iff.mp hOperation, operate_execute]
      simp only [execute, hParams, bind, Except.bind, hTimeout, hCall]
  | transfer tool arguments executable timeout x _ hOperation hParams hTimeout hCall =>
      rw [equals_iff.mp hOperation, operate_transfer]
      simp only [transfer, hParams, bind, Except.bind, hTimeout, hCall]

theorem operate_of_overflow (h : TimeoutOverflows operation params) :
    operate python calls operation params = .error .overflowError := by
  obtain ⟨hOperation, command, stdin, n, retrySafe, hParams, hOverflow⟩ := h
  rw [equals_iff.mp hOperation, operate_execute]
  simp only [execute, hParams, bind, Except.bind, float, hOverflow]

end Operations

section Errors

variable {python calls} {operation : Json} {params : Fields}

/-- The errors of a computation are answered, or it fails for the reason given. -/
def FailsBy {α : Type} (reason : Error → Prop) (code : Except Error α) : Prop :=
  ∀ error, code = .error error → error.isAnswered = true ∨ reason error

section Rules

variable {α β : Type} {reason : Error → Prop} {code : Except Error α}

theorem FailsBy.ok (value : α) : FailsBy reason (.ok value) := fun _ h => by cases h

theorem FailsBy.error {error : Error} (h : error.isAnswered = true) :
    FailsBy reason (.error error : Except Error α) := by
  intro error' hError
  cases hError
  exact Or.inl h

theorem FailsBy.bind {next : α → Except Error β} (h : FailsBy reason code)
    (hNext : ∀ value, code = .ok value → FailsBy reason (next value)) :
    FailsBy reason (code.bind next) := by
  intro error hError
  cases code with
  | ok value => exact hNext value rfl error hError
  | error error' =>
      cases hError
      exact h error rfl

theorem FailsBy.call (h : ∀ error, code = .error error → reason error) : FailsBy reason code :=
  fun error hError => Or.inr (h error hError)

theorem FailsBy.require {condition : Prop} [Decidable condition] {error : Error}
    (h : error.isAnswered = true) : FailsBy reason (require condition error) := by
  unfold Gateway.require
  split
  · exact .ok _
  · exact .error h

theorem FailsBy.requireText {error : Error} (h : error.isAnswered = true) (value : Json) :
    FailsBy reason (requireText error value) := by
  cases value with
  | str content => exact .ok _
  | _ => exact .error h

theorem FailsBy.requireBool {error : Error} (h : error.isAnswered = true) (value : Json) :
    FailsBy reason (requireBool error value) := by
  cases value with
  | bool content => exact .ok _
  | _ => exact .error h

theorem FailsBy.requireTexts {error : Error} (h : error.isAnswered = true) (items : List Json) :
    FailsBy reason (requireTexts error items) := by
  induction items with
  | nil => exact .ok _
  | cons item rest ih =>
      exact .bind (.requireText h item) fun _ _ => .bind ih fun _ _ => .ok _

theorem FailsBy.isOneOf (value : Json) (literals : List String) :
    FailsBy reason (isOneOf value literals) := by
  cases value with
  | arr items => exact .error rfl
  | obj fields => exact .error rfl
  | _ => exact .ok _

end Rules

theorem failsBy_executeParams {reason : Error → Prop} : FailsBy reason (executeParams params) := by
  refine .bind (.requireText rfl _) fun encoded _ => .bind ?_ fun stdin _ => .bind (.require rfl) fun _ _ =>
    .bind ?_ fun command _ => .bind (.requireText rfl _) fun _ _ => .bind (.require rfl) fun _ _ =>
      .bind (.requireBool rfl _) fun _ _ => .ok _
  · unfold requireBase64
    split
    · exact .ok _
    · exact .error rfl
  · unfold Fields.item
    split
    · exact .ok _
    · exact .error rfl

theorem failsBy_transferParams {reason : Error → Prop} : FailsBy reason (transferParams params) := by
  refine .bind (.isOneOf _ _) fun _ _ => .bind (.require rfl) fun _ _ => .bind (.requireText rfl _) fun _ _ =>
    .bind (.requireText rfl _) fun _ _ => .bind ?_ fun _ _ => .bind (.require rfl) fun _ _ =>
      .bind (.require rfl) fun _ _ => .ok _
  unfold requireList
  split
  · exact .requireTexts rfl _
  · exact .error rfl

/-- The supervisor fails, or the timeout of an execute request is too large. -/
def Fails (calls : Calls) (operation : Json) (params : Fields) (error : Error) : Prop :=
  CallFails calls operation params error ∨
    (error = .overflowError ∧ TimeoutOverflows operation params)

theorem failsBy_execute (hOperation : equals operation "execute" = true) :
    FailsBy (Fails calls operation params) (execute calls params) := by
  refine .bind failsBy_executeParams fun ⟨command, stdin, timeout, retrySafe⟩ hParams =>
    .bind ?_ fun x hTimeout => .bind (.call fun error hCall => Or.inl ?_) fun result _ => .ok _
  · intro error hError
    cases timeout with
    | int n =>
        simp only [float] at hError
        split at hError
        · cases hError
        · next hOverflow =>
            cases hError
            exact Or.inr (Or.inr ⟨rfl, hOperation, command, stdin, n, retrySafe, hParams, hOverflow⟩)
    | float x => cases hError
    | _ =>
        cases hError
        exact Or.inl rfl
  · exact .execute command stdin timeout retrySafe x error hOperation hParams hTimeout hCall

theorem of_require {condition : Prop} [Decidable condition] {error : Error} {done : Unit}
    (h : require condition error = .ok done) : condition := by
  unfold require at h
  split at h
  · assumption
  · cases h

theorem isBetween_of_transferParams {tool executable : Text} {arguments : List Text} {timeout : Json}
    (h : transferParams params = .ok (tool, arguments, executable, timeout)) :
    isBetween 3600 timeout = true := by
  obtain ⟨_, -, h⟩ := of_bind h
  obtain ⟨_, -, h⟩ := of_bind h
  obtain ⟨_, -, h⟩ := of_bind h
  obtain ⟨_, -, h⟩ := of_bind h
  obtain ⟨_, -, h⟩ := of_bind h
  obtain ⟨_, -, h⟩ := of_bind h
  obtain ⟨_, hBetween, h⟩ := of_bind h
  cases h
  exact of_require hBetween

theorem failsBy_transfer (hOperation : equals operation "transfer" = true) :
    FailsBy (Fails calls operation params) (transfer calls params) := by
  refine .bind failsBy_transferParams fun ⟨tool, arguments, executable, timeout⟩ hParams => .bind ?_
    fun x hTimeout => .bind (.call fun error hCall => Or.inl ?_) fun result _ => .ok _
  · intro error hError
    have hBetween := isBetween_of_transferParams hParams
    cases timeout with
    | int n =>
        obtain ⟨hLow, hHigh⟩ := of_decide_eq_true hBetween
        simp only [float] at hError
        split at hError
        · cases hError
        · next hOverflow =>
            have hSome := Double.ofInt_isSome (n := n) (by omega)
            rw [hOverflow] at hSome
            cases hSome
    | float x => cases hError
    | _ => cases hBetween
  · exact .transfer tool arguments executable timeout x error hOperation hParams hTimeout hCall

theorem FailsBy.map {α β : Type} {reason : Error → Prop} {code : Except Error α} {f : α → β}
    (h : FailsBy reason code) : FailsBy reason (code.map f) := by
  intro error hError
  cases code with
  | ok value => cases hError
  | error error' =>
      cases hError
      exact h error rfl

theorem failsBy_operate : FailsBy (Fails calls operation params) (operate python calls operation params) := by
  unfold operate
  split
  · next hStatus => exact .map (.call fun error hCall => Or.inl (.status error hStatus hCall))
  split
  · next hReconnect =>
      refine .bind (.requireBool rfl _) fun force hForce => .bind (.call fun error hCall => Or.inl ?_)
        fun _ _ => .ok _
      refine .reconnect force error hReconnect ?_ hCall
      revert hForce
      cases params.get "force" (.bool false) <;> intro hForce <;> cases hForce
      rfl
  split
  · exact .ok _
  refine .bind (.isOneOf _ _) fun attaches hAttaches => ?_
  split
  · next hTrue =>
      refine .bind (.require rfl) fun _ hParams => .bind (.call fun error hCall => Or.inl ?_) fun _ _ => .ok _
      refine .attachment error ?_ (of_require hParams) hCall
      subst hTrue
      cases operation with
      | str content => simpa [isOneOf] using hAttaches
      | _ => simp [isOneOf, equals] at hAttaches
  split
  · next hExecute => exact failsBy_execute hExecute
  split
  · next hTransfer => exact failsBy_transfer hTransfer
  · exact .error rfl

end Errors

section Handler

variable {python calls}

/-- Decoding fails with an answered error, or at the recursion limit. -/
theorem decode_error {line : Bytes} {error : Error} (h : decode python line = .error error) :
    error.isAnswered = true ↔ python.loads line ≠ .error .recursionError := by
  unfold decode at h
  split at h
  · cases h
  · next hLoads =>
      cases h
      simp [hLoads, Error.isAnswered, Error.isPazuzu]
  · next hLoads =>
      cases h
      simp [hLoads, Error.isAnswered, Error.isPazuzu]
  · next hLoads =>
      cases h
      simp [hLoads, Error.isAnswered, Error.isPazuzu]
  · next hLoads =>
      cases h
      simp [hLoads, Error.isAnswered]
  · next hLoads =>
      cases h
      simp [hLoads, Error.isAnswered, Error.isPazuzu]

theorem loads_of_decode {line : Bytes} {request : Fields} (h : decode python line = .ok request) :
    python.loads line ≠ .error .recursionError := by
  intro hLoads
  rw [decode, hLoads] at h
  cases h

/-- The errors of a dispatch that the handler does not name. -/
theorem dispatch_error {request : Fields} {error : Error} (hOther : error.isAnswered = false) :
    dispatch python calls request = .error error ↔
      isOne (request.get "v") = true ∧ isText (request.get "id") = true ∧
        ∃ params, request.get "params" = .obj params ∧ Fails calls (request.get "op") params error := by
  constructor
  · intro h
    unfold dispatch at h
    split at h
    · cases h
      cases hOther
    · next hEnvelope =>
        simp only [not_or, Decidable.not_not] at hEnvelope
        split at h
        · next params hParams =>
            refine ⟨hEnvelope.1, hEnvelope.2, params, hParams, ?_⟩
            exact (failsBy_operate error h).resolve_left (by rw [hOther]; exact Bool.false_ne_true)
        · cases h
          cases hOther
  · rintro ⟨hOne, hText, params, hParams, hFails⟩
    unfold dispatch
    rw [if_neg (by simp [hOne, hText]), hParams]
    rcases hFails with hCall | ⟨rfl, hOverflow⟩
    · exact operate_of_callFails hCall
    · exact operate_of_overflow hOverflow

theorem respond_eq_iff (message : Json) :
    respond python message = { written := [lineOf message], closed := true } ↔ Encodable python message := by
  unfold respond
  constructor
  · intro h
    split at h
    · next hEncode => exact encodable_of_encode hEncode
    · cases h
  · intro h
    rw [encode_of_encodable h]

theorem conclude_answered {error : Error} (id : Json) (h : error.isAnswered = true) :
    conclude python id (.error error) = respond python (failure python id error) := by
  unfold conclude
  split
  · next hError => cases hError
  · next hError =>
      cases hError
      cases h
  · next hError =>
      cases hError
      exact if_pos h

theorem conclude_other (python : Interpreter) {error : Error} (id : Json) (h : error.isAnswered = false) :
    (conclude python id (.error error)).raised = some error := by
  unfold conclude
  split
  · next hError => cases hError
  · next hError =>
      cases hError
      rfl
  · next hError =>
      cases hError
      rw [if_neg (by rw [h]; exact Bool.false_ne_true)]

/-- The way out of the guarded block leads to the reply, if the error is one
that the handler names and the reply fits. -/
theorem conclude_eq_iff (id : Json) (outcome : Except Error Json) :
    conclude python id outcome = { written := [lineOf (reply python id outcome)], closed := true } ↔
      (∀ error, outcome = .error error → error.isAnswered = true) ∧ Fits python id outcome := by
  cases outcome with
  | ok result =>
      rw [conclude, reply, respond_eq_iff, encodable_success]
      simp [Fits]
  | error error =>
      have hFits : Encodable python (failure python id error) ↔ Fits python id (.error error) :=
        encodable_failure id error
      cases hAnswered : error.isAnswered with
      | true =>
          rw [conclude_answered id hAnswered, reply, respond_eq_iff, hFits]
          simp [hAnswered]
      | false =>
          have hRaised := conclude_other python id hAnswered
          constructor
          · intro h
            rw [h] at hRaised
            cases hRaised
          · intro h
            have hNamed := h.1 error rfl
            rw [hAnswered] at hNamed
            cases hNamed

/-- A client that waits, of a gateway that is not stopping, is answered exactly
once if and only if its request is answerable. -/
theorem answered_iff (python : Interpreter) (calls : Calls) (line : Bytes) :
    Answered python calls line (handleClient python calls false (.ok line) .answered) ↔
      Answerable python calls line := by
  have hHandled : handleClient python calls false (.ok line) .answered =
      match decode python line with
      | .error error => conclude python .null (.error error)
      | .ok request => conclude python (request.get "id") (dispatch python calls request) := rfl
  unfold Answered Answerable due
  rw [hHandled]
  cases hDecode : decode python line with
  | error error =>
      dsimp only
      rw [conclude_eq_iff, ← decode_error hDecode]
      simp
  | ok request =>
      dsimp only
      rw [conclude_eq_iff]
      have hLoads := loads_of_decode hDecode
      refine ⟨fun ⟨hNamed, hFits⟩ => ⟨hLoads, ?_, hFits⟩, fun ⟨_, hCalls, hFits⟩ => ⟨?_, hFits⟩⟩
      · intro params hOne hText hParams
        have hFails : ∀ error, Fails calls (request.get "op") params error → error.isAnswered = true := by
          intro error hFails
          by_contra hOther
          rw [Bool.not_eq_true] at hOther
          rw [hNamed error ((dispatch_error hOther).mpr ⟨hOne, hText, params, hParams, hFails⟩)] at hOther
          cases hOther
        refine ⟨fun hOverflow => ?_, fun error hCall => hFails error (Or.inl hCall)⟩
        cases hFails .overflowError (Or.inr ⟨rfl, hOverflow⟩)
      · intro error hError
        by_contra hOther
        rw [Bool.not_eq_true] at hOther
        obtain ⟨hOne, hText, params, hParams, hFails⟩ := (dispatch_error hOther).mp hError
        obtain ⟨hFine, hNamed⟩ := hCalls params hOne hText hParams
        rcases hFails with hCall | ⟨-, hOverflow⟩
        · rw [hNamed error hCall] at hOther
          cases hOther
        · exact hFine hOverflow

/-- A request whose id is no number. -/
def oddLine : Bytes :=
  (text "\x7b\"v\":1,\"id\":NaN,\"op\":\"status\",\"params\":\x7b\x7d\x7d\n").map UInt8.ofNat

def oddRequest : Fields :=
  [field "v" (.int 1), field "id" (.float .nan), field "op" (.str (text "status")),
    field "params" (.obj [])]

/-- Its envelope is refused, but the error that says so cannot be encoded. -/
theorem odd_unanswered : ¬∀ (python : Interpreter) (calls : Calls) (line : Bytes),
    line.length ≤ maxMessageBytes + 1 →
    Answered python calls line (handleClient python calls false (.ok line) .answered) := by
  intro hClaim
  let python : Interpreter :=
    { loads := fun content => if content = oddLine then .ok (.obj oddRequest) else .error .jsonDecodeError
      nesting := 2
      nesting_flat := le_refl 2
      repr := fun _ => ""
      subclass := fun base _ => base }
  let calls : Calls := ⟨fun _ => .error .timeoutError, fun _ => .error .timeoutError, .error .timeoutError,
    fun _ _ _ _ => .error .timeoutError, fun _ _ _ _ => .error .timeoutError⟩
  have hDecode : decode python oddLine = .ok oddRequest := rfl
  have hDispatch : dispatch python calls oddRequest =
    .error (.protocolError "invalid gateway request envelope") := rfl
  have hAnswered := hClaim python calls oddLine (by decide)
  have hHandled : handleClient python calls false (.ok oddLine) .answered =
    conclude python (.float .nan) (dispatch python calls oddRequest) := rfl
  have hDue : due python calls oddLine =
    reply python (.float .nan) (dispatch python calls oddRequest) := rfl
  rw [Answered, hHandled, hDue, hDispatch, conclude_eq_iff] at hAnswered
  have hFault := hAnswered.2.2.1
  simp [Json.fault, Json.numeralFault] at hFault

end Handler
end Pazuzu.Gateway
