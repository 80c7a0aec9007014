/-
  ErrorContract.Proofs.Contract
  ─────────────────────────────
  **THE WHOLE CONTRACT OF TRANSLATION.**

  Status, code and message of an answer are chosen apart from each other,
  each by a match of its own over the variants, and the text of a failure by
  a fourth.  Here is said once what these choices come to, variant by variant
  and with the vendors' tables and the texts spelt out; nothing in it refers
  to the functions that choose.

  Main statement `answer_keeps_contract`: the answer to a failure keeps this
  contract, and it is the only one that does.
-/
import ErrorContract.Failure.Basic

namespace ErrorContract

/-! ## §1. The vendors' statuses. -/

/-- **The statuses of client codes**: two curated sets, and all the others. -/
theorem ClientError.status_cases (e : ClientError) :
    (e.code ∈ clientUnauthorized ∧ e.status = 401)
      ∨ (e.code ∉ clientUnauthorized ∧ e.code ∈ clientBadRequest ∧ e.status = 400)
      ∨ (e.code ∉ clientUnauthorized ∧ e.code ∉ clientBadRequest ∧ e.status = 500) := by
  unfold ClientError.status
  by_cases hauth : e.code ∈ clientUnauthorized
  · exact .inl ⟨hauth, if_pos hauth⟩
  · rw [if_neg hauth]
    by_cases hinput : e.code ∈ clientBadRequest
    · exact .inr (.inl ⟨hauth, hinput, if_pos hinput⟩)
    · exact .inr (.inr ⟨hauth, hinput, if_neg hinput⟩)

theorem ClientError.status_eq_unauthorized_iff (e : ClientError) :
    e.status = 401 ↔ e.code ∈ clientUnauthorized := by
  rcases e.status_cases with ⟨hauth, hstatus⟩ | ⟨hauth, -, hstatus⟩ | ⟨hauth, -, hstatus⟩ <;>
    simp [hauth, hstatus]

theorem ClientError.status_eq_serverError_iff (e : ClientError) :
    e.status = 500 ↔ e.code ∉ clientUnauthorized ∧ e.code ∉ clientBadRequest := by
  rcases e.status_cases with ⟨hauth, hstatus⟩ | ⟨-, hinput, hstatus⟩ | ⟨hauth, hinput, hstatus⟩
  · simp [hauth, hstatus]
  · simp [hinput, hstatus]
  · simp [hauth, hinput, hstatus]

theorem ClientError.status_mem (e : ClientError) : e.status ∈ [401, 400, 500] := by
  rcases e.status_cases with ⟨-, hstatus⟩ | ⟨-, -, hstatus⟩ | ⟨-, -, hstatus⟩ <;> simp [hstatus]

theorem StatementError.status_eq_unauthorized_iff (e : StatementError) :
    e.status = 401 ↔ e.code ∈ statementUnauthorized := by
  unfold StatementError.status
  by_cases hauth : e.code ∈ statementUnauthorized <;> simp [hauth]

/-- No statement is ever the server's fault. -/
theorem StatementError.status_mem (e : StatementError) : e.status ∈ [401, 400] := by
  unfold StatementError.status
  by_cases hauth : e.code ∈ statementUnauthorized <;> simp [hauth]

namespace Failure

/-! ## §2. What a failure means to its caller. -/

/-- The caller is not authenticated: the application says so, or the vendor with one of these
codes. -/
inductive Unauthenticated : Failure → Prop where
  | named (message : String) : Unauthenticated (.unauthorized message)
  | client (error : ClientError) (h : error.code ∈ [10005, 10053]) :
      Unauthenticated (.client error)
  | statement (error : StatementError) (h : error.code ∈ [10005, 10053, 10100, 10102]) :
      Unauthenticated (.statement error)

/-- The server is at fault: in itself, or with a client code that nobody has curated. -/
inductive ServerFault : Failure → Prop where
  | internal (kind : InternalKind) (message : String) : ServerFault (.internal kind message)
  | unclassified (message : Option String) : ServerFault (.unclassified message)
  | client (error : ClientError) (hauth : error.code ∉ [10005, 10053])
      (hinput : error.code ∉ [0, 1007, 1008, 60081, 145001, 145007, 145024, 150010, 150012,
        150020, 151001, 151002]) : ServerFault (.client error)

/-- The variant alone decides the status. -/
inductive Named : Failure → Status → Prop where
  | notFound (message : String) : Named (.notFound message) 404
  | conflict (message : String) : Named (.conflict message) 409
  | unsupportedMediaType (message : String) : Named (.unsupportedMediaType message) 415
  | methodNotAllowed (message : String) : Named (.methodNotAllowed message) 405

/-- The code that a failure is told apart by: the vendor's own, or zero without a vendor. -/
inductive Coded : Failure → VendorCode → Prop where
  | sql (error : SqlError) : Coded (.sql error) error.vendorCode
  | client (error : ClientError) : Coded (.client error) error.code
  | statement (error : StatementError) : Coded (.statement error) error.code
  | other {f : Failure} (hsql : ∀ error, f ≠ .sql error) (hclient : ∀ error, f ≠ .client error)
      (hstatement : ∀ error, f ≠ .statement error) : Coded f 0

/-- **The text that a failure carries**: what the vendor or the application has said, also where
that is empty. -/
inductive Carries : Failure → String → Prop where
  | statement (code : VendorCode) (text : String) : Carries (.statement ⟨code, text⟩) text
  | client (code : VendorCode) (text : String) : Carries (.client ⟨code, text⟩) text
  | sql (code : VendorCode) (text : String) : Carries (.sql ⟨code, text⟩) text
  | unauthorized (text : String) : Carries (.unauthorized text) text
  | notFound (text : String) : Carries (.notFound text) text
  | conflict (text : String) : Carries (.conflict text) text
  | badRequest (text : String) : Carries (.badRequest text) text
  | unsupportedMediaType (text : String) : Carries (.unsupportedMediaType text) text
  | methodNotAllowed (text : String) : Carries (.methodNotAllowed text) text
  | internal (kind : InternalKind) (text : String) : Carries (.internal kind text) text
  | unclassified (text : String) : Carries (.unclassified (some text)) text

/-- The message that the caller is shown of a failure. -/
inductive Says : Failure → Option String → Prop where
  | absent : Says (.unclassified none) none
  /-- Where in the body something does not fit, if that is known. -/
  | place (outer message : String) {path : Path} (h : path ≠ []) :
      Says (.unreadableBody ⟨outer, .mapping path message⟩) (some path.describe)
  | misfit (outer message : String) :
      Says (.unreadableBody ⟨outer, .mapping [] message⟩) (some message)
  | malformed (outer message : String) :
      Says (.unreadableBody ⟨outer, .malformed message⟩) (some message)
  | unknown (outer : String) : Says (.unreadableBody ⟨outer, .unknown⟩) (some outer)
  /-- The failure's own text. -/
  | own {f : Failure} {text : String} (h : f.Carries text) : Says f (some text)

/-! ## §3. The three choices. -/

theorem status_eq_unauthorized_iff (f : Failure) : f.status = 401 ↔ f.Unauthenticated := by
  cases f with
  | unauthorized message => exact ⟨fun _ => .named message, fun _ => rfl⟩
  | client error =>
      exact error.status_eq_unauthorized_iff.trans ⟨.client error, fun | .client _ hauth => hauth⟩
  | statement error =>
      exact error.status_eq_unauthorized_iff.trans
        ⟨.statement error, fun | .statement _ hauth => hauth⟩
  | _ => exact ⟨nofun, nofun⟩

theorem status_eq_serverError_iff (f : Failure) : f.status = 500 ↔ f.ServerFault := by
  cases f with
  | internal kind message => exact ⟨fun _ => .internal kind message, fun _ => rfl⟩
  | unclassified message => exact ⟨fun _ => .unclassified message, fun _ => rfl⟩
  | client error =>
      exact error.status_eq_serverError_iff.trans
        ⟨fun h => .client error h.1 h.2, fun | .client _ hauth hinput => ⟨hauth, hinput⟩⟩
  | statement error =>
      refine ⟨fun h => ?_, nofun⟩
      have hmem := error.status_mem
      rw [show error.status = 500 from h] at hmem
      simp at hmem
  | _ => exact ⟨nofun, nofun⟩

/-- Statuses that one variant has, and that variant always. -/
def namedStatuses : List Status := [404, 409, 415, 405]

/-- No vendor's table has any of them. -/
theorem not_mem_tables_of_named {status : Status} (h : status ∈ namedStatuses) :
    status ∉ [401, 400, 500] := by
  have hapart : ∀ status ∈ namedStatuses, status ∉ [401, 400, 500] := by decide
  exact hapart status h

theorem status_of_named {f : Failure} {status : Status} (h : f.Named status) :
    f.status = status := by
  cases h <;> rfl

/-- **Where one of these statuses is answered, a variant has named it.** -/
theorem status_eq_iff_named {status : Status} (h : status ∈ namedStatuses) (f : Failure) :
    f.status = status ↔ f.Named status := by
  refine ⟨fun hstatus => ?_, status_of_named⟩
  subst hstatus
  have htables := not_mem_tables_of_named h
  cases f with
  | notFound text => exact .notFound text
  | conflict text => exact .conflict text
  | unsupportedMediaType text => exact .unsupportedMediaType text
  | methodNotAllowed text => exact .methodNotAllowed text
  | client error => exact absurd error.status_mem htables
  | statement error => exact absurd (List.mem_append_left [500] error.status_mem) htables
  -- The others have a status that is in the tables, whatever they carry.
  | _ => exact absurd (by simp [Failure.status]) htables

/-- **Every failure has one of seven statuses.** -/
theorem status_mem (f : Failure) : f.status ∈ [400, 401, 404, 405, 409, 415, 500] := by
  cases f with
  | client error =>
      have hmem : error.status ∈ [401, 400, 500] := error.status_mem
      have hsubset : [401, 400, 500] ⊆ [400, 401, 404, 405, 409, 415, 500] := by decide
      exact hsubset hmem
  | statement error =>
      have hsubset : [401, 400] ⊆ [400, 401, 404, 405, 409, 415, 500] := by decide
      exact hsubset error.status_mem
  | _ => simp [Failure.status]

/-- **A failure has one code**, and that is the one it is answered with. -/
theorem coded_iff {f : Failure} {code : VendorCode} : f.Coded code ↔ code = f.errorCode := by
  constructor
  · intro h
    cases h with
    | sql error => rfl
    | client error => rfl
    | statement error => rfl
    | other hsql hclient hstatement =>
        cases f with
        | sql error => exact absurd rfl (hsql error)
        | client error => exact absurd rfl (hclient error)
        | statement error => exact absurd rfl (hstatement error)
        | _ => rfl
  · rintro rfl
    cases f with
    | sql error => exact .sql error
    | client error => exact .client error
    | statement error => exact .statement error
    | _ => exact .other nofun nofun nofun

theorem clientMessage_of_carries {f : Failure} {text : String} (h : f.Carries text) :
    f.clientMessage = some text := by
  cases h <;> rfl

/-- Every failure says something to its caller, by its variant. -/
theorem says_clientMessage (f : Failure) : f.Says f.clientMessage := by
  cases f with
  | unreadableBody body =>
      obtain ⟨outer, cause⟩ := body
      cases cause with
      | mapping path message =>
          cases path with
          | nil => exact .misfit outer message
          | cons segment path => exact .place outer message (List.cons_ne_nil segment path)
      | malformed message => exact .malformed outer message
      | unknown => exact .unknown outer
  | unclassified message =>
      cases message with
      | none => exact .absent
      | some text => exact .own (.unclassified text)
  | statement error => exact .own (.statement error.code error.message)
  | client error => exact .own (.client error.code error.message)
  | sql error => exact .own (.sql error.vendorCode error.message)
  | unauthorized text => exact .own (.unauthorized text)
  | notFound text => exact .own (.notFound text)
  | conflict text => exact .own (.conflict text)
  | badRequest text => exact .own (.badRequest text)
  | unsupportedMediaType text => exact .own (.unsupportedMediaType text)
  | methodNotAllowed text => exact .own (.methodNotAllowed text)
  | internal kind text => exact .own (.internal kind text)

/-- **A failure says one thing**, and that is the message it is answered with. -/
theorem says_iff {f : Failure} {message : Option String} :
    f.Says message ↔ message = f.clientMessage := by
  constructor
  · intro h
    cases h with
    | absent => rfl
    | @place outer message path hpath =>
        obtain ⟨segment, more, rfl⟩ := List.exists_cons_of_ne_nil hpath
        rfl
    | misfit outer message => rfl
    | malformed outer message => rfl
    | unknown outer => rfl
    | own hcarries => exact (clientMessage_of_carries hcarries).symm
  · rintro rfl
    exact f.says_clientMessage

theorem clientMessage_eq_none_iff (f : Failure) :
    f.clientMessage = none ↔ f = .unclassified none := by
  cases f <;> simp [clientMessage]

/-! ## §4. The contract. -/

/-- **What the contract demands of the answer to a failure.** -/
structure Answered (f : Failure) (status : Status) (e : Envelope) : Prop where
  unauthorized : status = 401 ↔ f.Unauthenticated
  serverError : status = 500 ↔ f.ServerFault
  notFound : status = 404 ↔ f.Named 404
  conflict : status = 409 ↔ f.Named 409
  unsupported : status = 415 ↔ f.Named 415
  notAllowed : status = 405 ↔ f.Named 405
  /-- All the rest are bad requests. -/
  badRequest : status = 400 ↔ status ∉ [401, 500, 404, 409, 415, 405]
  code : f.Coded e.errorCode
  absent : e.errorMessage = none ↔ f = .unclassified none
  message : f.Says e.errorMessage

theorem answered_answer (f : Failure) : f.Answered f.status f.envelope where
  unauthorized := f.status_eq_unauthorized_iff
  serverError := f.status_eq_serverError_iff
  notFound := status_eq_iff_named (by simp [namedStatuses]) f
  conflict := status_eq_iff_named (by simp [namedStatuses]) f
  unsupported := status_eq_iff_named (by simp [namedStatuses]) f
  notAllowed := status_eq_iff_named (by simp [namedStatuses]) f
  badRequest := by
    have hmem := f.status_mem
    constructor
    · intro hstatus
      rw [hstatus]
      decide
    · intro hnone
      simp only [List.mem_cons, List.not_mem_nil, or_false, not_or] at hmem hnone
      simpa [hnone] using hmem
  code := coded_iff.mpr rfl
  absent := f.clientMessage_eq_none_iff
  message := f.says_clientMessage

/-- **A status that the contract allows is the failure's own.** Each of six statuses is for the
same failures, and the seventh for all the rest. -/
theorem Answered.status_eq {f : Failure} {status : Status} {e : Envelope}
    (h : f.Answered status e) : status = f.status := by
  have own := f.answered_answer
  have hagree : ∀ n ∈ [401, 500, 404, 409, 415, 405], (status = n ↔ f.status = n) := by
    simp only [List.forall_mem_cons]
    exact ⟨h.unauthorized.trans own.unauthorized.symm, h.serverError.trans own.serverError.symm,
      h.notFound.trans own.notFound.symm, h.conflict.trans own.conflict.symm,
      h.unsupported.trans own.unsupported.symm, h.notAllowed.trans own.notAllowed.symm, nofun⟩
  by_cases hsix : f.status ∈ [401, 500, 404, 409, 415, 405]
  · exact (hagree f.status hsix).mpr rfl
  · have hrest : status ∉ [401, 500, 404, 409, 415, 405] := by
      intro hstatus
      have hsame := (hagree status hstatus).mp rfl
      exact hsix (hsame ▸ hstatus)
    rw [h.badRequest.mpr hrest, own.badRequest.mpr hsix]

/-- **The whole contract of translation.** The answer to a failure keeps it, and no other status
and envelope do. -/
theorem answer_keeps_contract (f : Failure) (status : Status) (e : Envelope) :
    f.Answered status e ↔ (status, e) = f.answer := by
  constructor
  · intro h
    have henvelope : e = f.envelope := by
      obtain ⟨code, message⟩ := e
      have hcode : code = f.errorCode := coded_iff.mp h.code
      have hmessage : message = f.clientMessage := says_iff.mp h.message
      rw [envelope, hcode, hmessage]
    rw [h.status_eq, henvelope]
    rfl
  · intro h
    obtain ⟨rfl, rfl⟩ := Prod.mk.inj h
    exact f.answered_answer

end Failure

end ErrorContract
