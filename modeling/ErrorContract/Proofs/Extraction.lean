/-
  ErrorContract.Proofs.Extraction
  ───────────────────────────────
  **THE CHECKS ON A JSON BODY, ONE AFTER THE OTHER.**

  `Extracts` lists the ways in which taking a value out of a request ends,
  each with all that was looked at until then: nothing but the headers, the
  headers and whether the body arrived within its limit, or the whole body.
  The category of a rejection tells which check refused the request.

  Main statement `earlier_checks_hide_later_input`: what comes behind the
  check that fails makes no difference, and if none of the first two does,
  the whole body decides alone.
-/
import ErrorContract.Http.Extract

namespace ErrorContract.Http

open ErrorContract

/-! ## §1. Receiving the body. -/

/-- **A body is received if it is complete and within the limit**, which it may reach. -/
theorem receive_eq_ok_iff {payload : Payload} {body : List UInt8} :
    receive payload = .ok body ↔ payload = .complete body ∧ body.length ≤ 2097152 := by
  cases payload with
  | complete bytes =>
      by_cases hlong : bodyLimit < bytes.length
      · rw [receive, if_pos hlong]
        refine ⟨nofun, ?_⟩
        rintro ⟨⟨⟩, hshort⟩
        exact absurd hshort (Nat.not_le_of_lt hlong)
      · rw [receive, if_neg hlong]
        constructor
        · rintro ⟨⟩
          exact ⟨rfl, Nat.le_of_not_lt hlong⟩
        · rintro ⟨⟨⟩, -⟩
          rfl
  | broken message => exact ⟨nofun, fun h => nomatch h.1⟩

/-- What is wrong with a body that is not received. -/
inductive Unreceived : Payload → BodyFault → Prop where
  | tooLong {body : List UInt8} (hlong : 2097152 < body.length) :
      Unreceived (.complete body) .tooLong
  | broken (message : String) : Unreceived (.broken message) (.broken message)

theorem receive_eq_error_iff {payload : Payload} {fault : BodyFault} :
    receive payload = .error fault ↔ Unreceived payload fault := by
  cases payload with
  | complete bytes =>
      by_cases hlong : bodyLimit < bytes.length
      · rw [receive, if_pos hlong]
        constructor
        · rintro ⟨⟩
          exact .tooLong hlong
        · rintro ⟨⟩
          rfl
      · rw [receive, if_neg hlong]
        refine ⟨nofun, ?_⟩
        rintro ⟨hlong'⟩
        exact absurd hlong' hlong
  | broken message =>
      constructor
      · rintro ⟨⟩
        exact .broken message
      · rintro ⟨⟩
        rfl

/-! ## §2. How an extraction ends. -/

section Extraction

variable {τ : Type} (schema : Json.Schema τ) (layout : Json.Layout τ) (headers : List Header)

/-- **How taking a value out of a request ends**, with what was looked at until then. -/
inductive Extracts : Payload → Except Failure Json.Value → Prop where
  /-- The headers alone. -/
  | wrongType (payload : Payload) (htype : hasJsonType headers = false) :
      Extracts payload (.error (.unsupportedMediaType wrongTypeMessage))
  /-- Also how the body arrives, but none of its bytes. -/
  | unreceived {payload : Payload} {fault : BodyFault} (htype : hasJsonType headers = true)
      (hfault : Unreceived payload fault) : Extracts payload (.error (.badRequest fault.message))
  /-- The whole body, which is no value of the layout. -/
  | unreadable {body : List UInt8} {unreadable : UnreadableBody} (htype : hasJsonType headers = true)
      (hshort : body.length ≤ 2097152)
      (hparse : Json.parseBody schema layout body = .error unreadable) :
      Extracts (.complete body) (.error (.unreadableBody unreadable))
  /-- The whole body, which is one. -/
  | read {body : List UInt8} {v : Json.Value} (htype : hasJsonType headers = true)
      (hshort : body.length ≤ 2097152) (hparse : Json.parseBody schema layout body = .ok v) :
      Extracts (.complete body) (.ok v)

variable {schema layout headers} {payload : Payload}

/-- **An extraction ends in one of these ways, and in only one.** -/
theorem extractJson_eq_iff {result : Except Failure Json.Value} :
    extractJson schema layout headers payload = result
      ↔ Extracts schema layout headers payload result := by
  unfold extractJson
  constructor
  · rintro rfl
    cases htype : hasJsonType headers with
    | false => exact .wrongType payload htype
    | true =>
        rw [if_pos rfl]
        cases hreceive : receive payload with
        | error fault => exact .unreceived htype (receive_eq_error_iff.mp hreceive)
        | ok body =>
            obtain ⟨rfl, hshort⟩ := receive_eq_ok_iff.mp hreceive
            show Extracts schema layout headers _
              ((Json.parseBody schema layout body).mapError .unreadableBody)
            cases hparse : Json.parseBody schema layout body with
            | error unreadable => exact .unreadable htype hshort hparse
            | ok v => exact .read htype hshort hparse
  · intro h
    cases h with
    | wrongType _ htype => rw [htype, if_neg Bool.false_ne_true]
    | unreceived htype hfault => rw [htype, if_pos rfl, receive_eq_error_iff.mpr hfault]
    | unreadable htype hshort hparse =>
        rw [htype, if_pos rfl, receive_eq_ok_iff.mpr ⟨rfl, hshort⟩]
        dsimp only
        rw [hparse]
        rfl
    | read htype hshort hparse =>
        rw [htype, if_pos rfl, receive_eq_ok_iff.mpr ⟨rfl, hshort⟩]
        dsimp only
        rw [hparse]
        rfl

/-- **The category of a rejection tells which check refused the request.** -/
theorem category_of_rejection {failure : Failure}
    (h : extractJson schema layout headers payload = .error failure) :
    (failure.category = .unsupportedMediaType ∧ hasJsonType headers = false)
    ∨ (failure.category = .badRequest ∧ hasJsonType headers = true
        ∧ ∃ fault, Unreceived payload fault)
    ∨ (failure.category = .unreadableBody ∧ hasJsonType headers = true
        ∧ ∃ body unreadable, payload = .complete body ∧ body.length ≤ 2097152
          ∧ Json.parseBody schema layout body = .error unreadable
          ∧ failure = .unreadableBody unreadable) := by
  cases extractJson_eq_iff.mp h with
  | wrongType _ htype => exact .inl ⟨rfl, htype⟩
  | unreceived htype hfault => exact .inr (.inl ⟨rfl, htype, _, hfault⟩)
  | unreadable htype hshort hparse =>
      exact .inr (.inr ⟨rfl, htype, _, _, rfl, hshort, hparse, rfl⟩)

/-- **An earlier check hides what a later one would see.**  Without a JSON content type the answer
is the same for every body, however it arrives; with one, a body beyond the limit is refused
whatever its bytes are and whatever is expected; and a body within the limit is read as a whole,
so that all that can still be wrong is that it is unreadable. -/
theorem earlier_checks_hide_later_input {τ : Type} (schema : Json.Schema τ)
    (layout : Json.Layout τ) (headers : List Header) :
    (hasJsonType headers = false → ∀ payload,
      extractJson schema layout headers payload = .error (.unsupportedMediaType wrongTypeMessage))
    ∧ (hasJsonType headers = true → ∀ body : List UInt8, 2097152 < body.length →
      extractJson schema layout headers (.complete body)
        = .error (.badRequest BodyFault.tooLong.message))
    ∧ (hasJsonType headers = true → ∀ message,
      extractJson schema layout headers (.broken message)
        = .error (.badRequest (BodyFault.broken message).message))
    ∧ (hasJsonType headers = true → ∀ body : List UInt8, body.length ≤ 2097152 →
      extractJson schema layout headers (.complete body)
        = (Json.parseBody schema layout body).mapError .unreadableBody
      ∧ ∀ failure, extractJson schema layout headers (.complete body) = .error failure →
        ∃ unreadable, Json.parseBody schema layout body = .error unreadable
          ∧ failure = .unreadableBody unreadable ∧ failure.status = 400 ∧ failure.errorCode = 0) := by
  refine ⟨fun htype payload => ?_, fun htype body hlong => ?_, fun htype message => ?_,
    fun htype body hshort => ⟨?_, fun failure hfailure => ?_⟩⟩
  · exact extractJson_eq_iff.mpr (.wrongType payload htype)
  · exact extractJson_eq_iff.mpr (.unreceived htype (.tooLong hlong))
  · exact extractJson_eq_iff.mpr (.unreceived htype (.broken message))
  · cases hparse : Json.parseBody schema layout body with
    | error unreadable => exact extractJson_eq_iff.mpr (.unreadable htype hshort hparse)
    | ok v => exact extractJson_eq_iff.mpr (.read htype hshort hparse)
  · rcases category_of_rejection hfailure with ⟨-, htype'⟩ | ⟨-, -, fault, hfault⟩ |
      ⟨-, -, body', unreadable, ⟨⟩, -, hparse, rfl⟩
    · exact absurd (htype.symm.trans htype') (by decide)
    · cases hfault with
      | tooLong hlong => exact absurd hshort (Nat.not_le_of_lt hlong)
    · exact ⟨unreadable, hparse, rfl, rfl, rfl⟩

end Extraction

end ErrorContract.Http
