/-
  ErrorContract.Proofs.Hiding
  ───────────────────────────
  **HIDING INTERNAL MESSAGES LEAKS NOTHING AND CHANGES NOTHING ELSE.**

  Two servers that differ in `exposeInternalMessages` only are sent the same
  request.  They find the same handler, which ends the same way, so that all
  they can differ in is what the boundary does: `boundary_of_carried` is the
  one place where the setting is read.

  Main statement: status, log and counter are the same, and so is the whole
  reply unless the response carries a failure and has the status of a server
  error.  Then the hidden body is the envelope of the failure's code and the
  generic message, whatever else the failure says.  An answer to `HEAD` has
  no body to hide anything in, and where the application has stated the
  response to a failure anew, its status is the one that counts
  (`response_of_restated`).
-/
import ErrorContract.Sample.Service

namespace ErrorContract

open Http Telemetry

/-! ## §1. What is sent depends on little. -/

namespace Http

@[simp] theorem Response.withHeader_status (r : Response) (name value : String) :
    (r.withHeader name value).status = r.status := by
  unfold withHeader
  split <;> rfl

@[simp] theorem Response.withHeader_body (r : Response) (name value : String) :
    (r.withHeader name value).body = r.body := by
  unfold withHeader
  split <;> rfl

theorem isServerError_iff (status : Nat) :
    isServerError status = true ↔ 500 ≤ status ∧ status < 600 := by
  simp [isServerError]

theorem isSuccess_iff (status : Nat) :
    isSuccess status = true ↔ 200 ≤ status ∧ status < 300 := by
  simp [isSuccess]

/-- No status is one of success and one of a server error. -/
theorem isSuccess_of_isServerError {status : Status} (h : isServerError status = true) :
    isSuccess status = false := by
  rw [isServerError_iff] at h
  rw [← Bool.not_eq_true, isSuccess_iff]
  omega

end Http

namespace Server

/-- What depends on the method leaves the status as it is. -/
theorem finish_status (method : String) (allowed : Option String) (r : Response) :
    (finish method allowed r).status = r.status := by
  unfold finish
  by_cases hconnect : (method = "CONNECT" && isSuccess r.status) = true
  · rw [if_pos hconnect]
  · rw [if_neg hconnect]
    by_cases hhead : method = "HEAD" <;> cases allowed <;> simp [hhead]

theorem finish_body_head (allowed : Option String) (r : Response) :
    (finish "HEAD" allowed r).body = [] := by
  unfold finish
  rw [if_neg (by simp), if_pos rfl]

/-- A server error is sent with its body, unless it answers `HEAD`. -/
theorem finish_body {method : String} (allowed : Option String) {r : Response}
    (hmethod : method ≠ "HEAD") (hr : isServerError r.status = true) :
    (finish method allowed r).body = r.body := by
  unfold finish
  rw [isSuccess_of_isServerError hr, Bool.and_false, if_neg (by decide), if_neg hmethod]
  cases allowed <;> simp

/-! ## §2. The failure that a response carries. -/

/-- The failure that the response to a request carries, if it does, and the status that the
response has. -/
def Outcome.carried : Outcome → Option (Status × Failure)
  | .response _ => none
  | .failure f => some (f.status, f)
  | .altered r f => some (r.status, f)
  | .panic message =>
    let f := Failure.ofText (message.getD "")
    some (f.status, f)

/-- The failure that is carried as a server error. -/
def Outcome.serverFault (o : Outcome) : Option (Status × Failure) :=
  o.carried.filter fun c => isServerError c.1

theorem Outcome.trace_answer (o : Outcome) :
    o.answer.1.trace = o.carried.map fun c => .ofFailure c.2 := by
  cases o <;> rfl

theorem Outcome.status_answer {o : Outcome} {status : Status} {f : Failure}
    (h : o.carried = some (status, f)) : o.answer.1.response.status = status := by
  cases o <;> cases h <;> rfl

theorem Outcome.serverFault_eq_some_iff {o : Outcome} {status : Status} {f : Failure} :
    o.serverFault = some (status, f) ↔ o.carried = some (status, f)
      ∧ isServerError status = true := by
  rw [serverFault, Option.filter_eq_some_iff]

/-- **The only status of a server error that a failure has by itself is 500.** -/
theorem status_of_isServerError {f : Failure} (h : isServerError f.status = true) :
    f.status = 500 := by
  cases f with
  | statement error =>
      -- no statement is ever the server's fault
      change isServerError error.status = true at h
      unfold StatementError.status at h
      by_cases hcode : error.code ∈ statementUnauthorized
      · rw [if_pos hcode] at h
        cases h
      · rw [if_neg hcode] at h
        cases h
  | client error =>
      change isServerError error.status = true at h
      show error.status = 500
      unfold ClientError.status at h ⊢
      by_cases hunauthorized : error.code ∈ clientUnauthorized
      · rw [if_pos hunauthorized] at h
        cases h
      · rw [if_neg hunauthorized] at h ⊢
        by_cases hbad : error.code ∈ clientBadRequest
        · rw [if_pos hbad] at h
          cases h
        · rw [if_neg hbad]
  | internal kind message => rfl
  | unclassified message => rfl
  | _ => cases h

/-! ## §3. What the boundary hides. -/

/-- The envelope that is sent in the stead of a failure's own. -/
def concealed (f : Failure) : Envelope := ⟨f.errorCode, some genericMessage⟩

/-- **What the boundary does to a response that carries a failure.** -/
theorem boundary_of_carried {o : Outcome} {status : Status} {f : Failure}
    (h : o.carried = some (status, f)) (expose : Bool) (method path : String) :
    boundary expose method path o.answer.1
      = ⟨if isServerError status && !expose then envelopeResponse status (concealed f)
          else o.answer.1.response,
        [report method path status (.ofFailure f)], [⟨status, f.category.name⟩]⟩ := by
  rw [boundary, Outcome.trace_answer, h]
  show Reply.mk _ _ _ = _
  rw [redact, Outcome.status_answer h]
  rfl

/-- A response that carries no failure passes the boundary untouched. -/
theorem boundary_of_not_carried {o : Outcome} (h : o.carried = none) (expose : Bool)
    (method path : String) :
    boundary expose method path o.answer.1 = ⟨o.answer.1.response, [], []⟩ := by
  rw [boundary, Outcome.trace_answer, h]
  rfl

/-- The same server, told whether to expose internal messages. -/
def exposing (s : Server) (expose : Bool) : Server := { s with exposeInternalMessages := expose }

/-- A reply, put together from how the handler ended. -/
def settle (expose : Bool) (q : Request) (o : Outcome) (allowed : Option String) : Reply :=
  let through := boundary expose q.method q.path o.answer.1
  ⟨finish q.method allowed through.response, o.answer.2 ++ through.events, through.increments⟩

theorem reply_exposing (s : Server) (expose : Bool) (q : Request) :
    (s.exposing expose).reply q = settle expose q (s.dispatch q).1 (s.dispatch q).2 := rfl

/-- Methods are named only with the failure that refuses one. -/
theorem allowed_eq_none_or (s : Server) (q : Request) :
    (s.dispatch q).2 = none ∨ (s.dispatch q).1 = .failure (methodNotAllowed q) := by
  unfold dispatch
  split
  · exact .inl rfl
  · split
    · exact .inl rfl
    · exact .inr rfl

/-- No methods are named with a server error. -/
theorem allowed_of_serverFault {s : Server} {q : Request} {status : Status} {f : Failure}
    (h : (s.dispatch q).1.serverFault = some (status, f)) : (s.dispatch q).2 = none := by
  rcases allowed_eq_none_or s q with hnone | hfailure
  · exact hnone
  · rw [hfailure] at h
    cases h

end Server

/-! ## §4. Two servers that differ in the setting. -/

/-- The same settings, told whether to expose internal messages. -/
def Config.exposing (c : Config) (expose : Bool) : Config :=
  { c with errors := { c.errors with exposeInternalMessages := expose } }

namespace Server

/-- **The setting decides neither whether a server can be built nor what its routes are.** -/
theorem withRoutes_exposing (c : Config) (expose : Bool) (routes : List (Route Handler)) :
    withRoutes (c.exposing expose) routes = (withRoutes c routes).map (·.exposing expose) := by
  have hown : ownRoutes (c.exposing expose) = ownRoutes c := rfl
  unfold withRoutes
  rw [hown]
  cases registerAll [] (ownRoutes c ++ routes) <;> rfl

/-- A server that was built with a setting has it. -/
theorem exposing_of_withRoutes {c : Config} {expose : Bool} {routes : List (Route Handler)}
    {s : Server} (h : withRoutes (c.exposing expose) routes = .ok s) : s.exposing expose = s := by
  rw [withRoutes_exposing] at h
  cases hbuilt : withRoutes c routes with
  | error fault =>
      rw [hbuilt] at h
      cases h
  | ok s' =>
      rw [hbuilt] at h
      cases h
      rfl

/-- **What hiding does to the reply to a request**, given how its handler ended. -/
structure Hides (method : String) (o : Outcome) (shown hidden : Reply) : Prop where
  status : hidden.response.status = shown.response.status
  events : hidden.events = shown.events
  increments : hidden.increments = shown.increments
  /-- Without a server error that carries a failure nothing changes. -/
  passed : o.serverFault = none → hidden = shown
  /-- With one, the body is the envelope of its code and the generic message. -/
  concealed : ∀ status f, o.serverFault = some (status, f) → method ≠ "HEAD" →
    hidden.response.body = Utf8.encode (concealed f).text
  /-- The answer to `HEAD` has no body, whatever the setting. -/
  empty : method = "HEAD" → hidden.response.body = [] ∧ shown.response.body = []

theorem settle_of_carried {o : Outcome} {status : Status} {f : Failure}
    (h : o.carried = some (status, f)) (expose : Bool) (q : Request) (allowed : Option String) :
    settle expose q o allowed
      = ⟨finish q.method allowed
          (if isServerError status && !expose then envelopeResponse status (concealed f)
            else o.answer.1.response),
        o.answer.2 ++ [report q.method q.path status (.ofFailure f)],
        [⟨status, f.category.name⟩]⟩ := by
  rw [settle, boundary_of_carried h]

/-- **A response of the handler's own is passed on as it is**, but for the headers that depend on
what is sent. -/
theorem settle_response (expose : Bool) (q : Request) (r : Response) (allowed : Option String) :
    settle expose q (.response r) allowed = ⟨finish q.method allowed r, [], []⟩ := rfl

/-- **Hiding, at the end of one request.** -/
theorem hides_settle (q : Request) (o : Outcome) (allowed : Option String) :
    Hides q.method o (settle true q o allowed) (settle false q o allowed) := by
  cases hcarried : o.carried with
  | none =>
      -- Nothing is carried, so that the boundary has nothing to do.
      have hsame : settle false q o allowed = settle true q o allowed := by
        rw [settle, settle, boundary_of_not_carried hcarried, boundary_of_not_carried hcarried]
      have hfault : o.serverFault = none := by rw [Outcome.serverFault, hcarried]; rfl
      refine ⟨by rw [hsame], by rw [hsame], by rw [hsame], fun _ => hsame, ?_, ?_⟩
      · intro status f h
        rw [hfault] at h
        cases h
      · intro hhead
        rw [hsame, settle, hhead]
        exact ⟨finish_body_head _ _, finish_body_head _ _⟩
  | some carried =>
      obtain ⟨status, f⟩ := carried
      -- A failure is carried: it is reported and counted in either run, and hidden in the second
      -- if it is the server's fault.
      have hshown := settle_of_carried hcarried true q allowed
      have hhidden := settle_of_carried hcarried false q allowed
      rw [Bool.not_true, Bool.and_false, if_neg (by decide)] at hshown
      rw [Bool.not_false, Bool.and_true] at hhidden
      have hstatus := Outcome.status_answer hcarried
      rw [hshown, hhidden]
      refine ⟨?_, rfl, rfl, ?_, ?_, ?_⟩
      · rw [finish_status, finish_status, hstatus]
        split
        · rfl
        · exact hstatus
      · -- the failure is not the server's fault
        intro hfault
        have hno : ¬ isServerError status = true := by
          intro herror
          have := Outcome.serverFault_eq_some_iff.mpr ⟨hcarried, herror⟩
          rw [hfault] at this
          cases this
        rw [if_neg hno]
      · intro status' f' hfault hmethod
        obtain ⟨hsome, herror⟩ := Outcome.serverFault_eq_some_iff.mp hfault
        rw [hcarried] at hsome
        cases hsome
        rw [if_pos herror]
        exact finish_body allowed hmethod herror
      · intro hhead
        rw [hhead]
        exact ⟨finish_body_head _ _, finish_body_head _ _⟩

/-- **What is left of a hidden server error**: its status, its code and whether the method is
`HEAD`. -/
theorem response_settle_of_serverFault {o : Outcome} {status : Status} {f : Failure}
    (h : o.serverFault = some (status, f)) (q : Request) :
    (settle false q o none).response
      = finish q.method none (envelopeResponse status ⟨f.errorCode, some genericMessage⟩) := by
  obtain ⟨hcarried, herror⟩ := Outcome.serverFault_eq_some_iff.mp h
  rw [settle_of_carried hcarried, Bool.not_false, Bool.and_true, if_pos herror]
  rfl

/-! ## §5. Hiding. -/

/-- **Hiding internal messages leaks nothing and changes nothing else.**  Whether messages are
exposed does not matter to whether a server can be built around routes.  If one can, the two
replies to a request differ in nothing but the hidden response to a server error.  And such a
response is the same as any other with its status and code, and the same method: whatever the
servers, the requests and the failures otherwise are. -/
theorem hiding_leaks_nothing (c : Config) (routes : List (Route Handler)) :
    withRoutes (c.exposing false) routes
        = (withRoutes (c.exposing true) routes).map (·.exposing false)
    ∧ ∀ s, withRoutes (c.exposing true) routes = .ok s → ∀ q : Request,
        Hides q.method (s.dispatch q).1 (s.reply q) ((s.exposing false).reply q)
        ∧ (∀ r, (s.dispatch q).1 = .response r →
            s.reply q = ⟨finish q.method none r, [], []⟩
            ∧ (s.exposing false).reply q = ⟨finish q.method none r, [], []⟩)
        ∧ ∀ (c' : Config) (routes' : List (Route Handler)) (t : Server),
            withRoutes (c'.exposing false) routes' = .ok t → ∀ p : Request,
            p.method = q.method → ∀ status f status' g,
            (s.dispatch q).1.serverFault = some (status, f) →
            (t.dispatch p).1.serverFault = some (status', g) →
            f.errorCode = g.errorCode →
            (status = status' ∨ (status = f.status ∧ status' = g.status)) →
            (t.reply p).response = ((s.exposing false).reply q).response := by
  refine ⟨?_, fun s hs q => ?_⟩
  · rw [withRoutes_exposing c, withRoutes_exposing c]
    cases withRoutes c routes <;> rfl
  -- Both replies are what becomes of the one end that the handler comes to.
  have hreply : s.reply q = settle true q (s.dispatch q).1 (s.dispatch q).2 := by
    rw [← reply_exposing, exposing_of_withRoutes hs]
  rw [hreply, reply_exposing]
  refine ⟨hides_settle q _ _, ?_, ?_⟩
  · intro r hr
    have hallowed : (s.dispatch q).2 = none := by
      rcases allowed_eq_none_or s q with h | h
      · exact h
      · rw [hr] at h
        cases h
    rw [hr, hallowed]
    exact ⟨settle_response true q r none, settle_response false q r none⟩
  · intro c' routes' t ht p hmethod status f status' g hf hg hcode hstatus
    have hsame : status = status' := by
      rcases hstatus with h | ⟨h, h'⟩
      · exact h
      · -- both failures have the status that they have by themselves
        have herror := (Outcome.serverFault_eq_some_iff.mp hf).2
        have herror' := (Outcome.serverFault_eq_some_iff.mp hg).2
        rw [h] at herror ⊢
        rw [h'] at herror' ⊢
        rw [status_of_isServerError herror, status_of_isServerError herror']
    have ht' : t.reply p = settle false p (t.dispatch p).1 (t.dispatch p).2 := by
      rw [← reply_exposing, exposing_of_withRoutes ht]
    rw [ht', allowed_of_serverFault hf, allowed_of_serverFault hg,
      response_settle_of_serverFault hf, response_settle_of_serverFault hg, hmethod, hcode, hsame]

/-- A request without headers and body. -/
def requestOf (method path : String) : Request := ⟨method, path, none, [], .complete []⟩

theorem exists_eq_ok_of_map_toOption {ε α β : Type} {e : Except ε α} {g : α → β} {b : β}
    (h : e.toOption.map g = some b) : ∃ a, e = .ok a ∧ g a = b := by
  cases e with
  | error fault => cases h
  | ok a => exact ⟨a, rfl, Option.some.inj h⟩

/-- Hiding at the sample service: an error that nobody knows and a panic are answered alike. -/
theorem hiding_unknown_and_panic :
    ∃ s, withRoutes (Config.exposing {} true) Sample.routes = .ok s
      ∧ ((s.exposing false).reply (requestOf "GET" "/opaque")).response.body
          = Utf8.encode (Envelope.text ⟨0, some "internal server error"⟩)
      ∧ ((s.exposing false).reply (requestOf "GET" "/panic")).response
          = ((s.exposing false).reply (requestOf "GET" "/opaque")).response := by
  have hends : (withRoutes (Config.exposing {} true) Sample.routes).toOption.map
        (fun s => ((s.dispatch (requestOf "GET" "/opaque")).1.serverFault,
          (s.dispatch (requestOf "GET" "/panic")).1.serverFault))
      = some (some (500, .unclassified (some "replica fell behind")),
          some (500, .unclassified (some "handler exploded"))) := by
    decide +kernel
  obtain ⟨s, hbuilt, hfaults⟩ := exists_eq_ok_of_map_toOption hends
  obtain ⟨hunknown, hpanic⟩ := Prod.mk.inj hfaults
  obtain ⟨hsame, hall⟩ := hiding_leaks_nothing {} Sample.routes
  obtain ⟨hhides, -, hblind⟩ := hall s hbuilt (requestOf "GET" "/opaque")
  have hhidden : withRoutes (Config.exposing {} false) Sample.routes = .ok (s.exposing false) := by
    rw [hsame, hbuilt]
    rfl
  have hbody := hhides.concealed _ _ hunknown (by decide)
  have hblank : concealed (.unclassified (some "replica fell behind"))
      = ⟨0, some "internal server error"⟩ := rfl
  rw [hblank] at hbody
  have halike := hblind {} Sample.routes _ hhidden (requestOf "GET" "/panic") rfl _ _ _ _
    hunknown hpanic rfl (.inl rfl)
  exact ⟨s, hbuilt, hbody, halike⟩

/-- **The answer to `HEAD` is no envelope**: an error that nobody knows leaves the sample service
without a body. -/
theorem hidden_head_has_no_body :
    (withRoutes (Config.exposing {} false) Sample.routes).toOption.map
        (fun s => ((s.dispatch (requestOf "HEAD" "/opaque")).1.serverFault,
          (s.reply (requestOf "HEAD" "/opaque")).response.body))
      = some (some (500, .unclassified (some "replica fell behind")), [])
    ∧ ([] : List UInt8) ≠ Utf8.encode (Envelope.text ⟨0, some "internal server error"⟩) := by
  decide +kernel

/-! ## §6. Responses that the application has stated anew. -/

/-- **Hiding goes by the status that is sent.**  Where an application has given the response to a
failure a status that is none of a server error, it is sent as the application stated it, whatever
the setting is and whatever status the failure has by itself. -/
theorem response_of_restated {s : Server} {q : Request} {r : Response} {f : Failure}
    (hends : (s.dispatch q).1 = .altered r f) (hstatus : isServerError r.status = false)
    (expose : Bool) : ((s.exposing expose).reply q).response = finish q.method none r := by
  have hcarried : (s.dispatch q).1.carried = some (r.status, f) := by rw [hends]; rfl
  have hallowed : (s.dispatch q).2 = none :=
    (allowed_eq_none_or s q).resolve_right (by rw [hends]; nofun)
  rw [reply_exposing, settle_of_carried hcarried, hstatus, Bool.false_and, if_neg (by decide),
    hends, hallowed]
  rfl

/-- A handler that answers an error nobody knows as a bad request, in the words of the error. -/
def restating (text : String) : Handler := fun _ _ =>
  .altered (.plain 400 text) (.unclassified (some text))

/-- **Restated failures are told apart also under hiding**: two errors that nobody knows are
shown once the application has answered them as bad requests, though each by itself would leave
with status 500, code 0 and the generic message. -/
theorem restated_failures_differ :
    (withRoutes (Config.exposing {} false)
        [⟨"/full", .on "GET" (restating "disk full")⟩,
          ⟨"/away", .on "GET" (restating "peer away")⟩]).toOption.map
        (fun s => ["/full", "/away"].map fun path =>
          ((s.dispatch (requestOf "GET" path)).1.carried,
            (s.reply (requestOf "GET" path)).response.body))
      = some [(some (400, .unclassified (some "disk full")), Utf8.encode "disk full"),
          (some (400, .unclassified (some "peer away")), Utf8.encode "peer away")]
    ∧ (Failure.unclassified (some "disk full")).status = 500
    ∧ concealed (.unclassified (some "disk full")) = concealed (.unclassified (some "peer away"))
    ∧ Utf8.encode "disk full" ≠ Utf8.encode "peer away" := by
  decide +kernel

end Server

end ErrorContract
