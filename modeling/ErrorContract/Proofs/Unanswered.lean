/-
  ErrorContract.Proofs.Unanswered
  ───────────────────────────────
  **REQUESTS THAT NOBODY ANSWERS LEAVE THROUGH THE BOUNDARY.**

  A request may be for a path that no route fits, or for a method that is not
  served where its path leads, or its handler may panic.  `Ends` says of the
  routes as they were given how a request ends, and `dispatch_eq_iff_ends`
  that it ends so and in no other way.

  Main statement: in each of the three cases there is a failure, and it
  leaves as one that a handler has failed with on purpose (`LeavesAs`):
  translated, reported, counted, and hidden if the server is at fault.
-/
import ErrorContract.Proofs.Accounting
import ErrorContract.Proofs.Registration

namespace ErrorContract.Server

open ErrorContract Http Telemetry

/-! ## §1. How requests end. -/

/-- **How a request ends** at the routes that were given. -/
inductive Ends (all : List (Route Handler)) (q : Request) : Outcome × Option String → Prop where
  | unmatched (hno : ∀ route ∈ all, ∀ κ, ¬ route.Fits q.path κ) :
      Ends all q (.failure (notFound q), none)
  | unserved {route : Route Handler} {κ : Captures} (hleads : Leads all q.path route κ)
      (hno : ∀ other ∈ all, other.path = route.path → ¬ other.endpoint.Serves q.method) :
      Ends all q (.failure (methodNotAllowed q), (endpointAt all route.path).allowed)
  | handled {route : Route Handler} {κ : Captures} {handler : Handler}
      (hleads : Leads all q.path route κ)
      (hhandler : (endpointAt all route.path).handler? q.method = some handler) :
      Ends all q (handler q κ, none)

/-- **Nobody answers a method at a path exactly if no route with that path serves it.** -/
theorem handler?_endpointAt_eq_none_iff {α : Type} {all : List (Route α)} {path method : String} :
    (endpointAt all path).handler? method = none
      ↔ ∀ route ∈ all, route.path = path → ¬ route.endpoint.Serves method := by
  rw [Endpoint.handler?_eq_none_iff, endpointAt_serves_iff]
  push Not
  rfl

/-- **A request ends as the given routes say**, and in no other way. -/
theorem dispatch_eq_iff_ends {all : List (Route Handler)} {s : Server}
    (h : Registers all s.routes) {q : Request} {ends : Outcome × Option String} :
    s.dispatch q = ends ↔ Ends all q ends := by
  constructor
  · rintro rfl
    unfold dispatch
    split
    · next hnone => exact .unmatched ((findRoute_eq_none_iff_fits h).mp hnone)
    · next endpoint κ hsome =>
        obtain ⟨route, hleads, rfl⟩ := (findRoute_eq_some_iff_leads h).mp hsome
        split
        · next handler hhandler => exact .handled hleads hhandler
        · next hnone => exact .unserved hleads (handler?_endpointAt_eq_none_iff.mp hnone)
  · intro hends
    unfold dispatch
    cases hends with
    | unmatched hno => rw [(findRoute_eq_none_iff_fits h).mpr hno]
    | unserved hleads hno =>
        rw [(findRoute_eq_some_iff_leads h).mpr ⟨_, hleads, rfl⟩]
        dsimp only
        rw [handler?_endpointAt_eq_none_iff.mpr hno]
    | handled hleads hhandler =>
        rw [(findRoute_eq_some_iff_leads h).mpr ⟨_, hleads, rfl⟩]
        dsimp only
        rw [hhandler]

/-- What a server is built of: its routes, and whether it exposes messages. -/
theorem registers_of_withRoutes {c : Config} {routes : List (Route Handler)} {s : Server}
    (h : withRoutes c routes = .ok s) :
    Registers (ownRoutes c ++ routes) s.routes
      ∧ s.exposeInternalMessages = c.errors.exposeInternalMessages := by
  obtain ⟨registered, hregistered, hs⟩ := Template.bind_eq_ok_iff.mp h
  cases hs
  exact ⟨registers_registerAll registers_nil hregistered, rfl⟩

/-! ## §2. How failures leave. -/

/-- **A failure leaves through the boundary**: its status and envelope are sent, the envelope with
nothing but its code if the server is at fault and hides messages; one event reports the failure,
and it is counted once. -/
structure LeavesAs (expose : Bool) (q : Request) (f : Failure) (before : List Event)
    (allowed : Option String) (r : Reply) : Prop where
  response : r.response = finish q.method allowed (envelopeResponse f.status
    (if isServerError f.status && !expose then ⟨f.errorCode, some genericMessage⟩ else f.envelope))
  events : ∃ e, r.events = before ++ [e]
    ∧ e.report? = some ⟨q.method, q.path, f.status, f.errorCode, f.category, f.detail⟩
    ∧ e.level = if isServerError f.status then .warn else .debug
  increments : r.increments = [⟨f.status, f.category.name⟩]

theorem redact_ofFailure (expose : Bool) (f : Failure) :
    redact expose (envelopeResponse f.status f.envelope) (.ofFailure f)
      = envelopeResponse f.status
        (if isServerError f.status && !expose then ⟨f.errorCode, some genericMessage⟩
          else f.envelope) := by
  show (if (isServerError f.status && !expose) = true then _ else _) = _
  split <;> rfl

/-- Failures that nobody has altered leave so, whoever has failed. -/
theorem leavesAs_settle {o : Outcome} {f : Failure} {before : List Event}
    (h : o.answer = (.ofFailure f, before)) (expose : Bool) (q : Request)
    (allowed : Option String) : LeavesAs expose q f before allowed (settle expose q o allowed) := by
  have hsettle : settle expose q o allowed
      = ⟨finish q.method allowed (redact expose (envelopeResponse f.status f.envelope)
          (.ofFailure f)), before ++ [report q.method q.path f.status (.ofFailure f)],
        [⟨f.status, f.category.name⟩]⟩ := by
    rw [settle, h]
    rfl
  rw [hsettle, redact_ofFailure]
  exact ⟨rfl, ⟨_, rfl, report?_report _ _ _ _, level_report _ _ _ _⟩, rfl⟩

/-- The failure that a panic becomes: its message is absent if there is none or it is empty. -/
theorem ofText_getD (message : Option String) :
    Failure.ofText (message.getD "") = .unclassified (message.filter (· ≠ "")) := by
  cases message with
  | none => rfl
  | some text => by_cases htext : text = "" <;> simp [Failure.ofText, Option.filter, htext]

/-! ## §3. Requests that nobody answers. -/

/-- **What becomes of a request whose path leads to a route**: the routes with that route's path
refuse its method together, or one of them has it handled. -/
structure AnswersAt (expose : Bool) (all : List (Route Handler)) (q : Request)
    (route : Route Handler) (κ : Captures) (r : Reply) : Prop where
  refused : (∀ other ∈ all, other.path = route.path → ¬ other.endpoint.Serves q.method) →
    LeavesAs expose q
      (.methodNotAllowed ("Request method '" ++ q.method ++ "' is not supported")) []
      (endpointAt all route.path).allowed r
  handled : (∃ other ∈ all, other.path = route.path ∧ other.endpoint.Serves q.method) →
    ∃ handler, (endpointAt all route.path).handler? q.method = some handler
      ∧ r = settle expose q (handler q κ) none
      ∧ (∀ message, handler q κ = .panic message →
        LeavesAs expose q (.unclassified (message.filter (· ≠ "")))
          [.panicked (message.getD "")] none r)
      ∧ ∀ f, handler q κ = .failure f → LeavesAs expose q f [] none r

theorem answersAt_reply {all : List (Route Handler)} {s : Server} (h : Registers all s.routes)
    {q : Request} {route : Route Handler} {κ : Captures} (hleads : Leads all q.path route κ) :
    AnswersAt s.exposeInternalMessages all q route κ (s.reply q) := by
  refine ⟨fun hno => ?_, fun hserves => ?_⟩
  · rw [reply_eq_settle, (dispatch_eq_iff_ends h).mpr (.unserved hleads hno)]
    exact leavesAs_settle rfl _ q _
  · have hsome : (endpointAt all route.path).handler? q.method ≠ none := by
      rw [Ne, Endpoint.handler?_eq_none_iff, not_not]
      exact endpointAt_serves_iff.mpr hserves
    obtain ⟨handler, hhandler⟩ := Option.ne_none_iff_exists'.mp hsome
    rw [reply_eq_settle, (dispatch_eq_iff_ends h).mpr (.handled hleads hhandler)]
    refine ⟨handler, hhandler, rfl, fun message hpanics => ?_, fun f hfails => ?_⟩
    · rw [hpanics, ← ofText_getD]
      exact leavesAs_settle rfl _ q none
    · rw [hfails]
      exact leavesAs_settle rfl _ q none

/-- **Requests that nobody answers leave through the boundary**, as one that a handler has failed.
A path that no given route fits is not found.  Any other leads to one of them; there a method that
nobody serves is refused, and a panic of who serves it is a failure without a known cause. -/
theorem unanswered_leaves_as_failure {c : Config} {routes : List (Route Handler)} {s : Server}
    (h : withRoutes c routes = .ok s) (q : Request) :
    ((∀ route ∈ ownRoutes c ++ routes, ∀ κ, ¬ route.Fits q.path κ) →
      LeavesAs c.errors.exposeInternalMessages q
        (.notFound ("No handler found for " ++ q.method ++ " " ++ q.path)) [] none (s.reply q))
    ∧ ((∃ route ∈ ownRoutes c ++ routes, ∃ κ, route.Fits q.path κ) →
      ∃ route κ, Leads (ownRoutes c ++ routes) q.path route κ)
    ∧ ∀ route κ, Leads (ownRoutes c ++ routes) q.path route κ →
      AnswersAt c.errors.exposeInternalMessages (ownRoutes c ++ routes) q route κ (s.reply q) := by
  obtain ⟨hregisters, hexpose⟩ := registers_of_withRoutes h
  rw [← hexpose]
  refine ⟨fun hno => ?_, ?_, fun route κ hleads => answersAt_reply hregisters hleads⟩
  · rw [reply_eq_settle, (dispatch_eq_iff_ends hregisters).mpr (.unmatched hno)]
    exact leavesAs_settle rfl _ q none
  · rintro ⟨route, hroute, κ, hfits⟩
    exact hregisters.exists_leads hroute hfits

/-- At the sample service: no route fits a path, one does not serve a method, and the handler for
`GET` panics when it answers `HEAD`. -/
theorem unanswered_leaves_as_failure_sample :
    ∃ s, withRoutes {} Sample.routes = .ok s
      ∧ LeavesAs true (requestOf "PUT" "/nowhere")
        (.notFound "No handler found for PUT /nowhere") [] none
        (s.reply (requestOf "PUT" "/nowhere"))
      ∧ LeavesAs true (requestOf "POST" "/panic")
        (.methodNotAllowed "Request method 'POST' is not supported") [] (some "GET,HEAD")
        (s.reply (requestOf "POST" "/panic"))
      ∧ LeavesAs true (requestOf "HEAD" "/panic") (.unclassified (some "handler exploded"))
        [.panicked "handler exploded"] none (s.reply (requestOf "HEAD" "/panic")) := by
  have hnowhere : (withRoutes {} Sample.routes).toOption.map
      (fun s => (findRoute s.routes "/nowhere").isNone) = some true := by
    decide +kernel
  have hpanic : (withRoutes {} Sample.routes).toOption.map
        (fun s => (findRoute s.routes "/panic").map fun (endpoint, κ) =>
          (endpoint.allowed, (endpoint.handler? "POST").isNone,
            (endpoint.handler? "HEAD").map fun handler =>
              (handler (requestOf "HEAD" "/panic") κ).answer.2))
      = some (some (some "GET,HEAD", true, some [.panicked "handler exploded"])) := by
    decide +kernel
  obtain ⟨s, hbuilt, hnowhere⟩ := exists_eq_ok_of_map_toOption hnowhere
  rw [hbuilt] at hpanic
  obtain ⟨⟨endpoint, κ⟩, hfound, hserved⟩ := Option.map_eq_some_iff.mp (Option.some.inj hpanic)
  obtain ⟨hallowed, hserved⟩ := Prod.mk.inj hserved
  obtain ⟨hpost, hhead⟩ := Prod.mk.inj hserved
  obtain ⟨handler, hhandler, hlogged⟩ := Option.map_eq_some_iff.mp hhead
  obtain ⟨hregisters, -⟩ := registers_of_withRoutes hbuilt
  obtain ⟨route, hleads, rfl⟩ := (findRoute_eq_some_iff_leads hregisters).mp hfound
  -- nothing but a panic is logged in front of the boundary
  obtain ⟨message, hpanics, hmessage⟩ : ∃ message,
      handler (requestOf "HEAD" "/panic") κ = .panic message
        ∧ message.getD "" = "handler exploded" := by
    cases hends : handler (requestOf "HEAD" "/panic") κ with
    | panic message =>
        rw [hends] at hlogged
        exact ⟨message, rfl, Event.panicked.inj (List.singleton_inj.mp hlogged)⟩
    | _ =>
        rw [hends] at hlogged
        cases hlogged
  refine ⟨s, hbuilt, ?_, ?_, ?_⟩
  · exact (unanswered_leaves_as_failure hbuilt _).1
      ((findRoute_eq_none_iff_fits hregisters).mp (Option.isNone_iff_eq_none.mp hnowhere))
  · rw [← hallowed]
    exact ((unanswered_leaves_as_failure hbuilt (requestOf "POST" "/panic")).2.2 route κ
      hleads).refused (handler?_endpointAt_eq_none_iff.mp (Option.isNone_iff_eq_none.mp hpost))
  · have hserves : (endpointAt (ownRoutes {} ++ Sample.routes) route.path).Serves "HEAD" := by
      by_contra hno
      rw [Endpoint.handler?_eq_none_iff.mpr hno] at hhandler
      cases hhandler
    obtain ⟨handler', hhandler', -, hleaves, -⟩ :=
      ((unanswered_leaves_as_failure hbuilt (requestOf "HEAD" "/panic")).2.2 route κ hleads).handled
        (endpointAt_serves_iff.mp hserves)
    cases hhandler.symm.trans hhandler'
    have hleft := hleaves message hpanics
    rw [← ofText_getD, hmessage] at hleft
    exact hleft

end ErrorContract.Server
