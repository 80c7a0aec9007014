/-
  ErrorContract.Proofs.Enveloped
  ──────────────────────────────
  **ERRORS LEAVE THE SERVER IN ENVELOPES.**

  What has a status of error comes from a handler that leaves its errors to
  the boundary, from one that answers them itself, or from the server's two
  failures of its own.  Only the second kind can leave without an envelope,
  so that every handler is looked at for the responses that it makes itself:
  first what a registered handler has in common with its route, then what
  the boundary makes of an error that is left to it, and then the handlers
  of the sample service one by one.

  Main statement `errors_enveloped_iff`: an error of the sample service is
  enveloped unless a handler refuses what its path captures with a response
  of its own.
-/
import ErrorContract.Config.Load
import ErrorContract.Proofs.Accounting
import ErrorContract.Proofs.Contract
import ErrorContract.Proofs.EnvelopeReading
import ErrorContract.Proofs.Expansion

namespace ErrorContract

open Http

/-! ## §1. Handlers that were registered. -/

namespace Http

section Registered

variable {α : Type} {P : α → Prop}

/-- **Everyone who answers at an endpoint** has a property. -/
structure Endpoint.All (P : α → Prop) (e : Endpoint α) : Prop where
  methods : ∀ m ∈ e.methods, P m.2
  others : ∀ h ∈ e.others, P h

theorem Endpoint.all_on {method : String} {handler : α} (h : P handler) :
    (Endpoint.on method handler).All P :=
  ⟨List.forall_mem_singleton.mpr h, nofun⟩

/-- Whoever answers a method is one of them. -/
theorem Endpoint.All.handler {e : Endpoint α} (h : e.All P) {method : String} {handler : α}
    (hhandler : e.handler? method = some handler) : P handler := by
  -- A handler is looked up by the method itself, by `GET` in its stead, or answers all others.
  have hlookup : ∀ m, e.methods.lookup m = some handler → P handler := by
    intro m hm
    obtain ⟨front, back, hmethods, -⟩ := List.lookup_eq_some_iff.mp hm
    exact h.methods (m, handler) (by simp [hmethods])
  unfold Endpoint.handler? at hhandler
  rcases Option.or_eq_some_iff.mp hhandler with hmethod | ⟨-, hrest⟩
  · exact hlookup method hmethod
  · rcases Option.or_eq_some_iff.mp hrest with hget | ⟨-, hothers⟩
    · split at hget
      · exact hlookup "GET" hget
      · cases hget
    · exact h.others handler hothers

theorem Endpoint.All.merge {a b both : Endpoint α} (ha : a.All P) (hb : b.All P)
    (h : a.merge b = some both) : both.All P := by
  unfold Endpoint.merge at h
  split at h
  · cases h
  · split at h
    · cases h
    · cases h
      refine ⟨fun m hm => ?_, fun o ho => ?_⟩
      · rcases List.mem_append.mp hm with hm | hm
        · exact ha.methods m hm
        · exact hb.methods m hm
      · rcases Option.or_eq_some_iff.mp ho with ho | ⟨-, ho⟩
        · exact ha.others o ho
        · exact hb.others o ho

theorem mergeAt_all {path : String} {endpoint : Endpoint α} {routes result : List (Registered α)}
    (h : mergeAt path endpoint routes = some (.ok result)) (hendpoint : endpoint.All P)
    (hall : ∀ r ∈ routes, r.endpoint.All P) : ∀ r ∈ result, r.endpoint.All P := by
  induction routes generalizing result with
  | nil => cases h
  | cons r routes ih =>
      obtain ⟨hr, hroutes⟩ := List.forall_mem_cons.mp hall
      unfold mergeAt at h
      split at h
      · split at h
        · next both hboth =>
            cases h
            exact List.forall_mem_cons.mpr ⟨hr.merge hendpoint hboth, hroutes⟩
        · cases h
      · obtain ⟨merged, hmerged, hresult⟩ := Option.map_eq_some_iff.mp h
        cases merged with
        | error fault => cases hresult
        | ok rest =>
            cases hresult
            exact List.forall_mem_cons.mpr ⟨hr, ih hmerged hroutes⟩

/-- **Registering a route adds no one but who answers there.** -/
theorem register_all {routes result : List (Registered α)} {route : Route α}
    (h : register routes route = .ok result) (hroute : route.endpoint.All P)
    (hall : ∀ r ∈ routes, r.endpoint.All P) : ∀ r ∈ result, r.endpoint.All P := by
  unfold register at h
  split at h
  · next merged hmerged =>
      subst h
      exact mergeAt_all hmerged hroute hall
  · split at h
    · cases h
    · split at h
      · cases h
      · cases h
        intro r hr
        rcases List.mem_append.mp hr with hr | hr
        · exact hall r hr
        · rw [List.mem_singleton.mp hr]
          exact hroute

theorem registerAll_all {routes : List (Registered α)} {added : List (Route α)}
    {result : List (Registered α)} (h : registerAll routes added = .ok result)
    (hadded : ∀ route ∈ added, route.endpoint.All P) (hall : ∀ r ∈ routes, r.endpoint.All P) :
    ∀ r ∈ result, r.endpoint.All P := by
  induction added generalizing routes with
  | nil =>
      cases h
      exact hall
  | cons route added ih =>
      obtain ⟨hroute, hadded⟩ := List.forall_mem_cons.mp hadded
      obtain ⟨registered, hregistered, h⟩ := Template.bind_eq_ok_iff.mp h
      exact ih h hadded (register_all hregistered hroute hall)

/-! ## §2. Handlers that are found. -/

theorem Candidate.takeChar_endpoint {c : Char} {k k' : Candidate α}
    (h : k.takeChar c = some k') : k'.endpoint = k.endpoint := by
  unfold takeChar at h
  split at h
  · split at h
    · cases h
      rfl
    · cases h
  · cases h

theorem Candidate.takeCapture_endpoint {text : List Char} {k k' : Candidate α}
    (h : k.takeCapture text = some k') : k'.endpoint = k.endpoint := by
  unfold takeCapture at h
  split at h
  · cases h
    rfl
  · cases h

theorem Candidate.takeRest_endpoint {text : List Char} {k k' : Candidate α}
    (h : k.takeRest text = some k') : k'.endpoint = k.endpoint := by
  unfold takeRest at h
  split at h
  · cases h
    rfl
  · cases h

/-- Candidates that have taken something have the endpoints that they had. -/
theorem forall_mem_filterMap {take : Candidate α → Option (Candidate α)}
    (htake : ∀ k k', take k = some k' → k'.endpoint = k.endpoint) {ks : List (Candidate α)}
    (hall : ∀ k ∈ ks, k.endpoint.All P) : ∀ k ∈ ks.filterMap take, k.endpoint.All P := by
  intro k' hk'
  obtain ⟨k, hk, htaken⟩ := List.mem_filterMap.mp hk'
  rw [htake k k' htaken]
  exact hall k hk

/-- **The candidate that matches is one of those that there were**, however the search came back. -/
theorem findMatch_all {ks : List (Candidate α)} {path : List Char} {k : Candidate α}
    (h : findMatch ks path = some k) (hall : ∀ k ∈ ks, k.endpoint.All P) : k.endpoint.All P := by
  fun_induction findMatch ks path with
  | case1 => cases h
  | case2 k₀ ks => exact hall k (List.mem_of_find?_eq_some h)
  | case3 k₀ ks c cs ihChar ihAfter =>
      rcases Option.or_eq_some_iff.mp h with hchar | ⟨-, h⟩
      · exact ihChar hchar (forall_mem_filterMap (fun _ _ => Candidate.takeChar_endpoint) hall)
      · rcases Option.or_eq_some_iff.mp h with hcapture | ⟨-, hrest⟩
        · -- a capture: at the end of the path, or in front of a slash
          split at hcapture
          · next segment _ =>
              exact forall_mem_filterMap (fun _ _ => Candidate.takeCapture_endpoint) hall k
                (List.mem_of_find?_eq_some hcapture)
          · next segment after hsplit =>
              refine ihAfter segment after hsplit hcapture (forall_mem_filterMap ?_ hall)
              intro k₁ k₃ htake
              obtain ⟨k₂, hsegment, hslash⟩ := Option.bind_eq_some_iff.mp htake
              rw [Candidate.takeChar_endpoint hslash, Candidate.takeCapture_endpoint hsegment]
        · obtain ⟨k₁, hk₁, htake⟩ := List.exists_of_findSome?_eq_some hrest
          rw [Candidate.takeRest_endpoint htake]
          exact hall k₁ hk₁

/-- **Whoever is found for a path was registered.** -/
theorem findRoute_all {routes : List (Registered α)} {path : String} {endpoint : Endpoint α}
    {captures : Captures} (h : findRoute routes path = some (endpoint, captures))
    (hall : ∀ r ∈ routes, r.endpoint.All P) : endpoint.All P := by
  obtain ⟨k, hk, hfound⟩ := Option.map_eq_some_iff.mp h
  cases hfound
  exact findMatch_all hk (List.forall_mem_map.mpr hall)

end Registered

end Http

/-! ## §3. Errors that are left to the boundary. -/

/-- The text of an envelope is read as the envelope. -/
theorem Envelope.parse_text (e : Envelope) : Envelope.parse (Utf8.encode e.text) = .ok e := by
  obtain ⟨members, hbytes, hgathers⟩ := exists_members e
  have hread := parse_of_gathers .empty .empty hgathers (e := e) rfl rfl
  rw [hbytes]
  simpa [Json.Document.bytes, Json.Blanks.empty] using hread

namespace Server

/-- **A response whose body is an envelope**, and is said to be JSON. -/
structure Enveloped (r : Response) : Prop where
  contentType : r.headers.lookup "content-type" = some "application/json"
  body : ∃ e : Envelope, r.body = Utf8.encode e.text ∧ Envelope.parse r.body = .ok e

/-- **A handler's end at which an error is left to the boundary**: a response of its own is none. -/
inductive Outcome.Defers : Outcome → Prop where
  | response {r : Response} (h : r.status < 400) : Defers (.response r)
  | failure (f : Failure) : Defers (.failure f)
  | panic (message : Option String) : Defers (.panic message)

theorem lookup_withHeader {r : Response} {name value : String}
    (h : r.headers.lookup name = some value) (other text : String) :
    (r.withHeader other text).headers.lookup name = some value := by
  unfold Response.withHeader
  split
  · exact h
  · simp [List.lookup_append, h]

/-- What depends on what is sent leaves the headers that there are as they are. -/
theorem lookup_finish {r : Response} {name value : String}
    (h : r.headers.lookup name = some value) (method : String) (allowed : Option String) :
    (finish method allowed r).headers.lookup name = some value := by
  unfold finish
  by_cases hconnect : (method = "CONNECT" && isSuccess r.status) = true
  · rw [if_pos hconnect]
    exact h
  · rw [if_neg hconnect]
    by_cases hhead : method = "HEAD" <;> cases allowed <;>
      simp [hhead, lookup_withHeader, h]

/-- An envelope stays one when it is sent as an error, but in answer to `HEAD`. -/
theorem enveloped_finish {method : String} (hmethod : method ≠ "HEAD") {status : Nat}
    (hstatus : 400 ≤ status) (allowed : Option String) (e : Envelope) :
    Enveloped (finish method allowed (envelopeResponse status e)) := by
  refine ⟨lookup_finish rfl method allowed, e, ?_⟩
  have hsuccess : isSuccess status ≠ true := by
    rw [ne_eq, isSuccess_iff]
    omega
  have hbody : (finish method allowed (envelopeResponse status e)).body = Utf8.encode e.text := by
    rcases finish_body_eq_or method allowed (envelopeResponse status e) with hsame | ⟨hnone, -⟩
    · exact hsame
    · rcases hnone with hhead | ⟨-, hsent⟩
      · exact absurd hhead hmethod
      · exact absurd hsent hsuccess
  exact ⟨hbody, by rw [hbody, Envelope.parse_text]⟩

/-- **An error that is left to the boundary leaves it in an envelope**, hidden or not. -/
theorem enveloped_settle {o : Outcome} (h : o.Defers) (expose : Bool) {q : Request}
    (hmethod : q.method ≠ "HEAD") (allowed : Option String)
    (herror : 400 ≤ (settle expose q o allowed).response.status) :
    (settle expose q o allowed).response.status ∈ [400, 401, 404, 405, 409, 415, 500]
      ∧ Enveloped (settle expose q o allowed).response := by
  -- A failure that nobody has altered, and its envelope or the generic one in its stead.
  have hfailure : ∀ f : Failure, o.carried = some (f.status, f) →
      o.answer.1.response = envelopeResponse f.status f.envelope →
      ∃ e, (settle expose q o allowed).response
        = finish q.method allowed (envelopeResponse f.status e) := by
    intro f hcarried hanswer
    rw [settle_of_carried hcarried, hanswer]
    by_cases hhidden : (isServerError f.status && !expose) = true
    · exact ⟨concealed f, by rw [if_pos hhidden]⟩
    · exact ⟨f.envelope, by rw [if_neg hhidden]⟩
  have hsent : ∃ (f : Failure) (e : Envelope), (settle expose q o allowed).response
      = finish q.method allowed (envelopeResponse f.status e) := by
    cases h with
    | @response r hfine =>
        rw [settle_response, finish_status] at herror
        exact absurd hfine (Nat.not_lt.mpr herror)
    | failure f => exact ⟨f, hfailure f rfl rfl⟩
    | panic message => exact ⟨_, hfailure _ rfl rfl⟩
  obtain ⟨f, e, hresponse⟩ := hsent
  have hstatus : (settle expose q o allowed).response.status = f.status := by
    rw [hresponse, finish_status]
    rfl
  rw [hstatus] at herror ⊢
  rw [hresponse]
  exact ⟨f.status_mem, enveloped_finish hmethod herror allowed e⟩

/-! ## §4. What becomes of a request. -/

/-- **A request ends where its handler does**, or at a failure of the server's own. -/
theorem dispatch_cases (s : Server) (q : Request) :
    (∃ f, (s.dispatch q).1 = .failure f)
      ∨ ∃ endpoint captures handler, findRoute s.routes q.path = some (endpoint, captures)
        ∧ endpoint.handler? q.method = some handler
        ∧ s.dispatch q = (handler q captures, none) := by
  unfold dispatch
  split
  · exact .inl ⟨_, rfl⟩
  · next endpoint captures hfound =>
      split
      · next handler hhandler => exact .inr ⟨_, _, _, hfound, hhandler, rfl⟩
      · exact .inl ⟨_, rfl⟩

/-- Who answers at a route of a server answers at a route that it was built with, or tells that
the server is alive. -/
theorem withRoutes_all {P : Handler → Prop} {c : Config} {routes : List (Route Handler)}
    {s : Server} (h : withRoutes c routes = .ok s) (hroutes : ∀ r ∈ routes, r.endpoint.All P)
    (hhealth : P health) : ∀ r ∈ s.routes, r.endpoint.All P := by
  -- The health route is registered in front of the others, wherever the settings put it.
  obtain ⟨registered, hregistered, hs⟩ := Template.bind_eq_ok_iff.mp h
  cases hs
  refine registerAll_all hregistered (fun route hroute => ?_) nofun
  rcases List.mem_append.mp hroute with hown | hroute
  · unfold ownRoutes at hown
    split at hown
    · rw [List.mem_singleton.mp hown]
      exact Endpoint.all_on hhealth
    · cases hown
  · exact hroutes route hroute

end Server

/-! ## §5. The sample service. -/

namespace Sample

open Server

/-- **A handler refuses what its path captured with a response of its own**, of plain text. -/
inductive Refuses : Handler → Captures → Prop where
  | table {captures : Captures} {fault : CaptureFault} (h : captures.text = .error fault) :
      Refuses table captures
  | dropTable {captures : Captures} {fault : CaptureFault} (h : captures.text = .error fault) :
      Refuses dropTable captures
  | parseNumber {captures : Captures} {fault : CaptureFault} (h : captures.text = .error fault) :
      Refuses parseNumber captures
  | row {captures : Captures} {fault : CaptureFault}
      (h : captures.number (.unsigned 32) = .error fault) : Refuses row captures

section Reading

variable {β : Type} {use : β → Outcome}

theorem withPlainCaptures_of_error {read : Except CaptureFault β} {fault : CaptureFault}
    (h : read = .error fault) (use : β → Outcome) :
    withPlainCaptures read use = .response (.plain 400 fault.message) := by
  rw [h]
  rfl

theorem defers_withPlainCaptures (huse : ∀ b, (use b).Defers) (read : Except CaptureFault β) :
    (withPlainCaptures read use).Defers ∨ ∃ fault, read = .error fault := by
  cases read with
  | ok b => exact .inl (huse b)
  | error fault => exact .inr ⟨fault, rfl⟩

theorem defers_withCaptures (huse : ∀ b, (use b).Defers) (read : Except CaptureFault β) :
    (withCaptures read use).Defers := by
  cases read with
  | ok b => exact huse b
  | error fault => exact .failure _

theorem defers_withQuery (huse : ∀ b, (use b).Defers) (read : Except Query.Fault β) :
    (withQuery read use).Defers := by
  cases read with
  | ok b => exact huse b
  | error fault => exact .failure _

theorem defers_withBody (type : BodyType) (q : Request) {respond : Json.Value → Response}
    (hrespond : ∀ v, (respond v).status < 400) : (withBody type q respond).Defers := by
  unfold withBody
  cases extractJson schema (schema type) q.headers q.body with
  | ok v => exact .response (hrespond v)
  | error f => exact .failure f

end Reading

/-- Refusals are answered in plain text. -/
theorem Refuses.plain {handler : Handler} {captures : Captures} (h : Refuses handler captures)
    (q : Request) : ∃ text, handler q captures = .response (.plain 400 text) := by
  cases h with
  | table h => exact ⟨_, withPlainCaptures_of_error h _⟩
  | dropTable h => exact ⟨_, withPlainCaptures_of_error h _⟩
  | parseNumber h => exact ⟨_, withPlainCaptures_of_error h _⟩
  | row h => exact ⟨_, withPlainCaptures_of_error h _⟩

/-- A handler that leaves its errors to the boundary, all but its refusals. -/
def LeavesErrors (handler : Handler) : Prop :=
  ∀ q captures, (handler q captures).Defers ∨ Refuses handler captures

theorem leavesErrors_of_defers {handler : Handler} (h : ∀ q captures, (handler q captures).Defers) :
    LeavesErrors handler := fun q captures => .inl (h q captures)

/-- A handler that uses captures in plain refuses those that it cannot use, and no others. -/
theorem leavesErrors_plain {β : Type} {handler : Handler} {read : Captures → Except CaptureFault β}
    {use : β → Outcome} (hhandler : ∀ q captures, handler q captures
      = withPlainCaptures (read captures) use)
    (hrefuses : ∀ captures fault, read captures = .error fault → Refuses handler captures)
    (huse : ∀ b, (use b).Defers) : LeavesErrors handler := by
  intro q captures
  rw [hhandler]
  rcases defers_withPlainCaptures huse (read captures) with h | ⟨fault, h⟩
  · exact .inl h
  · exact .inr (hrefuses captures fault h)

theorem leavesErrors_row : LeavesErrors row :=
  leavesErrors_plain (fun _ _ => rfl) (fun _ _ h => .row h) fun _ => .failure _

theorem leavesErrors_parseNumber : LeavesErrors parseNumber := by
  refine leavesErrors_plain (fun _ _ => rfl) (fun _ _ h => .parseNumber h) fun text => ?_
  cases Numeral.parse (.signed 64) text with
  | ok i => exact .response (by decide : 200 < 400)
  | error fault => exact .failure _

theorem defers_insertRows (q : Request) (captures : Captures) : (insertRows q captures).Defers :=
  defers_withBody .insert q fun _ => (by decide : 201 < 400)

theorem defers_scan (q : Request) (captures : Captures) : (scan q captures).Defers := by
  refine defers_withQuery (fun limit => ?_) _
  split
  · exact .failure _
  · exact .response (by decide : 200 < 400)

theorem defers_decodeColumn (q : Request) (captures : Captures) :
    (decodeColumn q captures).Defers := by
  unfold decodeColumn
  cases Utf8.decodeText brokenColumn with
  | ok text => exact .response (by decide : 200 < 400)
  | error fault => exact .failure _

/-- **Every handler of the service leaves its errors to the boundary**, all but its refusals. -/
theorem leavesErrors_routes : ∀ route ∈ routes, route.endpoint.All LeavesErrors := by
  -- three of the handlers fail with the code that they read
  have hfailing : ∀ use : Int → Outcome, (∀ code, (use code).Defers) →
      LeavesErrors fun _ captures => withCaptures (captures.number codeKind) use :=
    fun use huse => leavesErrors_of_defers fun _ _ => defers_withCaptures huse _
  intro route hroute
  simp only [routes, List.mem_cons, List.not_mem_nil, or_false] at hroute
  rcases hroute with
    rfl | rfl | rfl | rfl | rfl | rfl | rfl | rfl | rfl | rfl | rfl | rfl
  · exact Endpoint.all_on (leavesErrors_of_defers defers_insertRows)
  · exact Endpoint.all_on (hfailing _ fun _ => .failure _)
  · exact Endpoint.all_on (hfailing _ fun _ => .failure _)
  · exact Endpoint.all_on (hfailing _ fun _ => .failure _)
  · -- two methods of one path
    have htable : LeavesErrors table :=
      leavesErrors_plain (fun _ _ => rfl) (fun _ _ h => .table h) fun _ => .failure _
    have hdropTable : LeavesErrors dropTable :=
      leavesErrors_plain (fun _ _ => rfl) (fun _ _ h => .dropTable h) fun _ => .failure _
    exact ⟨by simp [htable, hdropTable], nofun⟩
  · exact Endpoint.all_on leavesErrors_row
  · exact Endpoint.all_on (leavesErrors_of_defers defers_scan)
  · exact Endpoint.all_on (leavesErrors_of_defers fun _ _ => .failure _)
  · exact Endpoint.all_on leavesErrors_parseNumber
  · exact Endpoint.all_on (leavesErrors_of_defers defers_decodeColumn)
  · exact Endpoint.all_on (leavesErrors_of_defers fun _ _ => .failure _)
  · exact Endpoint.all_on (leavesErrors_of_defers fun _ _ => .panic _)

theorem leavesErrors_health : LeavesErrors health :=
  leavesErrors_of_defers fun _ _ => .response (by decide : 200 < 400)

/-! ## §6. Errors of the service. -/

/-- **The request reaches a handler that refuses what the path captured.** -/
def Refused (s : Server) (q : Request) : Prop :=
  ∃ endpoint captures handler, findRoute s.routes q.path = some (endpoint, captures)
    ∧ endpoint.handler? q.method = some handler ∧ Refuses handler captures

theorem defers_or_refused {c : Config} {s : Server} (h : withRoutes c routes = .ok s)
    (q : Request) : (s.dispatch q).1.Defers ∨ Refused s q := by
  rcases dispatch_cases s q with ⟨f, hf⟩ | ⟨endpoint, captures, handler, hfound, hhandler, hends⟩
  · rw [hf]
    exact .inl (.failure f)
  · have hleaves : LeavesErrors handler :=
      (findRoute_all hfound (withRoutes_all h leavesErrors_routes leavesErrors_health)).handler
        hhandler
    rw [hends]
    exact (hleaves q captures).imp_right fun hrefuses =>
      ⟨endpoint, captures, handler, hfound, hhandler, hrefuses⟩

theorem dispatch_of_refused {s : Server} {q : Request} (h : Refused s q) :
    ∃ text, s.dispatch q = (.response (.plain 400 text), none) := by
  obtain ⟨endpoint, captures, handler, hfound, hhandler, hrefuses⟩ := h
  obtain ⟨text, hplain⟩ := hrefuses.plain q
  refine ⟨text, ?_⟩
  unfold dispatch
  rw [hfound]
  dsimp only
  rw [hhandler]
  dsimp only
  rw [hplain]

/-- **Errors of the service are enveloped, but for refusals.**  Whatever the settings and the
request, an error has one of the statuses of failures, and its body is an envelope and said to be
JSON, exactly if no handler has refused what the path captured. -/
theorem errors_enveloped_iff {c : Config} {s : Server} (h : withRoutes c routes = .ok s)
    {q : Request} (hmethod : q.method ≠ "HEAD")
    (herror : 400 ≤ (s.reply q).response.status) :
    (s.reply q).response.status ∈ [400, 401, 404, 405, 409, 415, 500]
      ∧ (Enveloped (s.reply q).response ↔ ¬ Refused s q) := by
  by_cases hrefused : Refused s q
  · -- a refusal is sent as the handler has made it
    obtain ⟨text, hends⟩ := dispatch_of_refused hrefused
    have hreply : (s.reply q).response = finish q.method none (.plain 400 text) := by
      rw [reply_eq_settle, hends, settle_response]
    have htype : (s.reply q).response.headers.lookup "content-type"
        = some "text/plain; charset=utf-8" := by
      rw [hreply]
      exact lookup_finish rfl q.method none
    refine ⟨?_, fun henveloped => ?_, absurd hrefused⟩
    · rw [hreply, finish_status]
      show 400 ∈ [400, 401, 404, 405, 409, 415, 500]
      decide
    · rw [henveloped.contentType] at htype
      exact absurd htype (by decide)
  · have hdefers := (defers_or_refused h q).resolve_right hrefused
    rw [reply_eq_settle] at herror ⊢
    obtain ⟨hstatus, henveloped⟩ := enveloped_settle hdefers _ hmethod _ herror
    exact ⟨hstatus, fun _ => hrefused, fun _ => henveloped⟩

/-- A row that there is not: its number is read, and its failure is enveloped. -/
theorem errors_enveloped_missing_row :
    ∃ s, withRoutes {} routes = .ok s ∧ (s.reply (requestOf "GET" "/rows/7")).response.status = 404
      ∧ Enveloped (s.reply (requestOf "GET" "/rows/7")).response := by
  have hread : (withRoutes {} routes).toOption.map
        (fun s => ((s.reply (requestOf "GET" "/rows/7")).response.status,
          (s.dispatch (requestOf "GET" "/rows/7")).1.carried.isSome)) = some (404, true) := by
    decide +kernel
  obtain ⟨s, hbuilt, hends⟩ := exists_eq_ok_of_map_toOption hread
  obtain ⟨hstatus, hcarried⟩ := Prod.mk.inj hends
  have hrefused : ¬ Refused s (requestOf "GET" "/rows/7") := by
    intro hrefused
    obtain ⟨text, hplain⟩ := dispatch_of_refused hrefused
    rw [hplain] at hcarried
    cases hcarried
  have herror : 400 ≤ (s.reply (requestOf "GET" "/rows/7")).response.status := by
    rw [hstatus]
    decide
  exact ⟨s, hbuilt, hstatus,
    (errors_enveloped_iff hbuilt (by decide) herror).2.mpr hrefused⟩

/-- **A refusal is no envelope**: with settings that were accepted, a row whose number is none is
answered in plain text. -/
theorem refused_row_not_enveloped :
    ∃ c s, Config.parse ⟨[]⟩ "" = .ok c ∧ withRoutes c routes = .ok s
      ∧ (s.reply (requestOf "GET" "/rows/abc")).response.status = 400
      ∧ ¬ Enveloped (s.reply (requestOf "GET" "/rows/abc")).response := by
  have hread : (Config.parse ⟨[]⟩ "").toOption.map
        (fun c => (withRoutes c routes).toOption.map fun s =>
          ((s.reply (requestOf "GET" "/rows/abc")).response.status,
            (s.reply (requestOf "GET" "/rows/abc")).response.headers.lookup "content-type"))
      = some (some (400, some "text/plain; charset=utf-8")) := by
    decide +kernel
  obtain ⟨c, hparse, hserver⟩ := exists_eq_ok_of_map_toOption hread
  obtain ⟨s, hbuilt, hends⟩ := exists_eq_ok_of_map_toOption hserver
  obtain ⟨hstatus, htype⟩ := Prod.mk.inj hends
  refine ⟨c, s, hparse, hbuilt, hstatus, fun henveloped => ?_⟩
  rw [henveloped.contentType] at htype
  exact absurd htype (by decide)

end Sample

end ErrorContract
