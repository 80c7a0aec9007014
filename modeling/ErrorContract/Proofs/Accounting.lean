/-
  ErrorContract.Proofs.Accounting
  ───────────────────────────────
  **LOG, COUNTER AND RESPONSE AGREE, ONCE FOR EVERY FAILURE.**

  One request is one step: if its response carries a failure, it is reported
  once and counted once, with the status that is sent and the code of the
  envelope that is sent, hidden or not; otherwise neither happens.  Over a
  run of requests the counter therefore holds the number of failures for
  each status and category, whatever the order of the requests.
-/
import ErrorContract.Proofs.Hiding
import ErrorContract.Proofs.Tally

namespace ErrorContract.Server

open ErrorContract Http Telemetry

/-! ## §1. Reports. -/

/-- What an event reports of a request; a panic is logged before the boundary reports it. -/
def Event.report? : Event → Option Report
  | .panicked _ => none
  | .failed report | .rejected report => some report

/-- The events that the boundary logged. -/
def Reply.reports (r : Reply) : List Event := r.events.filter fun e => e.report?.isSome

/-- What is logged before the boundary is no report. -/
theorem filter_events_answer (o : Outcome) :
    o.answer.2.filter (fun e => e.report?.isSome) = [] := by
  cases o <;> rfl

theorem report?_report (method path : String) (status : Status) (t : Trace) :
    (report method path status t).report?
      = some ⟨method, path, status, t.errorCode, t.category, t.detail⟩ := by
  unfold report
  dsimp only
  split <;> rfl

theorem level_report (method path : String) (status : Status) (t : Trace) :
    (report method path status t).level = if isServerError status then .warn else .debug := by
  unfold report
  dsimp only
  by_cases h : isServerError status = true
  · rw [if_pos h, if_pos h]
    rfl
  · rw [if_neg h, if_neg h]
    rfl

/-! ## §2. The envelope that is sent. -/

/-- **What is sent of the envelope with this code**: the envelope; or nothing, where nothing may
be sent; or what the application has put in its place, if that is not hidden. -/
inductive Sends (expose : Bool) (method : String) (o : Outcome) (code : Int32) (r : Response) :
    Prop where
  | envelope (e : Envelope) (hcode : e.errorCode = code) (hbody : r.body = Utf8.encode e.text)
  | bodiless (hmethod : method = "HEAD" ∨ method = "CONNECT" ∧ isSuccess r.status = true)
      (hbody : r.body = [])
  | replaced (own : Response) (f : Failure) (haltered : o = .altered own f)
      (hother : own.body ≠ Utf8.encode f.envelope.text)
      (hshown : (isServerError r.status && !expose) = false) (hbody : r.body = own.body)

/-- A body is sent as it is, or not at all. -/
theorem finish_body_eq_or (method : String) (allowed : Option String) (r : Response) :
    (finish method allowed r).body = r.body
      ∨ (method = "HEAD" ∨ method = "CONNECT" ∧ isSuccess r.status = true)
        ∧ (finish method allowed r).body = [] := by
  unfold finish
  by_cases hconnect : (method = "CONNECT" && isSuccess r.status) = true
  · rw [if_pos hconnect]
    exact .inr ⟨.inr (by simpa using hconnect), rfl⟩
  · rw [if_neg hconnect]
    by_cases hhead : method = "HEAD"
    · exact .inr ⟨.inl hhead, by simp [hhead]⟩
    · left
      cases allowed <;> simp [hhead]

/-- A failure's response has the failure's envelope for its body, unless the application has
altered it. -/
theorem body_answer_or_altered {o : Outcome} {status : Status} {f : Failure}
    (h : o.carried = some (status, f)) :
    o.answer.1.response.body = Utf8.encode f.envelope.text ∨ ∃ own, o = .altered own f := by
  cases o with
  | response r => cases h
  | failure g =>
      obtain ⟨-, rfl⟩ := Prod.mk.inj (Option.some.inj h)
      exact .inl rfl
  | altered own g =>
      obtain ⟨-, rfl⟩ := Prod.mk.inj (Option.some.inj h)
      exact .inr ⟨own, rfl⟩
  | panic message =>
      obtain ⟨-, rfl⟩ := Prod.mk.inj (Option.some.inj h)
      exact .inl rfl

/-- **The code that is reported is that of the envelope that is sent.** -/
theorem sends_finish {o : Outcome} {status : Status} {f : Failure}
    (h : o.carried = some (status, f)) (expose : Bool) (method : String)
    (allowed : Option String) :
    Sends expose method o f.errorCode (finish method allowed
      (if isServerError status && !expose then envelopeResponse status (concealed f)
        else o.answer.1.response)) := by
  by_cases hhidden : (isServerError status && !expose) = true
  · rw [if_pos hhidden]
    rcases finish_body_eq_or method allowed (envelopeResponse status (concealed f))
      with hbody | ⟨hmethod, hbody⟩
    · exact .envelope (concealed f) rfl hbody
    · refine .bodiless ?_ hbody
      rw [finish_status]
      exact hmethod
  · rw [if_neg hhidden]
    rcases finish_body_eq_or method allowed o.answer.1.response with hbody | ⟨hmethod, hbody⟩
    · by_cases hown : o.answer.1.response.body = Utf8.encode f.envelope.text
      · exact .envelope f.envelope rfl (hbody.trans hown)
      · -- Only the application can have put another body in its place.
        obtain ⟨own, rfl⟩ := (body_answer_or_altered h).resolve_left hown
        refine .replaced own f rfl hown ?_ hbody
        rw [finish_status, Outcome.status_answer h]
        exact Bool.eq_false_iff.mpr hhidden
    · refine .bodiless ?_ hbody
      rw [finish_status]
      exact hmethod

/-! ## §3. One request. -/

/-- **How a response with this status and failure is accounted for.** -/
structure Accounts (expose : Bool) (q : Request) (o : Outcome) (status : Status) (f : Failure)
    (r : Reply) : Prop where
  status : r.response.status = status
  /-- The boundary logs one event. -/
  reported : ∃ e, r.reports = [e]
    ∧ e.report? = some ⟨q.method, q.path, r.response.status, f.errorCode, f.category, f.detail⟩
    ∧ e.level = if isServerError r.response.status then .warn else .debug
  /-- The counter is incremented once. -/
  counted : r.increments = [⟨r.response.status, f.category.name⟩]
  sent : Sends expose q.method o f.errorCode r.response

theorem accounts_settle {o : Outcome} {status : Status} {f : Failure}
    (h : o.carried = some (status, f)) (expose : Bool) (q : Request) (allowed : Option String) :
    Accounts expose q o status f (settle expose q o allowed) := by
  have hstatus : (settle expose q o allowed).response.status = status := by
    rw [settle_of_carried h, finish_status]
    split
    · rfl
    · exact Outcome.status_answer h
  refine ⟨hstatus, ?_, ?_, ?_⟩
  · -- what a panic has logged before is filtered out, and the report is left
    refine ⟨report q.method q.path status (.ofFailure f), ?_, ?_, ?_⟩
    · have hevent : (report q.method q.path status (.ofFailure f)).report?.isSome = true := by
        rw [report?_report]
        rfl
      rw [settle_of_carried h, Reply.reports, List.filter_append, filter_events_answer,
        List.nil_append, List.filter_cons, if_pos hevent]
      rfl
    · rw [report?_report, hstatus]
      rfl
    · rw [level_report, hstatus]
  · rw [hstatus, settle_of_carried h]
  · rw [settle_of_carried h]
    exact sends_finish h expose q.method allowed

/-- Without a failure nothing is logged and nothing is counted. -/
theorem settle_of_not_carried {o : Outcome} (h : o.carried = none) (expose : Bool) (q : Request)
    (allowed : Option String) :
    (settle expose q o allowed).events = [] ∧ (settle expose q o allowed).increments = [] := by
  rw [settle, boundary_of_not_carried h]
  cases o with
  | response r => exact ⟨rfl, rfl⟩
  | _ => cases h

/-! ## §4. Runs. -/

/-- The failure that the response to a request carries, and the status of the response. -/
def fails (s : Server) (q : Request) : Option (Status × Failure) := (s.dispatch q).1.carried

/-- Does a request end with this status and a failure of this category? -/
def failsAs (s : Server) (status : Status) (category : Category) (q : Request) : Bool :=
  (s.fails q).any fun c => c.1 = status && c.2.category = category

/-- The increment for a failure. -/
def incrementOf (c : Status × Failure) : Increment := ⟨c.1, c.2.category.name⟩

/-- What a server exports of its counter behind a run of requests. -/
def exported (s : Server) (qs : List Request) : Sums :=
  sums (qs.flatMap fun q => (s.reply q).increments)

theorem reply_eq_settle (s : Server) (q : Request) :
    s.reply q = settle s.exposeInternalMessages q (s.dispatch q).1 (s.dispatch q).2 := rfl

/-- **One request is counted at most once.** -/
theorem increments_reply (s : Server) (q : Request) :
    (s.reply q).increments = ((s.fails q).map incrementOf).toList := by
  rw [reply_eq_settle]
  cases h : (s.dispatch q).1.carried with
  | none =>
      rw [(settle_of_not_carried h _ q _).2, fails, h]
      rfl
  | some c =>
      rw [settle_of_carried h, fails, h]
      rfl

/-- And it is reported as often as it is counted. -/
theorem length_reports_reply (s : Server) (q : Request) :
    (s.reply q).reports.length = (s.reply q).increments.length := by
  rw [reply_eq_settle]
  cases h : (s.dispatch q).1.carried with
  | none =>
      obtain ⟨hevents, hincrements⟩ :=
        settle_of_not_carried h s.exposeInternalMessages q (s.dispatch q).2
      rw [hincrements, Reply.reports, hevents]
      rfl
  | some c =>
      have haccounts := accounts_settle h s.exposeInternalMessages q (s.dispatch q).2
      obtain ⟨e, hreports, -⟩ := haccounts.reported
      rw [hreports, haccounts.counted]
      rfl

/-- The increments of a run are those of its failures. -/
theorem increments_run (s : Server) (qs : List Request) :
    (qs.flatMap fun q => (s.reply q).increments)
      = qs.filterMap fun q => (s.fails q).map incrementOf := by
  rw [List.filterMap_eq_flatMap_toList]
  congr 1
  funext q
  exact increments_reply s q

theorem Category.name_injective : ∀ a b : Category, a.name = b.name → a = b := by
  intro a b
  cases a <;> cases b <;> decide

/-- A failure is counted where its status and its category say. -/
theorem incrementOf_beq (s : Server) (status : Status) (category : Category) (q : Request) :
    ((s.fails q).map incrementOf == some ⟨status, category.name⟩)
      = s.failsAs status category q := by
  unfold failsAs
  cases s.fails q with
  | none => rfl
  | some c =>
      rw [Bool.eq_iff_iff]
      simp only [Option.map_some, beq_iff_eq, Option.some.injEq, incrementOf, Increment.mk.injEq,
        Option.any_some, Bool.and_eq_true, decide_eq_true_eq]
      exact and_congr_right fun _ => ⟨Category.name_injective _ _, fun h => h ▸ rfl⟩

/-- **What the counter holds behind a run.** -/
structure Counts (s : Server) (qs : List Request) (totals : Sums) : Prop where
  /-- No attributes have two values. -/
  once : (totals.map Prod.fst).Nodup
  /-- The value for a status and a category is the number of such failures. -/
  value : ∀ status category,
    totals.count ⟨status, Category.name category⟩ = qs.countP (s.failsAs status category)
  /-- The values add up to the number of failures. -/
  total : (totals.map Prod.snd).sum = qs.countP fun q => (s.fails q).isSome
  /-- So many events were logged by the boundary. -/
  logged : (qs.flatMap fun q => (s.reply q).reports).length
    = qs.countP fun q => (s.fails q).isSome

theorem counts_exported (s : Server) (qs : List Request) : Counts s qs (s.exported qs) where
  once := (tallies_sums _).nodup
  value status category := by
    rw [exported, (tallies_sums _).count_eq, increments_run, List.count_filterMap]
    congr 1
    funext q
    exact incrementOf_beq s status category q
  total := by
    rw [exported, total_sums, increments_run, List.length_filterMap_eq_countP]
    simp
  logged := by
    have hsame : (qs.flatMap fun q => (s.reply q).reports).length
        = (qs.flatMap fun q => (s.reply q).increments).length := by
      simp only [List.length_flatMap, length_reports_reply]
    rw [hsame, increments_run, List.length_filterMap_eq_countP]
    simp

/-- **Log, counter and response agree.**  A response that carries a failure is reported once and
counted once, with its status, its code and its category; any other response is neither.  Behind
a run of requests the counter holds the number of failures for each status and category, and it
holds the same behind the requests in any other order. -/
theorem log_counter_and_response_agree (s : Server) :
    (∀ q : Request,
      (∀ status f, s.fails q = some (status, f) →
        Accounts s.exposeInternalMessages q (s.dispatch q).1 status f (s.reply q))
      ∧ (s.fails q = none → (s.reply q).events = [] ∧ (s.reply q).increments = []))
    ∧ ∀ qs : List Request, Counts s qs (s.exported qs)
      ∧ ∀ qs', qs.Perm qs' → s.exported qs' = s.exported qs := by
  refine ⟨fun q => ⟨fun status f h => ?_, fun h => ?_⟩, fun qs => ⟨counts_exported s qs, ?_⟩⟩
  · exact accounts_settle h s.exposeInternalMessages q _
  · exact settle_of_not_carried h s.exposeInternalMessages q _
  · intro qs' hperm
    exact sums_eq_of_perm (hperm.symm.flatMap_right _)

/-- An unknown error, a panic and a healthy answer at the sample service: two failures are counted
together, in either order. -/
theorem unknown_and_panic_counted_together :
    ∃ s, withRoutes {} Sample.routes = .ok s
      ∧ (s.exported [requestOf "GET" "/opaque", requestOf "GET" "/health",
          requestOf "GET" "/panic"]).count ⟨500, "unclassified"⟩ = 2
      ∧ s.exported [requestOf "GET" "/panic", requestOf "GET" "/opaque",
          requestOf "GET" "/health"]
        = s.exported [requestOf "GET" "/opaque", requestOf "GET" "/health",
          requestOf "GET" "/panic"]
      ∧ (s.reply (requestOf "GET" "/opaque")).increments = [⟨500, "unclassified"⟩]
      ∧ (s.reply (requestOf "GET" "/health")).increments = [] := by
  have hends : (withRoutes {} Sample.routes).toOption.map
        (fun s => (s.fails (requestOf "GET" "/opaque"), s.fails (requestOf "GET" "/health"),
          s.fails (requestOf "GET" "/panic")))
      = some (some (500, .unclassified (some "replica fell behind")), none,
          some (500, .unclassified (some "handler exploded"))) := by
    decide +kernel
  obtain ⟨s, hbuilt, hfails⟩ := exists_eq_ok_of_map_toOption hends
  obtain ⟨hunknown, hrest⟩ := Prod.mk.inj hfails
  obtain ⟨hhealth, hpanic⟩ := Prod.mk.inj hrest
  obtain ⟨hone, hrun⟩ := log_counter_and_response_agree s
  obtain ⟨hcounts, hperm⟩ :=
    hrun [requestOf "GET" "/opaque", requestOf "GET" "/health", requestOf "GET" "/panic"]
  refine ⟨s, hbuilt, ?_, ?_, ?_, ?_⟩
  · refine (hcounts.value 500 .unclassified).trans ?_
    simp only [List.countP_cons, List.countP_nil, failsAs, hunknown, hhealth, hpanic]
    rfl
  · have hrotated : ([requestOf "GET" "/opaque", requestOf "GET" "/health"]
        ++ [requestOf "GET" "/panic"]).Perm
          ([requestOf "GET" "/panic"] ++ [requestOf "GET" "/opaque", requestOf "GET" "/health"]) :=
      List.perm_append_comm
    exact hperm _ hrotated
  · have haccounts := (hone (requestOf "GET" "/opaque")).1 _ _ hunknown
    rw [haccounts.counted, haccounts.status]
    rfl
  · exact ((hone (requestOf "GET" "/health")).2 hhealth).2

end ErrorContract.Server
