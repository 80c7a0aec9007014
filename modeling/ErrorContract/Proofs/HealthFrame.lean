/-
  ErrorContract.Proofs.HealthFrame
  ────────────────────────────────
  **THE HEALTH ENDPOINT CONCERNS ITS OWN PATH ONLY.**

  Its path may lie beside, above or within the paths of the application, so
  that a request for one of them comes past the other's pattern.  Routes that
  do not fit a path are of no account for it, wherever the search passes
  them (`ends_of_ends_append`), and a path without braces fits nothing but
  itself.

  Main statement: with the health endpoint, the sample service answers every
  request for another path as it does without; and the health path is
  answered, whatever else is there, and nothing is logged or counted.
-/
import ErrorContract.Proofs.Routable
import ErrorContract.Proofs.Unanswered

namespace ErrorContract

open Http Server

/-! ## §1. Routes that do not fit a path. -/

namespace Http

section Passed

variable {α : Type} {own routes : List (Route α)} {path : String} {κ : Captures}

/-- Which routes fit a path is a matter of the paths that they have. -/
theorem Route.fits_congr {route other : Route α} (h : other.path = route.path) :
    other.Fits path κ ↔ route.Fits path κ := by
  unfold Fits
  rw [h]

/-- **Routes that do not fit a path lead nowhere and keep nobody from leading there.** -/
theorem leads_of_leads_append (hno : ∀ route ∈ own, ∀ κ, ¬ route.Fits path κ) {route : Route α}
    (h : Leads (own ++ routes) path route κ) : Leads routes path route κ := by
  refine ⟨?_, h.fits, fun other hother => h.first other (List.mem_append_right _ hother)⟩
  exact (List.mem_append.mp h.mem).resolve_left fun hown => hno route hown κ h.fits

/-- Nor do they answer anything where a path leads. -/
theorem endpointAt_append_of_fits (hno : ∀ route ∈ own, ∀ κ, ¬ route.Fits path κ)
    {route : Route α} (hfits : route.Fits path κ) :
    endpointAt (own ++ routes) route.path = endpointAt routes route.path := by
  have hown : routesAt own route.path = [] := by
    refine routesAt_eq_nil fun other hother hpath => ?_
    exact hno other hother κ ((Route.fits_congr hpath).mpr hfits)
  refine endpointAt_congr ?_
  rw [routesAt, List.filter_append]
  exact congrArg (· ++ _) hown

end Passed

/-! ## §2. Paths without braces. -/

theorem Pattern.written_of_parse {path : String} {p : Pattern} (h : Pattern.parse path = some p) :
    p.Written path.toList := by
  unfold Pattern.parse at h
  dsimp only at h
  split at h
  · cases h
  · exact (written_iff p _).mpr (Option.filter_eq_some_iff.mp h).1

/-- **A pattern that is written without braces** has nothing but its characters. -/
theorem Pattern.Written.eq_map_char {p : Pattern} {cs : List Char} (h : p.Written cs)
    (hopening : '{' ∉ cs) (hclosing : '}' ∉ cs) : p = cs.map .char := by
  induction h with
  | nil => rfl
  | char hbrace h ih =>
      rw [List.mem_cons, not_or] at hopening hclosing
      rw [List.map_cons, ih hopening.2 hclosing.2]
  | doubled hb h ih => rcases hb with rfl | rfl <;> simp at hopening hclosing
  | capture => simp at hopening
  | rest => simp at hopening

/-- **A pattern of characters fits the path that it is**, and no other. -/
theorem Pattern.fits_map_char_iff {cs path : List Char} {κ : Captures} :
    Fits (cs.map .char) path κ ↔ path = cs ∧ κ = [] := by
  induction cs generalizing path with
  | nil =>
      constructor
      · intro h
        cases h
        exact ⟨rfl, rfl⟩
      · rintro ⟨rfl, rfl⟩
        exact .nil
  | cons c cs ih =>
      constructor
      · intro h
        cases h with
        | char h =>
            obtain ⟨rfl, rfl⟩ := ih.mp h
            exact ⟨rfl, rfl⟩
      · rintro ⟨rfl, rfl⟩
        exact .char (ih.mpr ⟨rfl, rfl⟩)

/-- **Nothing precedes a pattern of characters.** -/
theorem Pattern.not_precedes_map_char (p : Pattern) (cs : List Char) :
    ¬ p.Precedes (cs.map .char) := by
  induction cs generalizing p with
  | nil => nofun
  | cons c cs ih =>
      intro h
      cases h with
      | char h => exact ih _ h

/-- A route whose path has no braces fits that path, and no other. -/
theorem Route.fits_iff_of_literal {α : Type} {route : Route α} {p : Pattern}
    (hparse : Pattern.parse route.path = some p) (hopening : '{' ∉ route.path.toList)
    (hclosing : '}' ∉ route.path.toList) {path : String} {κ : Captures} :
    route.Fits path κ ↔ path = route.path ∧ κ = [] := by
  have hp := (Pattern.written_of_parse hparse).eq_map_char hopening hclosing
  unfold Fits
  simp only [hparse, Option.some.injEq, exists_eq_left', hp, Pattern.fits_map_char_iff,
    String.toList_inj]

end Http

/-! ## §3. Routes that are passed by. -/

namespace Server

/-- **Routes that do not fit its path do not matter to how a request ends.** -/
theorem ends_of_ends_append {own routes : List (Route Handler)} {q : Request}
    {ends : Outcome × Option String} (hno : ∀ route ∈ own, ∀ κ, ¬ route.Fits q.path κ)
    (h : Ends (own ++ routes) q ends) : Ends routes q ends := by
  cases h with
  | unmatched hnone =>
      exact .unmatched fun route hroute => hnone route (List.mem_append_right _ hroute)
  | unserved hleads hunserved =>
      rw [endpointAt_append_of_fits hno hleads.fits]
      exact .unserved (leads_of_leads_append hno hleads) fun other hother =>
        hunserved other (List.mem_append_right _ hother)
  | handled hleads hhandler =>
      rw [endpointAt_append_of_fits hno hleads.fits] at hhandler
      exact .handled (leads_of_leads_append hno hleads) hhandler

/-- **Two servers reply alike** to a request whose path the routes that one of them has more do not
fit. -/
theorem reply_eq_of_not_fits {own routes : List (Route Handler)} {s s' : Server}
    (h : Registers (own ++ routes) s.routes) (h' : Registers routes s'.routes)
    (hexpose : s.exposeInternalMessages = s'.exposeInternalMessages) {q : Request}
    (hno : ∀ route ∈ own, ∀ κ, ¬ route.Fits q.path κ) : s.reply q = s'.reply q := by
  have hends : s'.dispatch q = s.dispatch q :=
    (dispatch_eq_iff_ends h').mpr (ends_of_ends_append hno ((dispatch_eq_iff_ends h).mp rfl))
  rw [reply_eq_settle, reply_eq_settle, hends, hexpose]

end Server

/-! ## §4. The health endpoint. -/

/-- The same settings with the health endpoint disabled. -/
def Config.withoutHealth (c : Config) : Config :=
  { c with server := { c.server with health := { c.server.health with enabled := false } } }

namespace Server

variable {c : Config} {routes : List (Route Handler)} {s : Server} {path : String}

/-- The route of the health endpoint. -/
def healthRoute (path : String) : Route Handler := ⟨path, .on "GET" health⟩

theorem ownRoutes_of_enabled (henabled : c.server.health.enabled = true) :
    ownRoutes c = [healthRoute c.server.health.path] := by
  rw [ownRoutes, if_pos henabled]
  rfl

/-- **The health endpoint answers `GET` and `HEAD` at its path**, among whatever else is answered
there, unless that is `HEAD` itself. -/
theorem handler?_health {method : String} (hmethod : method = "GET" ∨ method = "HEAD")
    (hhead : ∀ route ∈ routes, ∀ handler, ("HEAD", handler) ∉ route.endpoint.methods) :
    (endpointAt (healthRoute path :: routes) path).handler? method = some health := by
  have hmethods : (endpointAt (healthRoute path :: routes) path).methods
      = ("GET", health) :: (endpointAt routes path).methods := by
    simp [endpointAt, routesAt, healthRoute, Endpoint.on]
  unfold Endpoint.handler?
  rw [hmethods]
  rcases hmethod with rfl | rfl
  · rfl
  · have hnone : (endpointAt routes path).methods.lookup "HEAD" = none := by
      rw [lookup_eq_none_iff]
      intro handler hmem
      obtain ⟨route, hroute, hmem⟩ := List.mem_flatMap.mp hmem
      exact hhead route (mem_routesAt.mp hroute).1 handler hmem
    have hskipped : (("GET", health) :: (endpointAt routes path).methods).lookup "HEAD" = none :=
      hnone
    rw [hskipped]
    rfl

/-- **The health route fits its path and no other**, if that has no braces. -/
theorem fits_healthRoute_iff (h : Registers (healthRoute path :: routes) s.routes)
    (hopening : '{' ∉ path.toList) (hclosing : '}' ∉ path.toList) {requested : String}
    {κ : Captures} : (healthRoute path).Fits requested κ ↔ requested = path ∧ κ = [] := by
  obtain ⟨r, hr, hpath⟩ := h.registered (healthRoute path) List.mem_cons_self
  exact Route.fits_iff_of_literal (hpath ▸ h.pattern r hr) hopening hclosing

/-- **The health path leads to the health endpoint**, as nothing precedes a path without braces. -/
theorem leads_healthRoute (h : Registers (healthRoute path :: routes) s.routes)
    (hopening : '{' ∉ path.toList) (hclosing : '}' ∉ path.toList) :
    Leads (healthRoute path :: routes) path (healthRoute path) [] := by
  refine ⟨List.mem_cons_self, (fits_healthRoute_iff h hopening hclosing).mpr ⟨rfl, rfl⟩, ?_⟩
  intro other _ κ _ p q _ hq
  rw [(Pattern.written_of_parse hq).eq_map_char hopening hclosing]
  exact Pattern.not_precedes_map_char p path.toList

theorem exists_withRoutes {registered : List (Registered Handler)}
    (h : registerAll [] (ownRoutes c ++ routes) = .ok registered) :
    ∃ s, withRoutes c routes = .ok s :=
  ⟨_, Template.bind_eq_ok_iff.mpr ⟨registered, h, rfl⟩⟩

/-- **The health endpoint concerns its own path only.**  If its path has no braces, every request
for another path is replied to as without it; and on its path `GET` and `HEAD` are answered, and
nothing is logged or counted, if no route answers `HEAD` itself. -/
theorem reply_withoutHealth {s' : Server} (henabled : c.server.health.enabled = true)
    (hopening : '{' ∉ c.server.health.path.toList) (hclosing : '}' ∉ c.server.health.path.toList)
    (h : withRoutes c routes = .ok s) (h' : withRoutes c.withoutHealth routes = .ok s') :
    (∀ q : Request, q.path ≠ c.server.health.path → s.reply q = s'.reply q)
    ∧ ((∀ route ∈ routes, ∀ handler, ("HEAD", handler) ∉ route.endpoint.methods) →
      ∀ q : Request, q.path = c.server.health.path → q.method = "GET" ∨ q.method = "HEAD" →
        s.reply q = ⟨finish q.method none (.json 200 healthText), [], []⟩) := by
  obtain ⟨hregisters, hexpose⟩ := registers_of_withRoutes h
  obtain ⟨hregisters', hexpose'⟩ := registers_of_withRoutes h'
  rw [ownRoutes_of_enabled henabled] at hregisters
  refine ⟨fun q hpath => ?_, fun hhead q hpath hmethod => ?_⟩
  · refine reply_eq_of_not_fits hregisters hregisters' (hexpose.trans hexpose'.symm) ?_
    intro route hroute κ hfits
    rw [List.mem_singleton.mp hroute] at hfits
    exact hpath ((fits_healthRoute_iff hregisters hopening hclosing).mp hfits).1
  · have hleads : Leads (healthRoute c.server.health.path :: routes) q.path
        (healthRoute c.server.health.path) [] := by
      rw [hpath]
      exact leads_healthRoute hregisters hopening hclosing
    rw [reply_eq_settle, (dispatch_eq_iff_ends hregisters).mpr
      (.handled hleads (handler?_health hmethod hhead))]
    rfl

end Server

/-! ## §5. The sample service. -/

namespace Sample

/-- No route of the service answers `HEAD` itself. -/
theorem head_not_mem_routes :
    ∀ route ∈ routes, ∀ handler, ("HEAD", handler) ∉ route.endpoint.methods := by
  intro route hroute
  rw [← lookup_eq_none_iff, ← Option.isNone_iff_eq_none]
  revert route
  decide

/-- **At the sample service the health endpoint concerns its own path only**: wherever that lies,
the service can be built without it, and replies to a request for any other path alike.  On its
path `GET` and `HEAD` are answered with success, and no failure is logged or counted. -/
theorem health_concerns_its_path_only {c : Config} {s : Server}
    (henabled : c.server.health.enabled = true)
    (hliteral : '{' ∉ c.server.health.path.toList ∧ '}' ∉ c.server.health.path.toList)
    (h : withRoutes c routes = .ok s) :
    ∃ s', withRoutes c.withoutHealth routes = .ok s'
      ∧ (∀ q : Request, q.path ≠ c.server.health.path → s.reply q = s'.reply q)
      ∧ ∀ q : Request, q.path = c.server.health.path → q.method = "GET" ∨ q.method = "HEAD" →
        (s.reply q).response.status = 200 ∧ (s.reply q).events = []
          ∧ (s.reply q).increments = [] := by
  have hregistered : (registerAll [] routes).toOption.map (fun _ => ()) = some () := by
    decide +kernel
  obtain ⟨registered, hroutes, -⟩ := exists_eq_ok_of_map_toOption hregistered
  obtain ⟨s', h'⟩ := exists_withRoutes (show registerAll [] (ownRoutes c.withoutHealth ++ routes)
    = .ok registered from hroutes)
  obtain ⟨hothers, hown⟩ := reply_withoutHealth henabled hliteral.1 hliteral.2 h h'
  refine ⟨s', h', hothers, fun q hpath hmethod => ?_⟩
  rw [hown head_not_mem_routes q hpath hmethod]
  exact ⟨finish_status _ _ _, rfl, rfl⟩

/-- A health path that is also the path of a row: the row is not found without the endpoint, and
the next one is not found with it either. -/
theorem health_concerns_its_path_only_row :
    ∃ c s s', Config.parse ⟨[]⟩ "[server.health]\npath = \"/rows/7\"" = .ok c
      ∧ withRoutes c routes = .ok s ∧ withRoutes c.withoutHealth routes = .ok s'
      ∧ (s.reply (requestOf "GET" "/rows/7")).response.status = 200
      ∧ (s'.reply (requestOf "GET" "/rows/7")).response.status = 404
      ∧ s.reply (requestOf "GET" "/rows/8") = s'.reply (requestOf "GET" "/rows/8")
      ∧ (s.reply (requestOf "GET" "/rows/8")).response.status = 404 := by
  have hread : (Config.parse ⟨[]⟩ "[server.health]\npath = \"/rows/7\"").toOption.map
        (fun c => ((c.server.health.enabled, c.server.health.path),
          (withRoutes c routes).toOption.isSome,
          (withRoutes c.withoutHealth routes).toOption.map fun s' =>
            ((s'.reply (requestOf "GET" "/rows/7")).response.status,
              (s'.reply (requestOf "GET" "/rows/8")).response.status)))
      = some ((true, "/rows/7"), true, some (404, 404)) := by
    decide +kernel
  obtain ⟨c, hparse, hends⟩ := exists_eq_ok_of_map_toOption hread
  obtain ⟨hhealth, hends⟩ := Prod.mk.inj hends
  obtain ⟨henabled, hpath⟩ := Prod.mk.inj hhealth
  obtain ⟨hbuilt, hwithout⟩ := Prod.mk.inj hends
  obtain ⟨s, hs⟩ : ∃ s, withRoutes c routes = .ok s := by
    cases hs : withRoutes c routes with
    | error fault =>
        rw [hs] at hbuilt
        cases hbuilt
    | ok s => exact ⟨s, rfl⟩
  have hliteral : '{' ∉ c.server.health.path.toList ∧ '}' ∉ c.server.health.path.toList := by
    rw [hpath]
    decide
  obtain ⟨s', hs', hothers, hown⟩ := health_concerns_its_path_only henabled hliteral hs
  rw [hs'] at hwithout
  obtain ⟨hseven, height⟩ := Prod.mk.inj (Option.some.inj hwithout)
  have hsame : s.reply (requestOf "GET" "/rows/8") = s'.reply (requestOf "GET" "/rows/8") := by
    refine hothers _ ?_
    rw [hpath]
    decide
  refine ⟨c, s, s', hparse, hs, hs', (hown _ hpath.symm (.inl rfl)).1, hseven, hsame, ?_⟩
  rw [hsame]
  exact height

end Sample

end ErrorContract
