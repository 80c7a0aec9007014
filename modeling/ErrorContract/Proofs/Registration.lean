/-
  ErrorContract.Proofs.Registration
  ─────────────────────────────────
  **WHAT A LIST OF ROUTES REGISTERS.**

  Routes are registered one after the other, and those with the same path are
  merged.  What comes of it can be said of the routes as they were given: for
  every path among them there is one registered route, with the pattern that
  the path is read as, and with all that the routes at this path answer
  (`endpointAt`).  `registers_register` is what one more route does to that,
  `registers_registerAll` the same for all of them.

  Main statement `findRoute_eq_some_iff_leads`: who is found for a path is who
  answers at the path of a given route that leads there.
-/
import ErrorContract.Proofs.Expansion
import ErrorContract.Proofs.Matching

namespace ErrorContract.Http

/-! ## §1. Methods that are served. -/

section Serving

variable {α : Type}

/-- **An endpoint serves a method**, in its own right, as `GET` for `HEAD`, or as any other. -/
inductive Endpoint.Serves (e : Endpoint α) : String → Prop where
  | method {method : String} {handler : α} (h : (method, handler) ∈ e.methods) : Serves e method
  | head {handler : α} (h : ("GET", handler) ∈ e.methods) : Serves e "HEAD"
  | other {method : String} {handler : α} (h : e.others = some handler) : Serves e method

theorem lookup_eq_none_iff {methods : List (String × α)} {method : String} :
    methods.lookup method = none ↔ ∀ handler, (method, handler) ∉ methods := by
  rw [List.lookup_eq_none_iff]
  constructor
  · intro h handler hmem
    exact absurd rfl (bne_iff_ne.mp (h _ hmem))
  · rintro h ⟨other, handler⟩ hmem
    refine bne_iff_ne.mpr fun hsame => h handler ?_
    rwa [show method = other from hsame]

/-- **Nobody answers a method exactly if it is not served.** -/
theorem Endpoint.handler?_eq_none_iff {e : Endpoint α} {method : String} :
    e.handler? method = none ↔ ¬ e.Serves method := by
  unfold handler?
  rw [Option.or_eq_none_iff, Option.or_eq_none_iff, lookup_eq_none_iff]
  constructor
  · rintro ⟨hmethod, hhead, hother⟩ hserves
    cases hserves with
    | method h => exact hmethod _ h
    | head h =>
        rw [if_pos rfl, lookup_eq_none_iff] at hhead
        exact hhead _ h
    | other h =>
        rw [hother] at h
        cases h
  · intro hno
    refine ⟨fun handler h => hno (.method h), ?_, ?_⟩
    · split
      · next hhead =>
          subst hhead
          exact lookup_eq_none_iff.mpr fun handler h => hno (.head h)
      · rfl
    · exact Option.eq_none_iff_forall_ne_some.mpr fun handler h => hno (.other h)

end Serving

/-! ## §2. What is answered at a path. -/

section Registering

variable {α : Type} {all : List (Route α)} {routes : List (Registered α)}

/-- The routes with a path. -/
def routesAt (all : List (Route α)) (path : String) : List (Route α) :=
  all.filter fun route => route.path == path

/-- **Who answers at a path among routes**: whoever answers at one of those that have it. -/
def endpointAt (all : List (Route α)) (path : String) : Endpoint α :=
  ⟨(routesAt all path).flatMap fun route => route.endpoint.methods,
    (routesAt all path).findSome? fun route => route.endpoint.others⟩

theorem mem_routesAt {path : String} {route : Route α} :
    route ∈ routesAt all path ↔ route ∈ all ∧ route.path = path := by
  simp [routesAt]

/-- **A method is served at a path if one of the routes that have it serves it.** -/
theorem endpointAt_serves_iff {path method : String} :
    (endpointAt all path).Serves method
      ↔ ∃ route ∈ all, route.path = path ∧ route.endpoint.Serves method := by
  have hmethods : ∀ method handler, (method, handler) ∈ (endpointAt all path).methods
      ↔ ∃ route ∈ all, route.path = path ∧ (method, handler) ∈ route.endpoint.methods := by
    intro method handler
    simp only [endpointAt, List.mem_flatMap, mem_routesAt, and_assoc]
  constructor
  · intro h
    cases h with
    | method h =>
        obtain ⟨route, hroute, hpath, hmem⟩ := (hmethods _ _).mp h
        exact ⟨route, hroute, hpath, .method hmem⟩
    | head h =>
        obtain ⟨route, hroute, hpath, hmem⟩ := (hmethods _ _).mp h
        exact ⟨route, hroute, hpath, .head hmem⟩
    | other h =>
        obtain ⟨route, hroute, hothers⟩ := List.exists_of_findSome?_eq_some h
        obtain ⟨hmem, hpath⟩ := mem_routesAt.mp hroute
        exact ⟨route, hmem, hpath, .other hothers⟩
  · rintro ⟨route, hroute, hpath, hserves⟩
    cases hserves with
    | method h => exact .method ((hmethods _ _).mpr ⟨route, hroute, hpath, h⟩)
    | head h => exact .head ((hmethods _ _).mpr ⟨route, hroute, hpath, h⟩)
    | other h =>
        have hsome : ((routesAt all path).findSome? fun route => route.endpoint.others).isSome :=
          List.findSome?_isSome_iff.mpr ⟨route, mem_routesAt.mpr ⟨hroute, hpath⟩, by rw [h]; rfl⟩
        obtain ⟨other, hother⟩ := Option.isSome_iff_exists.mp hsome
        exact .other hother

/-- Nothing but the routes that have a path matters to who answers there. -/
theorem endpointAt_congr {all all' : List (Route α)} {path : String}
    (h : routesAt all path = routesAt all' path) : endpointAt all path = endpointAt all' path := by
  rw [endpointAt, h, endpointAt]

theorem endpointAt_append_of_ne (all : List (Route α)) {route : Route α} {path : String}
    (h : route.path ≠ path) : endpointAt (all ++ [route]) path = endpointAt all path :=
  endpointAt_congr (by simp [routesAt, h])

/-- One more route at a path adds what it answers to what is answered there. -/
theorem endpointAt_append_self (all : List (Route α)) (route : Route α) :
    endpointAt (all ++ [route]) route.path
      = ⟨(endpointAt all route.path).methods ++ route.endpoint.methods,
        (endpointAt all route.path).others.or route.endpoint.others⟩ := by
  have hroutes : routesAt (all ++ [route]) route.path = routesAt all route.path ++ [route] := by
    simp [routesAt]
  rw [endpointAt, hroutes, endpointAt]
  simp [List.findSome?_append]

theorem routesAt_eq_nil {path : String} (h : ∀ route ∈ all, route.path ≠ path) :
    routesAt all path = [] := by
  rw [List.eq_nil_iff_forall_not_mem]
  intro route hroute
  obtain ⟨hmem, hpath⟩ := mem_routesAt.mp hroute
  exact h route hmem hpath

theorem endpointAt_of_forall_ne {path : String} (h : ∀ route ∈ all, route.path ≠ path) :
    endpointAt all path = ⟨[], none⟩ := by
  rw [endpointAt, routesAt_eq_nil h]
  rfl

/-! ## §3. Registering routes. -/

/-- **What is registered of routes.** -/
structure Registers (all : List (Route α)) (routes : List (Registered α)) : Prop where
  pattern : ∀ r ∈ routes, Pattern.parse r.path = some r.pattern
  endpoint : ∀ r ∈ routes, r.endpoint = endpointAt all r.path
  route : ∀ r ∈ routes, ∃ route ∈ all, route.path = r.path
  registered : ∀ route ∈ all, ∃ r ∈ routes, r.path = route.path
  apart : Apart routes

theorem Endpoint.merge_eq_some {a b both : Endpoint α} (h : a.merge b = some both) :
    both = ⟨a.methods ++ b.methods, a.others.or b.others⟩ := by
  unfold merge at h
  split at h
  · cases h
  · split at h <;> cases h
    rfl

theorem mergeAt_eq_none_iff {path : String} {endpoint : Endpoint α} :
    mergeAt path endpoint routes = none ↔ ∀ r ∈ routes, r.path ≠ path := by
  induction routes with
  | nil => simp [mergeAt]
  | cons r routes ih =>
      unfold mergeAt
      by_cases hpath : r.path = path
      · rw [if_pos (beq_iff_eq.mpr hpath)]
        cases r.endpoint.merge endpoint <;> simp [hpath]
      · rw [if_neg (mt beq_iff_eq.mp hpath), Option.map_eq_none_iff, ih]
        simp [hpath]

/-- **Merging changes the endpoint at one path** and nothing else. -/
theorem exists_of_mergeAt {path : String} {endpoint : Endpoint α} {result : List (Registered α)}
    (h : mergeAt path endpoint routes = some (.ok result)) :
    ∃ before r after both, routes = before ++ r :: after ∧ r.path = path
      ∧ r.endpoint.merge endpoint = some both
      ∧ result = before ++ { r with endpoint := both } :: after := by
  induction routes generalizing result with
  | nil => cases h
  | cons r routes ih =>
      unfold mergeAt at h
      by_cases hpath : r.path = path
      · rw [if_pos (beq_iff_eq.mpr hpath)] at h
        cases hmerge : r.endpoint.merge endpoint with
        | none =>
            rw [hmerge] at h
            cases h
        | some both =>
            rw [hmerge] at h
            cases h
            exact ⟨[], r, routes, both, rfl, hpath, hmerge, rfl⟩
      · rw [if_neg (mt beq_iff_eq.mp hpath)] at h
        obtain ⟨merged, hmerged, hresult⟩ := Option.map_eq_some_iff.mp h
        cases merged with
        | error fault => cases hresult
        | ok rest =>
            cases hresult
            obtain ⟨before, r', after, both, rfl, hr', hboth, rfl⟩ := ih hmerged
            exact ⟨r :: before, r', after, both, rfl, hr', hboth, rfl⟩

/-- A pattern conflicts with itself. -/
theorem Pattern.conflict_self (p : Pattern) : p.conflict p = true := by
  induction p with
  | nil => rfl
  | cons part p ih => cases part <;> simp [conflict, ih]

/-- **No path is registered twice**, or its pattern would conflict with itself. -/
theorem Registers.path_ne {before after : List (Registered α)} {r : Registered α}
    (h : Registers all (before ++ r :: after)) :
    (∀ other ∈ before, other.path ≠ r.path) ∧ ∀ other ∈ after, other.path ≠ r.path := by
  have hne : ∀ other ∈ before ++ r :: after,
      other.pattern.conflict r.pattern = false → other.path ≠ r.path := by
    intro other hother hconflict hpath
    have hparse := h.pattern other hother
    rw [hpath, h.pattern r (by simp)] at hparse
    rw [Option.some.inj hparse, Pattern.conflict_self] at hconflict
    cases hconflict
  obtain ⟨-, hafter, hbetween⟩ := List.pairwise_append.mp h.apart
  refine ⟨fun other hother => ?_, fun other hother => ?_⟩
  · exact hne other (by simp [hother]) (hbetween other hother r List.mem_cons_self)
  · refine hne other (by simp [hother]) ?_
    rw [Pattern.conflict_comm]
    exact (List.pairwise_cons.mp hafter).1 other hother

/-- Whether routes conflict depends on their patterns alone. -/
theorem apart_iff_map : Apart routes
    ↔ (routes.map Registered.pattern).Pairwise fun p q => p.conflict q = false := by
  rw [Apart, List.pairwise_map]

/-- A route whose path is registered is merged with what is registered there. -/
theorem registers_merged {before after : List (Registered α)} {r : Registered α} {route : Route α}
    {both : Endpoint α} (h : Registers all (before ++ r :: after)) (hpath : r.path = route.path)
    (hboth : r.endpoint.merge route.endpoint = some both) :
    Registers (all ++ [route]) (before ++ { r with endpoint := both } :: after) := by
  obtain ⟨hbefore, hafter⟩ := h.path_ne
  have hr := h.endpoint r (by simp)
  -- Elsewhere the routes are what they were before.
  have hother : ∀ other ∈ before ++ r :: after, other.path ≠ r.path →
      other.endpoint = endpointAt (all ++ [route]) other.path := by
    intro other hother hne
    rw [endpointAt_append_of_ne all (hpath ▸ Ne.symm hne)]
    exact h.endpoint other hother
  refine ⟨?_, ?_, ?_, ?_, ?_⟩
  · have hpattern := h.pattern
    simp only [List.forall_mem_append, List.forall_mem_cons] at hpattern ⊢
    exact hpattern
  · simp only [List.forall_mem_append, List.forall_mem_cons]
    refine ⟨fun other hmem => ?_, ?_, fun other hmem => ?_⟩
    · exact hother other (by simp [hmem]) (hbefore other hmem)
    · rw [Endpoint.merge_eq_some hboth, hr, hpath, endpointAt_append_self]
    · exact hother other (by simp [hmem]) (hafter other hmem)
  · have hroute : ∀ other ∈ before ++ r :: after, ∃ x ∈ all ++ [route], x.path = other.path := by
      intro other hmem
      obtain ⟨x, hx, hpath⟩ := h.route other hmem
      exact ⟨x, List.mem_append_left _ hx, hpath⟩
    simp only [List.forall_mem_append, List.forall_mem_cons] at hroute ⊢
    exact hroute
  · intro x hx
    have hregistered : ∃ other ∈ before ++ r :: after, other.path = x.path := by
      rcases List.mem_append.mp hx with hx | hx
      · exact h.registered x hx
      · rw [List.mem_singleton.mp hx]
        exact ⟨r, by simp, hpath⟩
    obtain ⟨other, hmem, hsame⟩ := hregistered
    rcases List.mem_append.mp hmem with hmem | hmem
    · exact ⟨other, by simp [hmem], hsame⟩
    · rcases List.mem_cons.mp hmem with hmem | hmem
      · exact ⟨{ r with endpoint := both }, by simp, hmem ▸ hsame⟩
      · exact ⟨other, by simp [hmem], hsame⟩
  · have hapart := h.apart
    rw [apart_iff_map] at hapart ⊢
    rwa [List.map_append, List.map_cons] at hapart ⊢

/-- A route whose path is not registered is registered beside the others. -/
theorem registers_added (h : Registers all routes) {route : Route α} {p : Pattern}
    (hnew : ∀ r ∈ routes, r.path ≠ route.path) (hparse : Pattern.parse route.path = some p)
    (hapart : ∀ r ∈ routes, r.pattern.conflict p = false) :
    Registers (all ++ [route]) (routes ++ [⟨route.path, p, route.endpoint⟩]) := by
  -- The path is new among the routes that were given, too.
  have hunknown : ∀ x ∈ all, x.path ≠ route.path := by
    intro x hx hpath
    obtain ⟨r, hr, hsame⟩ := h.registered x hx
    exact hnew r hr (hsame.trans hpath)
  refine ⟨?_, ?_, ?_, ?_, ?_⟩
  · simpa only [List.forall_mem_append, List.forall_mem_singleton] using ⟨h.pattern, hparse⟩
  · simp only [List.forall_mem_append, List.forall_mem_singleton]
    refine ⟨fun r hr => ?_, ?_⟩
    · rw [endpointAt_append_of_ne all (Ne.symm (hnew r hr))]
      exact h.endpoint r hr
    · rw [endpointAt_append_self, endpointAt_of_forall_ne hunknown]
      rfl
  · simp only [List.forall_mem_append, List.forall_mem_singleton]
    refine ⟨fun r hr => ?_, route, by simp, rfl⟩
    obtain ⟨x, hx, hpath⟩ := h.route r hr
    exact ⟨x, List.mem_append_left _ hx, hpath⟩
  · simp only [List.forall_mem_append, List.forall_mem_singleton]
    refine ⟨fun x hx => ?_, _, List.mem_append_right _ List.mem_cons_self, rfl⟩
    obtain ⟨r, hr, hpath⟩ := h.registered x hx
    exact ⟨r, List.mem_append_left _ hr, hpath⟩
  · refine List.pairwise_append.mpr ⟨h.apart, List.pairwise_singleton _ _, ?_⟩
    intro r hr other hother
    rw [List.mem_singleton.mp hother]
    exact hapart r hr

/-- **One more route**: merged with those at its path, or registered beside them. -/
theorem registers_register (h : Registers all routes) {route : Route α}
    {result : List (Registered α)} (hresult : register routes route = .ok result) :
    Registers (all ++ [route]) result := by
  unfold register at hresult
  cases hmerge : mergeAt route.path route.endpoint routes with
  | some merged =>
      rw [hmerge] at hresult
      dsimp only at hresult
      subst hresult
      obtain ⟨before, r, after, both, rfl, hpath, hboth, rfl⟩ := exists_of_mergeAt hmerge
      exact registers_merged h hpath hboth
  | none =>
      rw [hmerge] at hresult
      dsimp only at hresult
      cases hparse : Pattern.parse route.path with
      | none =>
          rw [hparse] at hresult
          cases hresult
      | some p =>
          rw [hparse] at hresult
          dsimp only at hresult
          split at hresult
          · cases hresult
          · next hapart =>
              cases hresult
              refine registers_added h (mergeAt_eq_none_iff.mp hmerge) hparse fun r hr => ?_
              rw [List.any_eq_true, not_exists] at hapart
              exact Bool.eq_false_iff.mpr fun hconflict => hapart r ⟨hr, hconflict⟩

/-- **All routes**, one after the other. -/
theorem registers_registerAll (h : Registers all routes) {more : List (Route α)}
    {result : List (Registered α)} (hresult : registerAll routes more = .ok result) :
    Registers (all ++ more) result := by
  induction more generalizing all routes with
  | nil =>
      cases hresult
      rwa [List.append_nil]
  | cons route more ih =>
      obtain ⟨next, hnext, hmore⟩ := Template.bind_eq_ok_iff.mp hresult
      have hboth := ih (registers_register h hnext) hmore
      rwa [List.append_assoc] at hboth

/-- Where nothing is given nothing is registered. -/
theorem registers_nil : Registers ([] : List (Route α)) [] :=
  ⟨nofun, nofun, nofun, nofun, .nil⟩

/-! ## §4. Who is found. -/

/-- **A given route's pattern fits a path.** -/
def Route.Fits (route : Route α) (path : String) (κ : Captures) : Prop :=
  ∃ p, Pattern.parse route.path = some p ∧ p.Fits path.toList κ

/-- **A given route leads where a path is meant for**: it fits, and none of those that fit
precedes it. -/
structure Leads (all : List (Route α)) (path : String) (route : Route α) (κ : Captures) :
    Prop where
  mem : route ∈ all
  fits : route.Fits path κ
  first : ∀ other ∈ all, ∀ κ', other.Fits path κ' → ∀ p q, Pattern.parse other.path = some p →
    Pattern.parse route.path = some q → ¬ p.Precedes q

variable {path : String} {κ : Captures}

/-- A given route fits exactly if what is registered for it does. -/
theorem Registers.fits_iff (h : Registers all routes) {r : Registered α} (hr : r ∈ routes)
    {route : Route α} (hpath : r.path = route.path) :
    route.Fits path κ ↔ r.pattern.Fits path.toList κ := by
  have hparse : Pattern.parse route.path = some r.pattern := hpath ▸ h.pattern r hr
  constructor
  · rintro ⟨p, hp, hfits⟩
    cases hparse.symm.trans hp
    exact hfits
  · exact fun hfits => ⟨r.pattern, hparse, hfits⟩

/-- A given route leads to a path exactly if what is registered for it is the best. -/
theorem Registers.leads_iff (h : Registers all routes) {r : Registered α} (hr : r ∈ routes)
    {route : Route α} (hroute : route ∈ all) (hpath : r.path = route.path) :
    Leads all path route κ ↔ Best routes path r κ := by
  have hparse : Pattern.parse route.path = some r.pattern := hpath ▸ h.pattern r hr
  constructor
  · intro hleads
    refine ⟨hr, (h.fits_iff hr hpath).mp hleads.fits, fun r' hr' κ' hfits => ?_⟩
    obtain ⟨other, hother, hsame⟩ := h.route r' hr'
    exact hleads.first other hother κ' ((h.fits_iff hr' hsame.symm).mpr hfits) _ _
      (hsame ▸ h.pattern r' hr') hparse
  · intro hbest
    refine ⟨hroute, (h.fits_iff hr hpath).mpr hbest.fits, fun other hother κ' hfits p q hp hq => ?_⟩
    cases hparse.symm.trans hq
    obtain ⟨r', hr', hsame⟩ := h.registered other hother
    have hp' : Pattern.parse other.path = some r'.pattern := hsame ▸ h.pattern r' hr'
    cases hp'.symm.trans hp
    exact hbest.first r' hr' κ' ((h.fits_iff hr' hsame).mp hfits)

/-- **Nobody is found for a path exactly if no given route fits it.** -/
theorem findRoute_eq_none_iff_fits (h : Registers all routes) :
    findRoute routes path = none ↔ ∀ route ∈ all, ∀ κ, ¬ route.Fits path κ := by
  rw [findRoute_eq_none_iff]
  constructor
  · intro hnone route hroute κ hfits
    obtain ⟨r, hr, hpath⟩ := h.registered route hroute
    exact hnone r hr κ ((h.fits_iff hr hpath).mp hfits)
  · intro hnone r hr κ hfits
    obtain ⟨route, hroute, hpath⟩ := h.route r hr
    exact hnone route hroute κ ((h.fits_iff hr hpath.symm).mpr hfits)

/-- **Who is found for a path is who answers at the path of a given route that leads there.** -/
theorem findRoute_eq_some_iff_leads (h : Registers all routes) {endpoint : Endpoint α} :
    findRoute routes path = some (endpoint, κ)
      ↔ ∃ route, Leads all path route κ ∧ endpoint = endpointAt all route.path := by
  rw [findRoute_eq_some_iff h.apart]
  constructor
  · rintro ⟨r, hbest, rfl⟩
    obtain ⟨route, hroute, hpath⟩ := h.route r hbest.mem
    refine ⟨route, (h.leads_iff hbest.mem hroute hpath.symm).mpr hbest, ?_⟩
    rw [hpath]
    exact h.endpoint r hbest.mem
  · rintro ⟨route, hleads, rfl⟩
    obtain ⟨r, hr, hpath⟩ := h.registered route hleads.mem
    refine ⟨r, (h.leads_iff hr hleads.mem hpath).mp hleads, ?_⟩
    rw [← hpath]
    exact h.endpoint r hr

/-- **A path that a given route fits leads to one.** -/
theorem Registers.exists_leads (h : Registers all routes) {route : Route α} (hroute : route ∈ all)
    (hfits : route.Fits path κ) : ∃ route κ, Leads all path route κ := by
  have hsome : findRoute routes path ≠ none := fun hnone =>
    (findRoute_eq_none_iff_fits h).mp hnone route hroute κ hfits
  obtain ⟨⟨endpoint, κ'⟩, hfound⟩ := Option.ne_none_iff_exists'.mp hsome
  obtain ⟨route', hleads, -⟩ := (findRoute_eq_some_iff_leads h).mp hfound
  exact ⟨route', κ', hleads⟩

end Registering

end ErrorContract.Http
