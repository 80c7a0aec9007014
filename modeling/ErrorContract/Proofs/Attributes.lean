/-
  ErrorContract.Proofs.Attributes
  ───────────────────────────────
  **WHAT THE COLLECTOR IS TOLD DOES NOT DEPEND ON ANY ORDER.**

  Three layers of attributes are put one over the other: what the exporting
  library says of itself, the name and version of the service, and what is
  configured.  Within a layer no two attributes have one name, so the order
  in which a layer is gone through does not matter; between layers the later
  one wins, name by name.

  Main statement `resource_by_precedence`.
-/
import ErrorContract.Proofs.Distinct
import ErrorContract.Proofs.Lookup
import ErrorContract.Telemetry.Resource

namespace ErrorContract.Telemetry

open ErrorContract

/-! ## §1. One layer over another. -/

section Attributes

variable {attributes more : Attributes} {name value : String}

theorem lookup_put (n : String) : (attributes.put name value).lookup n
    = if n = name then some value else attributes.lookup n := by
  induction attributes with
  | nil =>
      show List.lookup n [(name, value)] = _
      exact lookup_cons_eq name value
  | cons entry rest ih =>
      obtain ⟨m, v⟩ := entry
      rw [Attributes.put]
      by_cases hm : m = name
      · subst hm
        rw [if_pos rfl, lookup_cons_eq, lookup_cons_eq]
        by_cases h : n = m
        · simp only [h, if_true]
        · simp only [h, if_false]
      · rw [if_neg hm, lookup_cons_eq, lookup_cons_eq, ih]
        by_cases h : n = m
        · -- the attribute stays as it is
          subst h
          simp only [hm, if_true, if_false]
        · simp only [h, if_false]

/-- Only the name that is put can be new. -/
theorem mem_of_mem_put {n : String} (h : n ∈ (attributes.put name value).map Prod.fst) :
    n = name ∨ n ∈ attributes.map Prod.fst := by
  induction attributes with
  | nil => exact .inl (List.mem_singleton.mp h)
  | cons entry rest ih =>
      obtain ⟨m, v⟩ := entry
      rw [Attributes.put] at h
      by_cases hm : m = name
      · rw [if_pos hm] at h
        exact .inr h
      · rw [if_neg hm] at h
        rcases List.mem_cons.mp h with rfl | h
        · exact .inr List.mem_cons_self
        · exact (ih h).imp_right (List.mem_cons_of_mem _)

theorem nodup_put (h : (attributes.map Prod.fst).Nodup) :
    ((attributes.put name value).map Prod.fst).Nodup := by
  induction attributes with
  | nil => exact List.nodup_singleton name
  | cons entry rest ih =>
      obtain ⟨m, v⟩ := entry
      obtain ⟨hnew, hrest⟩ := List.nodup_cons.mp h
      rw [Attributes.put]
      by_cases hm : m = name
      · rw [if_pos hm]
        exact h
      · rw [if_neg hm]
        apply List.nodup_cons.mpr
        refine ⟨?_, ih hrest⟩
        intro hmem
        exact (mem_of_mem_put hmem).elim hm hnew

/-- However many attributes are put, no name is there twice. -/
theorem nodup_putAll (h : (attributes.map Prod.fst).Nodup) :
    ((attributes.putAll more).map Prod.fst).Nodup := by
  induction more generalizing attributes with
  | nil => exact h
  | cons entry rest ih =>
      show (((attributes.put entry.1 entry.2).putAll rest).map Prod.fst).Nodup
      exact ih (nodup_put h)

/-- **The last of the attributes that were put wins**, and what was there before stays where none
was. -/
theorem lookup_putAll (n : String) : (attributes.putAll more).lookup n
    = (more.reverse.lookup n).or (attributes.lookup n) := by
  induction more generalizing attributes with
  | nil => rfl
  | cons entry rest ih =>
      obtain ⟨m, v⟩ := entry
      show ((attributes.put m v).putAll rest).lookup n = _
      rw [ih, lookup_put, List.reverse_cons, List.lookup_append, Option.or_assoc]
      congr 1
      rw [lookup_cons_eq]
      by_cases h : n = m
      · simp only [h, if_true, Option.some_or]
      · simp only [h, if_false, List.lookup_nil, Option.none_or]

/-- One layer over another: each of its attributes wins, in whatever order they are put. -/
theorem lookup_putAll_of_nodup (h : (more.map Prod.fst).Nodup) (n : String) :
    (attributes.putAll more).lookup n = (more.lookup n).or (attributes.lookup n) := by
  rw [lookup_putAll, lookup_eq_of_perm h (List.reverse_perm more)]

end Attributes

/-! ## §2. The attributes of a service. -/

/-- What an attribute says that is not configured, if it is told at all. -/
def builtIn? (t : TelemetrySettings) (name : String) : Option String :=
  if name = serviceNameAttribute then some t.serviceName
  else if name = serviceVersionAttribute then some version
  else libraryAttributes.lookup name

/-- The name and version of the service are put over what the library says of itself. -/
theorem lookup_serviceAttributes (t : TelemetrySettings) (name : String) :
    (libraryAttributes.putAll (serviceAttributes t)).lookup name = builtIn? t name := by
  show ((libraryAttributes.put serviceNameAttribute t.serviceName).put serviceVersionAttribute
    version).lookup name = _
  rw [lookup_put, lookup_put]
  unfold builtIn?
  by_cases hversion : name = serviceVersionAttribute
  · subst hversion
    have hother : serviceVersionAttribute ≠ serviceNameAttribute := by decide
    rw [if_pos rfl, if_neg hother, if_pos rfl]
  · rw [if_neg hversion, if_neg hversion]

/-- However the configured attributes are ordered, no name is there twice. -/
theorem nodup_resource (t : TelemetrySettings) : ((resource t).map Prod.fst).Nodup := by
  have hlibrary : (libraryAttributes.map Prod.fst).Nodup := by decide
  exact nodup_putAll (nodup_putAll hlibrary)

/-- Of each name the collector is told what is configured for it, or else what it says
unconfigured. -/
theorem lookup_resource (t : TelemetrySettings) (h : (t.resourceAttributes.map Prod.fst).Nodup)
    (name : String) : (resource t).lookup name
      = (t.resourceAttributes.lookup name).or (builtIn? t name) := by
  show ((libraryAttributes.putAll (serviceAttributes t)).putAll t.resourceAttributes).lookup name
    = _
  rw [lookup_putAll_of_nodup h, lookup_serviceAttributes]

/-- **Attributes are well defined, and what is configured wins.**  The configured attributes have
distinct names.  In whatever order they are gone through, the collector is told the same: no name
twice, of each name what is configured for it, or else what it says unconfigured, and no other name
at all. -/
theorem resource_by_precedence :
    (∀ env text c t, Config.parse env text = .ok c → c.telemetry = some t →
      (t.resourceAttributes.map Prod.fst).Nodup)
    ∧ ∀ (t : TelemetrySettings) (order : Attributes),
      (t.resourceAttributes.map Prod.fst).Nodup → order.Perm t.resourceAttributes →
        ((resource { t with resourceAttributes := order }).map Prod.fst).Nodup
        ∧ (resource { t with resourceAttributes := order }).Perm (resource t)
        ∧ ∀ name, (resource { t with resourceAttributes := order }).lookup name
          = (t.resourceAttributes.lookup name).or (builtIn? t name) := by
  constructor
  · intro env text c t hparse htelemetry
    exact Schema.nodup_resourceAttributes hparse htelemetry
  · intro t order hdistinct horder
    have hdistinct' : (order.map Prod.fst).Nodup :=
      (horder.map Prod.fst).nodup_iff.mpr hdistinct
    -- What is not configured does not depend on the order of what is.
    have hlookup : ∀ name, (resource { t with resourceAttributes := order }).lookup name
        = (t.resourceAttributes.lookup name).or (builtIn? t name) := by
      intro name
      rw [lookup_resource _ hdistinct', lookup_eq_of_perm hdistinct horder]
      rfl
    -- Two lists of distinct names in which every name says the same are the same in some order.
    refine ⟨nodup_resource _, ?_, hlookup⟩
    apply perm_of_lookup_eq (nodup_resource _) (nodup_resource t)
    intro name
    rw [hlookup, lookup_resource t hdistinct]

/-- A service without a name, whose attributes give the library another one. -/
def renamedLibrary : String :=
  "[telemetry]\nservice_name = \"\"\n[telemetry.resource_attributes]\n"
    ++ "\"telemetry.sdk.name\" = \"own\"\n\"service.version\" = \"2\"\n"

theorem resource_by_precedence_renamed :
    ∃ c t, Config.parse ⟨[]⟩ renamedLibrary = .ok c ∧ c.telemetry = some t
      ∧ t.resourceAttributes = [("service.version", "2"), ("telemetry.sdk.name", "own")]
      ∧ (resource { t with resourceAttributes := t.resourceAttributes.reverse }).Perm (resource t)
      ∧ (resource { t with resourceAttributes := t.resourceAttributes.reverse }).lookup
          "telemetry.sdk.name" = some "own"
      ∧ (resource { t with resourceAttributes := t.resourceAttributes.reverse }).lookup
          "service.name" = some "" := by
  have hread : (Config.parse ⟨[]⟩ renamedLibrary).toOption.map
      (fun c => c.telemetry.map fun t => (t.serviceName, t.resourceAttributes))
        = some (some ("", [("service.version", "2"), ("telemetry.sdk.name", "own")])) := by
    decide +kernel
  obtain ⟨c, hparse, hsettings⟩ := Server.exists_eq_ok_of_map_toOption hread
  obtain ⟨t, htelemetry, hsettings⟩ := Option.map_eq_some_iff.mp hsettings
  obtain ⟨hname, hattributes⟩ := Prod.mk.inj hsettings
  have hdistinct := resource_by_precedence.1 ⟨[]⟩ renamedLibrary c t hparse htelemetry
  obtain ⟨-, hperm, hlookup⟩ := resource_by_precedence.2 t _ hdistinct (List.reverse_perm _)
  refine ⟨c, t, hparse, htelemetry, hattributes, hperm, ?_, ?_⟩
  · rw [hlookup, hattributes]
    rfl
  · rw [hlookup, hattributes, builtIn?, hname]
    rfl

end ErrorContract.Telemetry
