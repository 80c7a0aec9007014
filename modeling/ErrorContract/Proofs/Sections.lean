/-
  ErrorContract.Proofs.Sections
  ─────────────────────────────
  **THE SECTIONS OF A CONFIGURATION, KIND BY KIND.**

  There are eight kinds of section, and `Kind.fields` and `Kind.nested` say of
  each what it may hold and which of that are sections again.  All of them
  are read alike: what stands in a section is read one after the other into
  a draft, and the draft is finished.  `Stands document k v` says that `v`
  stands in the document where a section of kind `k` is read, however deep
  inside other sections, and whether these are tables or arrays.

  Main statements: `Kind.read_nested`, a section inside another is read by
  its own kind, and `Stands.accepts`, a document is accepted only if every
  section in it is.
-/
import Mathlib.Data.List.Nodup
import ErrorContract.Config.Schema
import ErrorContract.Proofs.Expansion

namespace ErrorContract.Schema

open ErrorContract

/-! ## §1. Kinds. -/

/-- The kinds of section. -/
inductive Kind where
  | config | server | health | errors | telemetry | exporter | tracing | metrics
  deriving Repr, DecidableEq

namespace Kind

/-- **What a section may hold**, in the order of its settings. -/
def fields : Kind → List String
  | .config => ["server", "errors", "telemetry"]
  | .server => ["listen_address", "health"]
  | .health => ["enabled", "path"]
  | .errors => ["expose_internal_messages"]
  | .telemetry => ["service_name", "resource_attributes", "exporter", "tracing", "metrics"]
  | .exporter => ["endpoint", "protocol", "export_interval"]
  | .tracing => ["sampling_rate", "parent_based", "exporter"]
  | .metrics => ["exporter"]

/-- **What of it is a section again**, and of which kind. -/
def nested : Kind → List (String × Kind)
  | .config => [("server", .server), ("errors", .errors), ("telemetry", .telemetry)]
  | .server => [("health", .health)]
  | .telemetry => [("exporter", .exporter), ("tracing", .tracing), ("metrics", .metrics)]
  | .tracing | .metrics => [("exporter", .exporter)]
  | .health | .errors | .exporter => []

/-- What a section is read as. -/
def Settings : Kind → Type
  | .config => Config
  | .server => ServerSettings
  | .health => HealthSettings
  | .errors => ErrorSettings
  | .telemetry => TelemetrySettings
  | .exporter => Exporter
  | .tracing => TracingSettings
  | .metrics => MetricsSettings

/-- Read a section of a kind. -/
def read : (k : Kind) → Toml.Value → Except Mismatch k.Settings
  | .config => Schema.config.read
  | .server => Schema.server.read
  | .health => Schema.health.read
  | .errors => Schema.errors.read
  | .telemetry => Schema.telemetry.read
  | .exporter => readExporter
  | .tracing => Schema.tracing.read
  | .metrics => Schema.metrics.read

/-- What is made of a section while it is being read. -/
def Draft : Kind → Type
  | .exporter => ExporterDraft
  | k => k.Settings

/-- The settings of a section. -/
def schema : (k : Kind) → Section k.Draft
  | .config => Schema.config
  | .server => Schema.server
  | .health => Schema.health
  | .errors => Schema.errors
  | .telemetry => Schema.telemetry
  | .exporter => exporterDraft
  | .tracing => Schema.tracing
  | .metrics => Schema.metrics

/-- What a draft comes to. Only that of an exporter may be incomplete. -/
def finish : (k : Kind) → k.Draft → Except Mismatch k.Settings
  | .exporter => ExporterDraft.complete
  | .config | .server | .health | .errors | .telemetry | .tracing | .metrics => .ok

theorem read_eq (k : Kind) (v : Toml.Value) : k.read v = k.schema.read v >>= k.finish := by
  cases k with
  | exporter => rfl
  | _ => exact (bind_pure _).symm

theorem names_schema (k : Kind) : k.schema.settings.map Setting.name = k.fields := by
  cases k <;> rfl

theorem nodup_fields (k : Kind) : k.fields.Nodup := by
  cases k <;> decide

/-- A section has one setting of a name. -/
theorem setting_eq_of_name_eq {k : Kind} {a b : Setting k.Draft} (ha : a ∈ k.schema.settings)
    (hb : b ∈ k.schema.settings) (h : a.name = b.name) : a = b := by
  have hnodup : (k.schema.settings.map Setting.name).Nodup := by
    rw [names_schema]
    exact nodup_fields k
  exact List.inj_on_of_nodup_map hnodup ha hb h

/-- The setting that a section inside another is found by. -/
theorem find?_nested {k inner : Kind} {name : String} (h : (name, inner) ∈ k.nested) :
    ∃ setting, k.schema.find? name = some setting ∧
      ∃ update : inner.Settings → k.Draft → k.Draft,
        ∀ v d, setting.read v d = (inner.read v).map (update · d) := by
  cases k with
  | health | errors | exporter => cases h
  | server | tracing | metrics =>
      rcases h with _ | ⟨_, ⟨⟩⟩
      exact ⟨_, rfl, _, fun _ _ => rfl⟩
  | config | telemetry =>
      rcases h with _ | ⟨_, _ | ⟨_, _ | ⟨_, ⟨⟩⟩⟩⟩
      all_goals exact ⟨_, rfl, _, fun _ _ => rfl⟩

end Kind

/-! ## §2. Reading what stands in a section. -/

section Reading

variable {σ : Type} {s : Section σ} {sofar result : σ}

theorem Section.find?_eq_some {name : String} {setting : Setting σ}
    (h : s.find? name = some setting) : setting ∈ s.settings ∧ setting.name = name := by
  refine ⟨List.mem_of_find?_eq_some h, ?_⟩
  simpa using List.find?_some h

/-- One member is read by the setting of its name, and the rest after it. -/
theorem Section.readMembers_cons_ok {name : String} {v : Toml.Value}
    {rest : List (String × Toml.Value)} :
    s.readMembers sofar ((name, v) :: rest) = .ok result
      ↔ ∃ setting next, s.find? name = some setting ∧ setting.read v sofar = .ok next
        ∧ s.readMembers next rest = .ok result := by
  rw [Section.readMembers]
  cases hfind : s.find? name with
  | none => simp
  | some setting =>
      dsimp only
      rw [Template.bind_eq_ok_iff]
      simp

/-- **Every member of a table that was read was read by a setting of its name.** -/
theorem Section.exists_of_readMembers {members : List (String × Toml.Value)}
    (h : s.readMembers sofar members = .ok result) {name : String} {v : Toml.Value}
    (hmem : (name, v) ∈ members) :
    ∃ setting ∈ s.settings, setting.name = name ∧ ∃ before after,
      setting.read v before = .ok after := by
  induction members generalizing sofar with
  | nil => cases hmem
  | cons member rest ih =>
      obtain ⟨setting, next, hfind, hread, hrest⟩ := Section.readMembers_cons_ok.mp h
      rcases List.mem_cons.mp hmem with rfl | hmem
      · obtain ⟨hsetting, hname⟩ := Section.find?_eq_some hfind
        exact ⟨setting, hsetting, hname, sofar, next, hread⟩
      · exact ih hrest hmem

/-- **Every element of an array that was read was read by the setting at its place**; what stands
behind the last of them is not looked at. -/
theorem exists_of_readElements {title : String} {size index i : Nat} {settings : List (Setting σ)}
    {items : List Toml.Value} (h : readElements title size index sofar settings items = .ok result)
    {setting : Setting σ} (hsetting : settings[i]? = some setting) {v : Toml.Value}
    (hitem : items[i]? = some v) : ∃ before after, setting.read v before = .ok after := by
  induction settings generalizing index i sofar items with
  | nil => simp at hsetting
  | cons first settings ih =>
      cases items with
      | nil => simp at hitem
      | cons w items =>
          rw [readElements] at h
          obtain ⟨next, hread, hrest⟩ := Template.bind_eq_ok_iff.mp h
          cases i with
          | zero =>
              cases hsetting
              cases hitem
              exact ⟨sofar, next, hread⟩
          | succ i => exact ih hrest hsetting hitem

end Reading

/-! ## §3. Sections inside sections. -/

namespace Kind

/-- A value is accepted as a section of a kind. -/
def Accepts (k : Kind) (v : Toml.Value) : Prop := ∃ settings, k.read v = .ok settings

variable {k inner : Kind} {name : String} {v : Toml.Value}

/-- **A section inside another is read by its own kind**, whatever was read before it. -/
theorem read_nested {setting : Setting k.Draft} (hmem : setting ∈ k.schema.settings)
    (hnested : (setting.name, inner) ∈ k.nested) :
    ∃ update : inner.Settings → k.Draft → k.Draft,
      ∀ v d, setting.read v d = (inner.read v).map (update · d) := by
  obtain ⟨found, hfind, hread⟩ := find?_nested hnested
  obtain ⟨hfound, hname⟩ := Section.find?_eq_some hfind
  rwa [setting_eq_of_name_eq hfound hmem hname] at hread

theorem Accepts.exists_draft (h : k.Accepts v) : ∃ d, k.schema.read v = .ok d := by
  obtain ⟨settings, h⟩ := h
  rw [read_eq, Template.bind_eq_ok_iff] at h
  obtain ⟨d, hread, -⟩ := h
  exact ⟨d, hread⟩

theorem accepts_of_setting {setting : Setting k.Draft} (hmem : setting ∈ k.schema.settings)
    (hnested : (setting.name, inner) ∈ k.nested) {before after : k.Draft}
    (h : setting.read v before = .ok after) : inner.Accepts v := by
  obtain ⟨update, hupdate⟩ := read_nested hmem hnested
  rw [hupdate] at h
  cases hread : inner.read v with
  | error mismatch =>
      rw [hread] at h
      cases h
  | ok settings => exact ⟨settings, hread⟩

/-- **What stands in an accepted table** has the name of a field, and is accepted itself if it is a
section. -/
theorem Accepts.member {members : List (String × Toml.Value)} (h : k.Accepts (.table members))
    (hmem : (name, v) ∈ members) :
    name ∈ k.fields ∧ ∀ inner, (name, inner) ∈ k.nested → inner.Accepts v := by
  obtain ⟨d, hread⟩ := h.exists_draft
  obtain ⟨setting, hsetting, rfl, before, after, hvalue⟩ :=
    Section.exists_of_readMembers (s := k.schema) hread hmem
  refine ⟨?_, fun inner hnested => accepts_of_setting hsetting hnested hvalue⟩
  rw [← names_schema]
  exact List.mem_map_of_mem hsetting

/-- The setting of a field stands at the place of the field. -/
theorem exists_setting_of_field {i : Nat} (h : k.fields[i]? = some name) :
    ∃ setting, k.schema.settings[i]? = some setting ∧ setting.name = name := by
  rw [← names_schema, List.getElem?_map, Option.map_eq_some_iff] at h
  exact h

/-- **What stands in an accepted array** is accepted if there is a section at its place. -/
theorem Accepts.element {items : List Toml.Value} {i : Nat} (h : k.Accepts (.array items))
    (hitem : items[i]? = some v) (hfield : k.fields[i]? = some name)
    (hnested : (name, inner) ∈ k.nested) : inner.Accepts v := by
  obtain ⟨d, hread⟩ := h.exists_draft
  obtain ⟨setting, hsetting, rfl⟩ := exists_setting_of_field hfield
  obtain ⟨before, after, hvalue⟩ := exists_of_readElements hread hsetting hitem
  exact accepts_of_setting (List.mem_of_getElem? hsetting) hnested hvalue

end Kind

/-- **Where in a document a section stands**: the document itself is one, and inside a section that
is a table or an array so is what stands at the name or the place of one. -/
inductive Stands (document : Toml.Value) : Kind → Toml.Value → Prop where
  | document : Stands document .config document
  | member {k inner : Kind} {members : List (String × Toml.Value)} {name : String} {v : Toml.Value}
      (h : Stands document k (.table members)) (hmem : (name, v) ∈ members)
      (hnested : (name, inner) ∈ k.nested) : Stands document inner v
  | element {k inner : Kind} {items : List Toml.Value} {i : Nat} {name : String} {v : Toml.Value}
      (h : Stands document k (.array items)) (hitem : items[i]? = some v)
      (hfield : k.fields[i]? = some name) (hnested : (name, inner) ∈ k.nested) :
      Stands document inner v

/-- **A document is accepted only if every section in it is.** -/
theorem Stands.accepts {document v : Toml.Value} {k : Kind} (h : Stands document k v)
    (haccepts : Kind.config.Accepts document) : k.Accepts v := by
  induction h with
  | document => exact haccepts
  | member _ hmem hnested ih => exact (ih.member hmem).2 _ hnested
  | element _ hitem hfield hnested ih => exact ih.element hitem hfield hnested

end ErrorContract.Schema
