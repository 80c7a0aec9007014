/-
  ErrorContract.Proofs.Vetted
  ───────────────────────────
  **WHAT AN ACCEPTED CONFIGURATION IS SURE TO BE.**

  A name that a section does not have ends the reading, wherever the section
  stands, and only the attributes of the resource are named freely.  An
  exporter has an endpoint, because its draft is not complete without one.
  What the schema cannot say is checked of the settings themselves: the
  health path is absolute if it is used, and a sampling rate is a number
  from zero to one, so neither infinite nor no number at all.

  Main statement `accepted_is_known_and_valid`.
-/
import ErrorContract.Proofs.Routable
import ErrorContract.Proofs.Sections

namespace ErrorContract

/-! ## §1. Numbers between two numbers. -/

open Float.Model in
/-- One number is at most another if it is so for their signs, significands and exponents. -/
theorem le_unpack {x y : Float} (h : x ≤ y) : x.toModel.unpack.le y.toModel.unpack = true := by
  have hmodel : decide (x.toModel ≤ y.toModel) = true := h
  exact of_decide_eq_true hmodel

open Float.Model in
/-- **A share is a number, and finite**: nothing else is comparable with zero and one. -/
theorem isFinite_of_isShare {x : Float} (h : Config.isShare x = true) :
    x.isFinite = true ∧ x.isNaN = false ∧ x.isInf = false := by
  simp only [Config.isShare, Bool.and_eq_true, decide_eq_true_eq] at h
  have hlow : (UnpackedFloat.zero .positive).le x.toModel.unpack = true := le_unpack h.1
  obtain ⟨m, e, hm, hone⟩ : ∃ m e hm,
      (1.0 : Float).toModel.unpack = .finite .positive m e hm := ⟨_, _, _, rfl⟩
  have hhigh : x.toModel.unpack.le (.finite .positive m e hm) = true := hone ▸ le_unpack h.2
  show x.toModel.unpack.isFinite = true ∧ x.toModel.unpack.isNaN = false
    ∧ x.toModel.unpack.isInf = false
  generalize x.toModel.unpack = u at hlow hhigh
  cases u with
  | infinity sign =>
      cases sign with
      | positive => cases hhigh
      | negative => cases hlow
  | notANumber => cases hlow
  | zero sign => exact ⟨rfl, rfl, rfl⟩
  | finite sign m e hm => exact ⟨rfl, rfl, rfl⟩

namespace Config

/-- All that is checked of traces: their sampling rate is a share. -/
theorem isShare_of_validate {c : Config} (h : c.validate = .ok ()) {rate : Float}
    (hrate : c.samplingRate? = some rate) : isShare rate = true := by
  obtain ⟨u, -, htracing⟩ := Template.bind_eq_ok_iff.mp h
  unfold validateTracing at htracing
  rw [hrate] at htracing
  by_contra hshare
  dsimp only at htracing
  rw [if_neg hshare] at htracing
  cases htracing

theorem eq_ok_of_mapError {ε ε' α : Type} {x : Except ε α} {f : ε → ε'} {a : α}
    (h : x.mapError f = .ok a) : x = .ok a := by
  cases x with
  | error e => cases h
  | ok b => exact congrArg Except.ok (Except.ok.inj h)

/-- The document that accepted settings were read from. -/
theorem exists_document_of_parse {env : Environment} {text : String} {c : Config}
    (h : Config.parse env text = .ok c) : ∃ expanded document,
      Template.expand env text = .ok expanded ∧ Toml.parse expanded = some document
        ∧ ofDocument document = .ok c := by
  unfold Config.parse at h
  obtain ⟨expanded, hexpanded, h⟩ := Template.bind_eq_ok_iff.mp h
  obtain ⟨config, hdecoded, h⟩ := Template.bind_eq_ok_iff.mp h
  obtain ⟨u, -, h⟩ := Template.bind_eq_ok_iff.mp h
  obtain rfl : config = c := Except.ok.inj h
  unfold decode at hdecoded
  cases hdocument : Toml.parse expanded with
  | none =>
      rw [hdocument] at hdecoded
      cases hdecoded
  | some document =>
      rw [hdocument] at hdecoded
      exact ⟨expanded, document, eq_ok_of_mapError hexpanded, hdocument,
        eq_ok_of_mapError hdecoded⟩

end Config

/-! ## §2. Exporters. -/

namespace Schema

/-- Only the setting of the endpoint gives a draft its endpoint. -/
theorem endpoint_of_read {setting : Setting ExporterDraft} {v : Toml.Value}
    {before after : ExporterDraft} (hmem : setting ∈ exporterDraft.settings)
    (hname : setting.name ≠ "endpoint") (h : setting.read v before = .ok after) :
    after.endpoint = before.endpoint := by
  rcases hmem with _ | ⟨_, _ | ⟨_, _ | ⟨_, ⟨⟩⟩⟩⟩
  · exact absurd rfl hname
  · cases hvalue : readProtocol v <;> simp [setting, hvalue, Except.map] at h
    rw [← h]
  · cases hvalue : readCount v <;> simp [setting, hvalue, Except.map] at h
    rw [← h]

/-- A table without an endpoint leaves the draft without one. -/
theorem endpoint_of_readMembers {members : List (String × Toml.Value)}
    {before after : ExporterDraft} (h : exporterDraft.readMembers before members = .ok after)
    (habsent : ∀ v, ("endpoint", v) ∉ members) : after.endpoint = before.endpoint := by
  induction members generalizing before with
  | nil =>
      cases h
      rfl
  | cons member rest ih =>
      obtain ⟨name, v⟩ := member
      obtain ⟨setting, next, hfind, hread, hrest⟩ := Section.readMembers_cons_ok.mp h
      obtain ⟨hmem, rfl⟩ := Section.find?_eq_some hfind
      have hname : setting.name ≠ "endpoint" := by
        intro hname
        exact habsent v (hname ▸ List.mem_cons_self)
      rw [ih hrest fun w hw => habsent w (List.mem_cons_of_mem _ hw)]
      exact endpoint_of_read hmem hname hread

/-- **The table of an accepted exporter has an endpoint.** -/
theorem Kind.Accepts.endpoint {members : List (String × Toml.Value)}
    (h : Kind.exporter.Accepts (.table members)) : ∃ v, ("endpoint", v) ∈ members := by
  by_contra habsent
  obtain ⟨e, he⟩ := h
  obtain ⟨d, hread, hcomplete⟩ := Template.bind_eq_ok_iff.mp he
  have hnone : d.endpoint = none := endpoint_of_readMembers hread (not_exists.mp habsent)
  unfold ExporterDraft.complete at hcomplete
  rw [hnone] at hcomplete
  cases hcomplete

/-- The attributes of the resource may have any names. -/
theorem readTextTable_texts (attributes : List (String × String)) :
    readTextTable (.table (attributes.map fun a => (a.1, .text a.2))) = .ok attributes := by
  show readTexts _ = _
  induction attributes with
  | nil => rfl
  | cons entry rest ih =>
      obtain ⟨name, text⟩ := entry
      rw [List.map_cons, readTexts, ih]
      rfl

end Schema

/-! ## §3. Accepted settings. -/

/-- **Nothing unknown and nothing invalid is accepted.**  Every table that stands where a section is
read has no names but those of its fields, and an endpoint if it is an exporter; only attributes
may have any names.  The health path is absolute if it is used, and the sampling rate, where there
is one, is a number from zero to one. -/
theorem accepted_is_known_and_valid {env : Environment} {text : String} {c : Config}
    (h : Config.parse env text = .ok c) :
    (∃ expanded document, Template.expand env text = .ok expanded
      ∧ Toml.parse expanded = some document ∧ Config.ofDocument document = .ok c
      ∧ ∀ k members, Schema.Stands document k (.table members) →
        (∀ name v, (name, v) ∈ members → name ∈ k.fields)
        ∧ (k = .exporter → ∃ v, ("endpoint", v) ∈ members))
    ∧ (∀ attributes : List (String × String),
      Schema.readTextTable (.table (attributes.map fun a => (a.1, .text a.2))) = .ok attributes)
    ∧ (c.server.health.enabled = true → c.server.health.path.toList.head? = some '/')
    ∧ ∀ telemetry tracing, c.telemetry = some telemetry → telemetry.tracing = some tracing →
      0.0 ≤ tracing.samplingRate ∧ tracing.samplingRate ≤ 1.0
        ∧ tracing.samplingRate.isNaN = false ∧ tracing.samplingRate.isInf = false := by
  have hvalid := Config.validate_of_parse h
  obtain ⟨expanded, document, hexpanded, hdocument, hread⟩ := Config.exists_document_of_parse h
  refine ⟨⟨expanded, document, hexpanded, hdocument, hread, ?_⟩, Schema.readTextTable_texts,
    Config.absolute_of_validate hvalid, ?_⟩
  · intro k members hstands
    have haccepts : k.Accepts (.table members) := hstands.accepts ⟨c, hread⟩
    refine ⟨fun name v hmem => (haccepts.member hmem).1, ?_⟩
    rintro rfl
    exact haccepts.endpoint
  · intro telemetry tracing htelemetry htracing
    have hrate : c.samplingRate? = some tracing.samplingRate := by
      simp [Config.samplingRate?, htelemetry, htracing]
    have hshare := Config.isShare_of_validate hvalid hrate
    obtain ⟨-, hnumber, hfinite⟩ := isFinite_of_isShare hshare
    simp only [Config.isShare, Bool.and_eq_true, decide_eq_true_eq] at hshare
    exact ⟨hshare.1, hshare.2, hnumber, hfinite⟩

/-- Settings of traces, with an exporter of their own, whose rate is accepted. -/
theorem accepted_is_known_and_valid_traces :
    ∃ c telemetry tracing, Config.parse ⟨[]⟩
        "[telemetry.tracing]\nsampling_rate = 0.25\nexporter.endpoint = \"http://a\"" = .ok c
      ∧ c.telemetry = some telemetry ∧ telemetry.tracing = some tracing
      ∧ tracing.samplingRate = 0.25 ∧ tracing.samplingRate.isNaN = false
      ∧ c.server.health.path.toList.head? = some '/' := by
  have hread : (Config.parse ⟨[]⟩
      "[telemetry.tracing]\nsampling_rate = 0.25\nexporter.endpoint = \"http://a\"").toOption.map
      (fun c => (c.server.health.enabled, c.samplingRate?)) = some (true, some 0.25) := by
    decide +kernel
  obtain ⟨c, hparse, hsettings⟩ := Server.exists_eq_ok_of_map_toOption hread
  obtain ⟨henabled, hrate⟩ := Prod.mk.inj hsettings
  obtain ⟨-, -, hhealth, hshare⟩ := accepted_is_known_and_valid hparse
  obtain ⟨tracing, htracing, hquarter⟩ := Option.map_eq_some_iff.mp hrate
  obtain ⟨telemetry, htelemetry, htracing⟩ := Option.bind_eq_some_iff.mp htracing
  obtain ⟨-, -, hnumber, -⟩ := hshare telemetry tracing htelemetry htracing
  exact ⟨c, telemetry, tracing, hparse, htelemetry, htracing, hquarter, hnumber, hhealth henabled⟩

end ErrorContract
