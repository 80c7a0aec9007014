/-
  ErrorContract.Proofs.Omitted
  ────────────────────────────
  **LEAVING A SETTING OUT IS WRITING ITS DEFAULT.**

  `Default k name v` lists the defaults, as a document would spell them, and
  `Adds k v w` says that `w` is `v` with one of them written somewhere inside
  where it was left out.  Reading a default into a draft that still has it
  changes nothing, and a draft still has it wherever in the section the
  setting comes to stand, because no two settings touch the same part of a
  draft (`commutes_schema`).

  Main statement `omission_is_default`: however many defaults are written
  out, the settings are the same, and where there are none, so is the fault.
-/
import Mathlib.Data.List.Pairwise
import Mathlib.Logic.Relation
import ErrorContract.Config.Load
import ErrorContract.Proofs.Sections

namespace ErrorContract.Schema

open ErrorContract

/-! ## §1. Writing defaults out. -/

/-- **The defaults of settings**, as a document spells them. A section that has a default may be
written with any of its settings at their own. -/
inductive Default : Kind → String → Toml.Value → Prop where
  | enabled : Default .health "enabled" (.bool true)
  | path : Default .health "path" (.text "/health")
  | exposed : Default .errors "expose_internal_messages" (.bool true)
  | serviceName : Default .telemetry "service_name" (.text "dbfront")
  | attributes : Default .telemetry "resource_attributes" (.table [])
  | protocol : Default .exporter "protocol" (.text "grpc")
  | interval : Default .exporter "export_interval" (.int 30)
  | rate : Default .tracing "sampling_rate" (.float 1.0)
  /-- The same number, written as a whole one. -/
  | wholeRate : Default .tracing "sampling_rate" (.int 1)
  | parentBased : Default .tracing "parent_based" (.bool true)
  | health {members : List (String × Toml.Value)}
      (h : ∀ name v, (name, v) ∈ members → Default .health name v) :
      Default .server "health" (.table members)
  | server {members : List (String × Toml.Value)}
      (h : ∀ name v, (name, v) ∈ members → Default .server name v) :
      Default .config "server" (.table members)
  | errors {members : List (String × Toml.Value)}
      (h : ∀ name v, (name, v) ∈ members → Default .errors name v) :
      Default .config "errors" (.table members)

/-- **One default more is written out**, in the section itself or in one inside it. -/
inductive Adds : Kind → Toml.Value → Toml.Value → Prop where
  /-- The table did not have the setting. -/
  | here {k : Kind} {name : String} {v : Toml.Value} {before after : List (String × Toml.Value)}
      (habsent : name ∉ (before ++ after).map Prod.fst) (hdefault : Default k name v) :
      Adds k (.table (before ++ after)) (.table (before ++ (name, v) :: after))
  /-- The array ended before the setting. -/
  | last {k : Kind} {name : String} {v : Toml.Value} {items : List Toml.Value}
      (hfield : k.fields[items.length]? = some name) (hdefault : Default k name v) :
      Adds k (.array items) (.array (items ++ [v]))
  | member {k inner : Kind} {name : String} {v w : Toml.Value}
      {before after : List (String × Toml.Value)} (hnested : (name, inner) ∈ k.nested)
      (h : Adds inner v w) :
      Adds k (.table (before ++ (name, v) :: after)) (.table (before ++ (name, w) :: after))
  | element {k inner : Kind} {name : String} {v w : Toml.Value} {before after : List Toml.Value}
      (hfield : k.fields[before.length]? = some name) (hnested : (name, inner) ∈ k.nested)
      (h : Adds inner v w) : Adds k (.array (before ++ v :: after)) (.array (before ++ w :: after))

/-- A table stays sorted if the setting is put in its place among the names. -/
theorem adds_insertSorted {k : Kind} {name : String} {v : Toml.Value}
    {members : List (String × Toml.Value)} (habsent : name ∉ members.map Prod.fst)
    (hdefault : Default k name v) :
    Adds k (.table members) (.table (Toml.insertSorted name v members)) := by
  have hsplit : ∃ before after, members = before ++ after
      ∧ Toml.insertSorted name v members = before ++ (name, v) :: after := by
    clear habsent
    induction members with
    | nil => exact ⟨[], [], rfl, rfl⟩
    | cons member rest ih =>
        obtain ⟨n, w⟩ := member
        rw [Toml.insertSorted]
        by_cases hless : name < n
        · rw [if_pos hless]
          exact ⟨[], (n, w) :: rest, rfl, rfl⟩
        · rw [if_neg hless]
          obtain ⟨before, after, hrest, hinserted⟩ := ih
          exact ⟨(n, w) :: before, after, by rw [hrest, List.cons_append],
            by rw [hinserted, List.cons_append]⟩
  obtain ⟨before, after, rfl, hinserted⟩ := hsplit
  rw [hinserted]
  exact .here habsent hdefault

/-! ## §2. Settings that do not touch each other. -/

section Commuting

variable {σ α β : Type}

/-- Whatever two settings read, it does not matter which of them reads first. -/
def Commutes (f g : Toml.Value → σ → Except Mismatch σ) : Prop :=
  ∀ v w d d₁ d₂, f v d = .ok d₁ → g w d = .ok d₂ → ∃ d', f v d₂ = .ok d' ∧ g w d₁ = .ok d'

theorem Commutes.symm {f g : Toml.Value → σ → Except Mismatch σ} (h : Commutes f g) :
    Commutes g f := by
  intro v w d d₁ d₂ hg hf
  obtain ⟨d', hfirst, hsecond⟩ := h w v d d₂ d₁ hf hg
  exact ⟨d', hsecond, hfirst⟩

theorem commutes_setting {f : Toml.Value → Except Mismatch α} {g : Toml.Value → Except Mismatch β}
    {update : α → σ → σ} {update' : β → σ → σ}
    (h : ∀ a b d, update a (update' b d) = update' b (update a d)) :
    Commutes (fun v d => (f v).map (update · d)) (fun v d => (g v).map (update' · d)) := by
  intro v w d d₁ d₂ hf hg
  cases hv : f v with
  | error mismatch =>
      simp only [hv] at hf
      cases hf
  | ok a =>
      cases hw : g w with
      | error mismatch =>
          simp only [hw] at hg
          cases hg
      | ok b =>
          simp only [hv] at hf
          simp only [hw] at hg
          cases hf
          cases hg
          simp only [hv, hw]
          exact ⟨_, rfl, congrArg Except.ok (h a b d).symm⟩

/-- A default that a draft has is still there when another setting has been read. -/
theorem Commutes.keeps {f g : Toml.Value → σ → Except Mismatch σ} (h : Commutes f g)
    {v w : Toml.Value} {d next : σ} (hread : f v d = .ok next) (hdefault : g w d = .ok d) :
    g w next = .ok next := by
  obtain ⟨d', hfirst, hsecond⟩ := h v w d next d hread hdefault
  rw [hread] at hfirst
  cases hfirst
  exact hsecond

/-- **No two settings of a section touch the same part of its draft.** -/
theorem commutes_schema (k : Kind) :
    k.schema.settings.Pairwise fun a b => Commutes a.read b.read := by
  cases k <;> repeat' first
    | exact List.Pairwise.nil
    | exact List.forall_mem_nil _
    | refine List.Pairwise.cons ?_ ?_
    | refine List.forall_mem_cons.mpr ⟨?_, ?_⟩
    | exact commutes_setting fun _ _ _ => rfl

/-- Settings of different names do not touch each other. -/
theorem commutes_of_name_ne {k : Kind} {a b : Setting k.Draft} (ha : a ∈ k.schema.settings)
    (hb : b ∈ k.schema.settings) (hname : a.name ≠ b.name) : Commutes a.read b.read := by
  have hsymm : Std.Symm fun a b : Setting k.Draft => Commutes a.read b.read :=
    ⟨fun _ _ h => h.symm⟩
  exact (commutes_schema k).forall ha hb fun h => hname (congrArg Setting.name h)

end Commuting

/-! ## §3. What is written out, and what is replaced. -/

section Reading

variable {σ : Type} {s : Section σ} {sofar : σ}

theorem Section.readMembers_append (before after : List (String × Toml.Value)) :
    s.readMembers sofar (before ++ after)
      = s.readMembers sofar before >>= fun d => s.readMembers d after := by
  induction before generalizing sofar with
  | nil => rfl
  | cons member rest ih =>
      obtain ⟨name, v⟩ := member
      rw [List.cons_append, Section.readMembers, Section.readMembers]
      cases s.find? name with
      | none => rfl
      | some setting =>
          dsimp only
          rw [bind_assoc]
          exact bind_congr fun next => ih

/-- **A member that changes nothing may as well be left out**, if what stands before it leaves it
without effect. -/
theorem Section.readMembers_insert {name : String} {v : Toml.Value} {setting : Setting σ}
    {before : List (String × Toml.Value)} (after : List (String × Toml.Value))
    (hfind : s.find? name = some setting) (hdefault : setting.read v sofar = .ok sofar)
    (hkeeps : ∀ other ∈ s.settings, other.name ∈ before.map Prod.fst →
      Commutes other.read setting.read) :
    s.readMembers sofar (before ++ (name, v) :: after) = s.readMembers sofar (before ++ after) := by
  induction before generalizing sofar with
  | nil =>
      rw [List.nil_append, Section.readMembers, hfind]
      dsimp only
      rw [hdefault]
      rfl
  | cons member rest ih =>
      obtain ⟨n, w⟩ := member
      rw [List.cons_append, List.cons_append, Section.readMembers, Section.readMembers]
      cases hother : s.find? n with
      | none => rfl
      | some other =>
          dsimp only
          obtain ⟨hmem, rfl⟩ := Section.find?_eq_some hother
          cases hread : other.read w sofar with
          | error mismatch => rfl
          | ok next =>
              have hcommutes := hkeeps other hmem List.mem_cons_self
              exact ih (hcommutes.keeps hread hdefault) fun other' hmem' hname =>
                hkeeps other' hmem' (List.mem_cons_of_mem _ hname)

/-- A member may be replaced by one that is read alike. -/
theorem Section.readMembers_replace {name : String} {v w : Toml.Value}
    (before after : List (String × Toml.Value))
    (h : ∀ setting ∈ s.settings, setting.name = name → setting.read w = setting.read v) :
    s.readMembers sofar (before ++ (name, w) :: after)
      = s.readMembers sofar (before ++ (name, v) :: after) := by
  rw [Section.readMembers_append, Section.readMembers_append]
  refine bind_congr fun d => ?_
  rw [Section.readMembers, Section.readMembers]
  cases hfind : s.find? name with
  | none => rfl
  | some setting =>
      obtain ⟨hmem, hname⟩ := Section.find?_eq_some hfind
      dsimp only
      rw [h setting hmem hname]

variable {title : String} {size index : Nat} {settings : List (Setting σ)} {setting : Setting σ}

/-- **A last element that changes nothing may as well be left out.** -/
theorem readElements_append {items : List Toml.Value} {v : Toml.Value}
    (hcommutes : settings.Pairwise fun a b => Commutes a.read b.read)
    (hsetting : settings[items.length]? = some setting) (homissible : setting.omissible = true)
    (hdefault : setting.read v sofar = .ok sofar) :
    readElements title size index sofar settings (items ++ [v])
      = readElements title size index sofar settings items := by
  induction items generalizing index sofar settings with
  | nil =>
      cases settings with
      | nil => cases hsetting
      | cons first rest =>
          cases hsetting
          rw [List.nil_append, readElements, readElements, hdefault, if_pos homissible]
          rfl
  | cons w items ih =>
      cases settings with
      | nil => cases hsetting
      | cons first rest =>
          obtain ⟨hfirst, hrest⟩ := List.pairwise_cons.mp hcommutes
          rw [List.cons_append, readElements, readElements]
          cases hread : first.read w sofar with
          | error mismatch => rfl
          | ok next =>
              have hcommutes := hfirst setting (List.mem_of_getElem? hsetting)
              exact ih hrest hsetting (hcommutes.keeps hread hdefault)

/-- An element may be replaced by one that is read alike. -/
theorem readElements_replace {before : List Toml.Value} {v w : Toml.Value}
    (after : List Toml.Value) (hsetting : settings[before.length]? = some setting)
    (h : setting.read w = setting.read v) :
    readElements title size index sofar settings (before ++ w :: after)
      = readElements title size index sofar settings (before ++ v :: after) := by
  induction before generalizing index sofar settings with
  | nil =>
      cases settings with
      | nil => cases hsetting
      | cons first rest =>
          cases hsetting
          rw [List.nil_append, List.nil_append, readElements, readElements, h]
  | cons x before ih =>
      cases settings with
      | nil => cases hsetting
      | cons first rest =>
          rw [List.cons_append, List.cons_append, readElements, readElements]
          exact bind_congr fun next => ih hsetting

end Reading

/-! ## §4. Defaults change nothing. -/

/-- **A table of defaults reads as the empty table does.** -/
theorem Section.read_defaults {σ : Type} {s : Section σ} {members : List (String × Toml.Value)}
    (h : ∀ name v, (name, v) ∈ members → ∃ setting, s.find? name = some setting
      ∧ setting.omissible = true ∧ setting.read v s.defaults = .ok s.defaults) :
    s.read (.table members) = .ok s.defaults := by
  show s.readMembers s.defaults members = .ok s.defaults
  induction members with
  | nil => rfl
  | cons member rest ih =>
      obtain ⟨name, v⟩ := member
      obtain ⟨setting, hfind, -, hread⟩ := h name v List.mem_cons_self
      have hrest := ih fun name v hmem => h name v (List.mem_cons_of_mem _ hmem)
      exact Section.readMembers_cons_ok.mpr ⟨setting, s.defaults, hfind, hread, hrest⟩

theorem nearest_one : Number.nearest 1 0 = 1.0 := by
  decide +kernel

/-- **A default is what a draft begins with**, so that reading it changes nothing. -/
theorem Default.reads {k : Kind} {name : String} {v : Toml.Value} (h : Default k name v) :
    ∃ setting, k.schema.find? name = some setting ∧ setting.omissible = true
      ∧ setting.read v k.schema.defaults = .ok k.schema.defaults := by
  induction h with
  | enabled | path | exposed | serviceName | attributes | protocol | interval | rate
    | parentBased => exact ⟨_, rfl, rfl, rfl⟩
  | wholeRate =>
      refine ⟨_, rfl, rfl, ?_⟩
      show Except.ok { Schema.tracing.defaults with samplingRate := Number.nearest 1 0 } = _
      rw [nearest_one]
      rfl
  | health _ ih | server _ ih | errors _ ih =>
      exact ⟨_, rfl, rfl, congrArg (Except.map _) (Section.read_defaults ih)⟩

/-! ## §5. Documents with and without them. -/

section Documents

variable {k inner : Kind} {v w : Toml.Value}

/-- Values of which the same draft is made are read alike. -/
theorem read_eq_of_schema (h : k.schema.read w = k.schema.read v) : k.read w = k.read v := by
  rw [Kind.read_eq, Kind.read_eq, h]

/-- A setting that is a section tells two values apart only if the section does. -/
theorem read_eq_of_nested {setting : Setting k.Draft} (hmem : setting ∈ k.schema.settings)
    (hnested : (setting.name, inner) ∈ k.nested) (h : inner.read w = inner.read v) :
    setting.read w = setting.read v := by
  obtain ⟨update, hupdate⟩ := Kind.read_nested hmem hnested
  funext d
  rw [hupdate, hupdate, h]

/-- **One default more is read as one default less**, wherever it is written. -/
theorem Adds.read_eq (h : Adds k v w) : k.read w = k.read v := by
  induction h with
  | @here k name v before after habsent hdefault =>
      obtain ⟨setting, hfind, -, hread⟩ := hdefault.reads
      obtain ⟨hsetting, rfl⟩ := Section.find?_eq_some hfind
      -- Whatever stands before it has another name, and leaves the default where it is.
      have hkeeps : ∀ other ∈ k.schema.settings, other.name ∈ before.map Prod.fst →
          Commutes other.read setting.read := by
        intro other hother hbefore
        refine commutes_of_name_ne hother hsetting fun hname => habsent ?_
        rw [← hname, List.map_append]
        exact List.mem_append_left _ hbefore
      exact read_eq_of_schema (Section.readMembers_insert after hfind hread hkeeps)
  | @last k name v items hfield hdefault =>
      obtain ⟨setting, hfind, homissible, hread⟩ := hdefault.reads
      obtain ⟨hsetting, rfl⟩ := Section.find?_eq_some hfind
      obtain ⟨other, hplace, hname⟩ := Kind.exists_setting_of_field hfield
      obtain rfl := Kind.setting_eq_of_name_eq (List.mem_of_getElem? hplace) hsetting hname
      exact read_eq_of_schema (readElements_append (commutes_schema k) hplace homissible hread)
  | @member k inner name v w before after hnested _ ih =>
      refine read_eq_of_schema (Section.readMembers_replace before after ?_)
      rintro setting hsetting rfl
      exact read_eq_of_nested hsetting hnested ih
  | @element k inner name v w before after hfield hnested _ ih =>
      obtain ⟨setting, hplace, rfl⟩ := Kind.exists_setting_of_field hfield
      have hread := read_eq_of_nested (List.mem_of_getElem? hplace) hnested ih
      exact read_eq_of_schema (readElements_replace after hplace hread)

/-- However many defaults are written out, a section is read as it was. -/
theorem read_eq_of_adds (h : Relation.ReflTransGen (Adds k) v w) : k.read w = k.read v := by
  induction h with
  | refl => rfl
  | tail _ hstep ih => exact hstep.read_eq.trans ih

/-- **Leaving a setting out is writing its default.**  A document in which any of the settings that
were left out are written at their defaults holds the same settings, or is rejected for the same
reason; and so is a text that says so. -/
theorem omission_is_default {document document' : Toml.Value}
    (h : Relation.ReflTransGen (Adds .config) document document') :
    Config.ofDocument document' = Config.ofDocument document
    ∧ ∀ env text text' expanded expanded',
      Template.expand env text = .ok expanded → Toml.parse expanded = some document →
      Template.expand env text' = .ok expanded' → Toml.parse expanded' = some document' →
      Config.parse env text' = Config.parse env text := by
  have hread : Config.ofDocument document' = Config.ofDocument document := read_eq_of_adds h
  refine ⟨hread, ?_⟩
  intro env text text' expanded expanded' hexpanded hdocument hexpanded' hdocument'
  have hdecode : Config.decode expanded' = Config.decode expanded := by
    unfold Config.decode
    rw [hdocument, hdocument']
    exact congrArg (Except.mapError Config.LoadFault.schema) hread
  unfold Config.parse
  rw [hexpanded, hexpanded']
  show (Config.decode expanded' >>= _) = (Config.decode expanded >>= _)
  rw [hdecode]

/-- A document that says no more than that there is telemetry, and one with defaults written out on
three levels. -/
theorem omission_is_default_three_levels :
    Config.ofDocument (.table
      [("server", .table [("health", .table [("path", .text "/health")])]),
        ("telemetry", .table [("service_name", .text "dbfront")])])
      = .ok { telemetry := some {} } := by
  have hhealth : Default .server "health" (.table [("path", .text "/health")]) := by
    refine .health fun name v hmem => ?_
    cases List.mem_singleton.mp hmem
    exact .path
  have hserver : Default .config "server"
      (.table [("health", .table [("path", .text "/health")])]) := by
    refine .server fun name v hmem => ?_
    cases List.mem_singleton.mp hmem
    exact hhealth
  have hname : Adds .telemetry (.table []) (.table [("service_name", .text "dbfront")]) :=
    adds_insertSorted List.not_mem_nil .serviceName
  have hinside : Adds .config (.table ([] ++ [("telemetry", .table [])]))
      (.table ([] ++ [("telemetry", .table [("service_name", .text "dbfront")])])) :=
    .member (by decide) hname
  have hbefore : Adds .config (.table [("telemetry", .table [("service_name", .text "dbfront")])])
      (.table [("server", .table [("health", .table [("path", .text "/health")])]),
        ("telemetry", .table [("service_name", .text "dbfront")])]) :=
    adds_insertSorted (by decide) hserver
  exact (omission_is_default (.tail (.single hinside) hbefore)).1.trans rfl

end Documents

end ErrorContract.Schema
