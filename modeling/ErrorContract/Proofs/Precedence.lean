/-
  ErrorContract.Proofs.Precedence
  ───────────────────────────────
  **WHERE A PROGRAM THAT STARTS HAS ITS SETTINGS FROM.**

  What the command line gives goes before what the environment holds, and an
  address from either goes before that of the file (`Settled`).  The
  environment is asked in two places: for options that are not given, and
  for what the file has placeholders for.  So `expand_congr` and
  `parse_congr` say which variables each of them can depend on at all.

  Main statement: the settings a server is built with are those of the file
  but for that address, and they are valid; and the variable of an option
  that is given does not matter, whatever it holds, unless the file asks for
  it.
-/
import ErrorContract.CommandLine.Startup
import ErrorContract.Proofs.Commanded
import ErrorContract.Proofs.Culprit
import ErrorContract.Proofs.Vetted

namespace ErrorContract

/-! ## §1. What a file asks for. -/

namespace Template

variable {env env' : Environment}

/-- **A text asks for a variable**: a line that is no comment has a placeholder with its name. -/
def AsksFor (text name : String) : Prop :=
  ∃ p, Holds text p ∧ p.key = ['e', 'n', 'v', '.'] ++ name.toList

theorem text?_congr {name : String} (h : env'.bytes? name = env.bytes? name) :
    env'.text? name = env.text? name := by
  unfold Environment.text?
  rw [h]

/-- The placeholders among the pieces of a text's lines are those that the text holds. -/
theorem holds_iff_mem {text : String} {p : Placeholder} :
    Holds text p ↔ .placeholder p ∈ (lines text.toList).flatMap linePieces := by
  rw [← mem_flatten_page_iff, ← flatMap_pieces_flatten, List.mem_flatMap]
  constructor
  · exact fun hmem => ⟨_, hmem, by simp [Segment.pieces]⟩
  · rintro ⟨segment, hsegment, hpiece⟩
    cases segment with
    | literal text => simp [Segment.pieces] at hpiece
    | placeholder q =>
        obtain rfl : p = q := by simpa [Segment.pieces] using hpiece
        exact hsegment

/-- **The variables that are read for a text are those that it asks for.**  A name with a point is
none of a variable. -/
theorem mem_variableNames_iff {text name : String} :
    name ∈ variableNames text ↔ AsksFor text name ∧ '.' ∉ name.toList := by
  unfold variableNames AsksFor
  rw [← List.filterMap_flatMap, List.mem_filterMap]
  constructor
  · rintro ⟨piece, hpiece, hvariable⟩
    cases piece with
    | char c => cases hvariable
    | placeholder p =>
        obtain ⟨cs, hname, rfl⟩ := Option.map_eq_some_iff.mp hvariable
        obtain ⟨hkey, hdot⟩ := variableName?_eq_some_iff.mp hname
        rw [String.toList_ofList]
        exact ⟨⟨p, holds_iff_mem.mpr hpiece, hkey⟩, hdot⟩
  · rintro ⟨⟨p, hholds, hkey⟩, hdot⟩
    refine ⟨.placeholder p, holds_iff_mem.mp hholds, ?_⟩
    show (variableName? p.key).map String.ofList = some name
    rw [variableName?_eq_some_iff.mpr ⟨hkey, hdot⟩, Option.map_some, String.ofList_toList]

theorem Placeholder.resolve_congr {p : Placeholder}
    (h : ∀ name : String, p.key = ['e', 'n', 'v', '.'] ++ name.toList →
      env'.bytes? name = env.bytes? name) : p.resolve env' = p.resolve env := by
  unfold resolve
  cases hname : variableName? p.key with
  | none => rfl
  | some name =>
      have hkey := (variableName?_eq_some_iff.mp hname).1
      have hsame := h (String.ofList name) (by rw [hkey, String.toList_ofList])
      dsimp only
      rw [text?_congr hsame]

theorem expandPieces_congr {ps : List Piece}
    (h : ∀ p, .placeholder p ∈ ps → p.resolve env' = p.resolve env) :
    expandPieces env' ps = expandPieces env ps := by
  induction ps with
  | nil => rfl
  | cons piece ps ih =>
      have hpiece : piece.resolve env' = piece.resolve env := by
        cases piece with
        | char c => rfl
        | placeholder p => exact h p List.mem_cons_self
      rw [expandPieces, expandPieces, hpiece, ih fun p hp => h p (List.mem_cons_of_mem _ hp)]

theorem expandLines_congr {ls : List (List Char)}
    (h : ∀ line ∈ ls, ∀ p, .placeholder p ∈ linePieces line → p.resolve env' = p.resolve env) :
    expandLines env' ls = expandLines env ls := by
  induction ls with
  | nil => rfl
  | cons line ls ih =>
      rw [expandLines, expandLines, expandPieces_congr (h line List.mem_cons_self),
        ih fun line hline => h line (List.mem_cons_of_mem _ hline)]

/-- **The expansion of a text depends on the variables that it asks for**, and on no others. -/
theorem expand_congr {text : String}
    (h : ∀ name, AsksFor text name → env'.bytes? name = env.bytes? name) :
    expand env' text = expand env text := by
  have hresolve : ∀ line ∈ lines text.toList, ∀ p, .placeholder p ∈ linePieces line →
      p.resolve env' = p.resolve env := by
    intro line hline p hp
    have hholds : Holds text p := holds_iff_mem.mpr (List.mem_flatMap.mpr ⟨line, hline, hp⟩)
    exact Placeholder.resolve_congr fun name hkey => h name ⟨p, hholds, hkey⟩
  unfold expand
  rw [expandLines_congr hresolve]

end Template

namespace Config

variable {env env' : Environment}

/-- Nothing but the expansion of its text makes a file depend on the environment. -/
theorem load_congr {path : String} {content : Option (List UInt8)}
    (h : ∀ text, fileText content = .ok text →
      Template.expand env' text = Template.expand env text) :
    load env' path content = load env path content := by
  unfold load
  cases htext : fileText content with
  | error fault => rfl
  | ok text =>
      show parse env' text = parse env text
      unfold parse
      rw [h text htext]

/-- Settings that were loaded have been checked. -/
theorem validate_of_load {path : String} {content : Option (List UInt8)} {c : Config}
    (h : load env path content = .ok c) : c.validate = .ok () := by
  obtain ⟨text, -, hparse⟩ := Template.bind_eq_ok_iff.mp h
  exact validate_of_parse hparse

end Config

namespace CommandLine

/-! ## §2. What the environment is asked for. -/

/-- **What a setting is settled with**: what the command line gives, or else what the environment
holds, or nothing. -/
inductive Settled (env : Environment) (given : List (Setting × String)) (setting : Setting) :
    Option String → Prop where
  | commanded {value : String} (h : (setting, value) ∈ given) :
      Settled env given setting (some value)
  | inherited {bytes : List UInt8} {value : String} (hno : ∀ value, (setting, value) ∉ given)
      (hbytes : env.bytes? setting.variable = some bytes)
      (hvalue : valueText setting bytes = .ok value) : Settled env given setting (some value)
  | absent (hno : ∀ value, (setting, value) ∉ given)
      (hunset : env.bytes? setting.variable = none) : Settled env given setting none

section Completing

variable {env env' : Environment} {given : List (Setting × String)} {g g' : Given}
  {setting : Setting}

/-- What is said of the settings that the command line gives. -/
structure Commands (given : List (Setting × String)) (g : Given) (setting : Setting) : Prop where
  takes : ∀ value, (setting, value) ∈ given → g.Takes setting (some value)
  lacks : (∀ value, (setting, value) ∉ given) → g.Takes setting none

theorem commands_of_givesAll (h : GivesAll {} given g) (setting : Setting) :
    Commands given g setting := by
  refine ⟨fun value hmem => h.takes _ hmem, fun hno => ?_⟩
  refine h.others setting (fun hmem => ?_) none (Given.takes_none setting)
  obtain ⟨⟨_, value⟩, hentry, rfl⟩ := List.mem_map.mp hmem
  exact hno value hentry

/-- **A setting that the command line does not give is completed from the environment.** -/
theorem Commands.complete (h : Commands given g setting)
    (hcomplete : g.complete env setting = .ok g') :
    ∃ value, Settled env given setting value ∧ g'.Takes setting value := by
  unfold Given.complete at hcomplete
  by_cases hgiven : ∃ value, (setting, value) ∈ given
  · obtain ⟨value, hmem⟩ := hgiven
    have htakes := h.takes value hmem
    have hhas : g.has setting = true := htakes.has
    rw [if_pos hhas] at hcomplete
    cases hcomplete
    exact ⟨_, .commanded hmem, htakes⟩
  · have hno := not_exists.mp hgiven
    have htakes := h.lacks hno
    have hhas : ¬ g.has setting = true := by
      rw [htakes.has]
      nofun
    rw [if_neg hhas] at hcomplete
    cases hbytes : env.bytes? setting.variable with
    | none =>
        rw [hbytes] at hcomplete
        cases hcomplete
        exact ⟨_, .absent hno hbytes, htakes⟩
    | some bytes =>
        rw [hbytes] at hcomplete
        obtain ⟨value, hvalue, hgive⟩ := Template.bind_eq_ok_iff.mp hcomplete
        exact ⟨_, .inherited hno hbytes hvalue, (Given.gives_give hgive).takes⟩

/-- Completing one setting leaves the others as they are. -/
theorem takes_complete (hcomplete : g.complete env setting = .ok g') {other : Setting}
    (hother : other ≠ setting) :
    g'.has other = g.has other ∧ ∀ value, g.Takes other value → g'.Takes other value := by
  unfold Given.complete at hcomplete
  split at hcomplete
  · cases hcomplete
    exact ⟨rfl, fun _ htakes => htakes⟩
  · split at hcomplete
    · cases hcomplete
      exact ⟨rfl, fun _ htakes => htakes⟩
    · obtain ⟨value, -, hgive⟩ := Template.bind_eq_ok_iff.mp hcomplete
      exact (Given.gives_give hgive).others other hother

theorem Commands.of_complete (h : Commands given g setting) {other : Setting}
    (hcomplete : g.complete env other = .ok g') (hother : setting ≠ other) :
    Commands given g' setting := by
  obtain ⟨-, hkept⟩ := takes_complete hcomplete hother
  exact ⟨fun value hmem => hkept _ (h.takes value hmem), fun hno => hkept _ (h.lacks hno)⟩

end Completing

/-- **What the program is told**: its options are those that are written, each at most once, and
every setting is what it is settled with. -/
structure Told (env : Environment) (given : List (Setting × String)) (a : Arguments) : Prop where
  once : (given.map Prod.fst).Nodup
  config : Settled env given .config a.config
  listen : ∃ value, Settled env given .listen value
    ∧ a.listen.map some = value.map Net.SocketAddress.parse
  logFilter : ∃ value, Settled env given .logFilter value
    ∧ a.logFilter = value.getD defaultLogFilter

theorem told_of_parse {env : Environment} {arguments : List String} {a : Arguments}
    (h : Arguments.parse env arguments = .ok a) :
    ∃ given, Written none arguments given ∧ Told env given a := by
  obtain ⟨g, hread, h⟩ := Template.bind_eq_ok_iff.mp h
  obtain ⟨g₁, hconfig, h⟩ := Template.bind_eq_ok_iff.mp h
  obtain ⟨g₂, hlisten, h⟩ := Template.bind_eq_ok_iff.mp h
  obtain ⟨g₃, hlog, h⟩ := Template.bind_eq_ok_iff.mp h
  cases h
  obtain ⟨given, hwritten, hgive⟩ := readArguments_eq_ok_iff.mp hread
  have hall := givesAll_giveAll hgive
  -- Each setting is completed once, and neither before nor after that.
  obtain ⟨path, hpath, htakes⟩ := (commands_of_givesAll hall .config).complete hconfig
  have hpath₂ := (takes_complete hlisten (by decide)).2 _ htakes
  have hpath' := (takes_complete hlog (by decide)).2 _ hpath₂
  obtain ⟨address, haddress, htakes⟩ :=
    ((commands_of_givesAll hall .listen).of_complete hconfig (by decide)).complete hlisten
  have haddress' := (takes_complete hlog (by decide)).2 _ htakes
  obtain ⟨filter, hfilter, hfilter'⟩ :=
    (((commands_of_givesAll hall .logFilter).of_complete hconfig (by decide)).of_complete hlisten
      (by decide)).complete hlog
  refine ⟨given, hwritten, hall.once, ?_, ⟨address, haddress, haddress'⟩, ⟨filter, hfilter, ?_⟩⟩
  · rw [show g₃.arguments.config = path from hpath'.1]
    exact hpath
  · exact congrArg (·.getD defaultLogFilter) hfilter'

/-! ## §3. What does not matter. -/

section Sparing

variable {env env' : Environment} {given : List (Setting × String)} {arguments : List String}

theorem Setting.variable_injective : ∀ s t : Setting, s.variable = t.variable → s = t := by
  rintro (_ | _ | _) (_ | _ | _) <;> decide

/-- **Another environment that is the same** but for the variables of options that are given, as
far as nobody asks for them. -/
def SameButFor (given : List (Setting × String)) (Asked : String → Prop)
    (env env' : Environment) : Prop :=
  ∀ name, env'.bytes? name = env.bytes? name
    ∨ (∃ setting value, (setting, value) ∈ given ∧ setting.variable = name) ∧ ¬ Asked name

theorem complete_congr {g : Given} {setting : Setting}
    (h : g.has setting = true ∨ env'.bytes? setting.variable = env.bytes? setting.variable) :
    g.complete env' setting = g.complete env setting := by
  unfold Given.complete
  rcases h with hhas | hsame
  · rw [if_pos hhas, if_pos hhas]
  · rw [hsame]

/-- Steps come to the same if the first does, and the others from what it gives. -/
theorem bind_congr_of_ok {ε α β : Type} {x x' : Except ε α} {next next' : α → Except ε β}
    (hx : x' = x) (hnext : ∀ a, x = .ok a → next' a = next a) : (x' >>= next') = (x >>= next) := by
  subst hx
  cases x' with
  | error fault => rfl
  | ok a => exact hnext a rfl

/-- **The variable of an option that is given is not looked at.** -/
theorem parse_congr {Asked : String → Prop}
    (h : ∀ given, Written none arguments given → SameButFor given Asked env env') :
    Arguments.parse env' arguments = Arguments.parse env arguments := by
  -- Arguments that are not written properly are refused in front of the environment.
  refine bind_congr_of_ok rfl fun g hread => ?_
  obtain ⟨given, hwritten, hgive⟩ := readArguments_eq_ok_iff.mp hread
  have hsame : ∀ setting, g.has setting = true
      ∨ env'.bytes? setting.variable = env.bytes? setting.variable := by
    intro setting
    refine (h given hwritten setting.variable).symm.imp_left ?_
    rintro ⟨⟨other, value, hmem, hvariable⟩, -⟩
    obtain rfl := Setting.variable_injective _ _ hvariable
    exact ((givesAll_giveAll hgive).takes _ hmem).has
  -- Completing one setting leaves it the same for those to come.
  refine bind_congr_of_ok (complete_congr (hsame .config)) fun g₁ hconfig => ?_
  have hlisten : g₁.has .listen = g.has .listen := (takes_complete hconfig (by decide)).1
  have hlog : g₁.has .logFilter = g.has .logFilter := (takes_complete hconfig (by decide)).1
  refine bind_congr_of_ok (complete_congr (hlisten ▸ hsame .listen)) fun g₂ hnext => ?_
  have hlog' : g₂.has .logFilter = g.has .logFilter :=
    ((takes_complete hnext (by decide)).1).trans hlog
  exact bind_congr_of_ok (complete_congr (hlog' ▸ hsame .logFilter)) fun _ _ => rfl

end Sparing

/-- **The file that the program is told of asks for a variable.** -/
inductive FileAsksFor (env : Environment) (files : Files) (arguments : List String)
    (name : String) : Prop where
  | file {a : Arguments} {path text : String} (ha : Arguments.parse env arguments = .ok a)
      (hpath : a.config = some path) (htext : Config.fileText (files path) = .ok text)
      (hasks : Template.AsksFor text name) : FileAsksFor env files arguments name

/-- **Another environment that is the same at the start**: but for the variables of options that
the command line gives, as far as the file does not ask for them. -/
def SameAtStart (files : Files) (arguments : List String) (env env' : Environment) : Prop :=
  ∀ given, Written none arguments given →
    SameButFor given (FileAsksFor env files arguments) env env'

/-- What the variables of given options hold does not matter to how the program starts, or to why it
does not, unless the file asks for it. -/
theorem start_congr {env env' : Environment} {files : Files} {arguments : List String}
    (h : SameAtStart files arguments env env') :
    start env' files arguments = start env files arguments := by
  unfold start
  rw [parse_congr h]
  cases ha : Arguments.parse env arguments with
  | error fault => rfl
  | ok a =>
      obtain ⟨given, hwritten, -⟩ := told_of_parse ha
      have hload : loadConfig env' files a.config = loadConfig env files a.config := by
        unfold loadConfig
        cases hpath : a.config with
        | none => rfl
        | some path =>
            refine Config.load_congr fun text htext => Template.expand_congr fun name hasks => ?_
            exact (h given hwritten name).resolve_right fun hgiven =>
              hgiven.2 (.file ha hpath htext hasks)
      show ((settings env' files a).mapError _ >>= _) = ((settings env files a).mapError _ >>= _)
      unfold settings
      rw [hload]

/-! ## §4. Settings that are handed over. -/

/-- **The program hands settings to the server**, whether that can be built of them or not. -/
inductive HandsOver (env : Environment) (files : Files) (arguments : List String) (a : Arguments)
    (c : Config) : Prop where
  | built {s : Server} (h : start env files arguments = .ok ⟨a, c, s⟩) :
      HandsOver env files arguments a c
  | refused {fault : Http.RouteFault}
      (h : start env files arguments = .error (.routes fault a c)) :
      HandsOver env files arguments a c

/-- The settings that a program has loaded: the defaults, or those of a file. -/
inductive LoadedFrom (env : Environment) (files : Files) : Option String → Config → Prop where
  | defaults : LoadedFrom env files none {}
  | file {path : String} {c : Config} (h : Config.load env path (files path) = .ok c) :
      LoadedFrom env files (some path) c

/-- A step fails with a fault of its own, or the next ones go on with what it gives. -/
theorem cases_of_step {ε ε' α β : Type} {x : Except ε α} {named : ε → ε'} {next : α → Except ε' β}
    {result : Except ε' β} (h : (x.mapError named >>= next) = result) :
    (∃ fault, result = .error (named fault)) ∨ ∃ a, x = .ok a ∧ next a = result := by
  cases x with
  | error fault => exact .inl ⟨fault, h.symm⟩
  | ok a => exact .inr ⟨a, rfl, h⟩

theorem HandsOver.steps {env : Environment} {files : Files} {arguments : List String}
    {a : Arguments} {c : Config} (h : HandsOver env files arguments a c) :
    Arguments.parse env arguments = .ok a ∧ settings env files a = .ok c := by
  obtain ⟨result, hresult, hends⟩ : ∃ result, start env files arguments = result
      ∧ ((∃ s, result = .ok ⟨a, c, s⟩) ∨ ∃ fault, result = .error (.routes fault a c)) := by
    cases h with
    | built h => exact ⟨_, h, .inl ⟨_, rfl⟩⟩
    | refused h => exact ⟨_, h, .inr ⟨_, rfl⟩⟩
  -- Before settings are handed over a fault is none of the routes.
  rcases cases_of_step hresult with ⟨fault, rfl⟩ | ⟨a', ha, hresult⟩
  · rcases hends with ⟨s, hs⟩ | ⟨_, hs⟩ <;> cases hs
  rcases cases_of_step hresult with ⟨fault, rfl⟩ | ⟨c', hc, hresult⟩
  · rcases hends with ⟨s, hs⟩ | ⟨_, hs⟩ <;> cases hs
  rcases cases_of_step hresult with ⟨fault, rfl⟩ | ⟨t, -, hresult⟩
  · rcases hends with ⟨s, hs⟩ | ⟨_, hs⟩ <;> cases hs
  rcases cases_of_step hresult with ⟨fault, rfl⟩ | ⟨s', -, rfl⟩
  · rcases hends with ⟨s, hs⟩ | ⟨_, hs⟩ <;> cases hs
    exact ⟨ha, hc⟩
  · rcases hends with ⟨s, hs⟩ | ⟨_, hs⟩ <;> cases hs
    exact ⟨ha, hc⟩

/-- What the command line comes to is the only thing that it can. -/
theorem exists_written_iff {env : Environment} {arguments : List String} {a : Arguments}
    (h : Arguments.parse env arguments = .ok a) :
    ∃ given, (∀ given', Written none arguments given' ↔ given' = given) ∧ Told env given a := by
  obtain ⟨given, hwritten, htold⟩ := told_of_parse h
  exact ⟨given, fun given' => ⟨fun h' => h'.unique hwritten, fun h' => h' ▸ hwritten⟩, htold⟩

/-- Settings are loaded, and are valid already without another address. -/
theorem loadedFrom_of_loadConfig {env : Environment} {files : Files} {path : Option String}
    {c : Config} (h : loadConfig env files path = .ok c) :
    LoadedFrom env files path c ∧ c.validate = .ok () := by
  unfold loadConfig at h
  cases path with
  | none =>
      cases h
      exact ⟨.defaults, rfl⟩
  | some path => exact ⟨.file h, Config.validate_of_load h⟩

theorem withListen_eq (c : Config) (listen : Option Net.SocketAddress) :
    withListen c listen = { c with
      server := { c.server with listenAddress := listen.or c.server.listenAddress } } := by
  cases listen <;> rfl

/-- **Settings have one precedence.**  Those that a server is built with are the ones that were
loaded, from the file that is named or by default; but for the address, if the command line or else
the environment has one.  They are valid, and the server listens where they say.  And whether or not
it comes to that, the program starts and ends alike in every environment that is the same but for
variables of options that the command line gives, as far as the file does not ask for them. -/
theorem settings_have_one_precedence (env : Environment) (files : Files)
    (arguments : List String) :
    (∀ a c, HandsOver env files arguments a c →
      ∃ given file, (∀ given', Written none arguments given' ↔ given' = given)
        ∧ Told env given a ∧ LoadedFrom env files a.config file
        ∧ c = { file with server := { file.server with
            listenAddress := a.listen.or file.server.listenAddress } }
        ∧ c.validate = .ok ()
        ∧ ∀ s, Server.bare c = .ok s → s.listenAddress
            = (a.listen.or file.server.listenAddress).getD ⟨.v4 ⟨0, 0, 0, 0⟩, 3000⟩)
    ∧ ∀ env', SameAtStart files arguments env env' →
      start env' files arguments = start env files arguments
        ∧ ∀ bound, run env' files bound arguments = run env files bound arguments := by
  refine ⟨fun a c h => ?_, fun env' hsame => ?_⟩
  · obtain ⟨ha, hc⟩ := h.steps
    obtain ⟨given, hgiven, htold⟩ := exists_written_iff ha
    obtain ⟨file, hfile, hlisten⟩ := Template.bind_eq_ok_iff.mp hc
    obtain ⟨hloaded, hvalid⟩ := loadedFrom_of_loadConfig hfile
    have hc' := (Except.ok.inj hlisten).symm.trans (withListen_eq file a.listen)
    refine ⟨given, file, hgiven, htold, hloaded, hc', ?_, fun s hs => ?_⟩
    · rw [hc']
      exact hvalid
    · obtain ⟨registered, -, hs⟩ := Template.bind_eq_ok_iff.mp hs
      cases hs
      rw [hc']
      rfl
  · have hstart := start_congr hsame
    refine ⟨hstart, fun bound => ?_⟩
    unfold run
    rw [hstart]

/-- A text that asks for a port. -/
def portText : String := "server.listen_address = '127.0.0.1:\x7b\x7benv.PORT\x7d\x7d'"

/-- An environment with a file, a port, and something in the variable of the address. -/
def portEnvironment (listen : List UInt8) : Environment :=
  ⟨[("DBFRONT_CONFIG", Utf8.encode "dbfront.toml"), ("PORT", Utf8.encode "8080"),
    ("DBFRONT_LISTEN", listen)]⟩

/-- The environment names a file, which asks for a port; the command line has another address, so
that what its variable holds does not matter, though it is none at all. -/
theorem settings_have_one_precedence_port :
    ∃ a c, HandsOver (portEnvironment (Utf8.encode "nowhere"))
        (fun _ => some (Utf8.encode portText)) ["--listen", "127.0.0.1:80"] a c
      ∧ a.config = some "dbfront.toml"
      ∧ c.server.listenAddress = some ⟨.v4 ⟨127, 0, 0, 1⟩, 80⟩
      ∧ ∀ listen, start (portEnvironment listen) (fun _ => some (Utf8.encode portText))
            ["--listen", "127.0.0.1:80"]
          = start (portEnvironment (Utf8.encode "nowhere")) (fun _ => some (Utf8.encode portText))
            ["--listen", "127.0.0.1:80"] := by
  have hread : (start (portEnvironment (Utf8.encode "nowhere"))
        (fun _ => some (Utf8.encode portText)) ["--listen", "127.0.0.1:80"]).toOption.map
          (fun s => (s.arguments.config, s.config.server.listenAddress))
      = some (some "dbfront.toml", some ⟨.v4 ⟨127, 0, 0, 1⟩, 80⟩) := by
    decide +kernel
  obtain ⟨⟨a, c, s⟩, hstart, hends⟩ := Server.exists_eq_ok_of_map_toOption hread
  obtain ⟨hpath, haddress⟩ := Prod.mk.inj hends
  have hspared := (settings_have_one_precedence (portEnvironment (Utf8.encode "nowhere"))
    (fun _ => some (Utf8.encode portText)) ["--listen", "127.0.0.1:80"]).2
  refine ⟨a, c, .built hstart, hpath, haddress, fun listen => (hspared _ ?_).1⟩
  intro given hgiven name
  have hwritten : Written none ["--listen", "127.0.0.1:80"] [(.listen, "127.0.0.1:80")] :=
    .named (.long .listen) (.value (.inl (by decide)) .nil)
  obtain rfl := hgiven.unique hwritten
  by_cases hname : name = "DBFRONT_LISTEN"
  · subst hname
    refine .inr ⟨⟨.listen, _, List.mem_cons_self, rfl⟩, fun hasks => ?_⟩
    cases hasks with
    | @file _ _ text _ _ htext hasks =>
        have hsame : text = portText := by
          unfold Config.fileText at htext
          have hdecoded := Config.eq_ok_of_mapError htext
          rw [Utf8.decodeText_eq_ok_iff.mpr rfl] at hdecoded
          exact (Except.ok.inj hdecoded).symm
        have hasked := Template.mem_variableNames_iff.mpr ⟨hasks, by decide⟩
        rw [hsame] at hasked
        revert hasked
        decide +kernel
  · left
    have hother : (name == "DBFRONT_LISTEN") = false := beq_eq_false_iff_ne.mpr hname
    simp only [portEnvironment, Environment.bytes?, List.lookup_cons, hother]

end CommandLine

end ErrorContract
