/-
  ErrorContract.Proofs.Commanded
  ──────────────────────────────
  **WHAT A COMMAND LINE GIVES.**

  `Written none arguments given` says which options stand on a command line
  and with which values, in the order in which they are written: a value
  stands behind its option, or in the same argument.  Nothing is said there
  of what the values mean, nor of the reader, which settles an option only
  when the next one comes.

  Main statement `readArguments_eq_ok_iff`: the reader gives exactly the
  options that are written, and fails if one of them is given twice or has
  no value of its kind.  `gives_giveAll` is what such values come to.
-/
import ErrorContract.CommandLine.Arguments
import ErrorContract.Proofs.Expansion

namespace ErrorContract.CommandLine

open ErrorContract

/-! ## §1. Written options. -/

/-- The long name of an option. -/
def Setting.longName : Setting → String
  | .config => "config"
  | .listen => "listen"
  | .logFilter => "log-filter"

/-- **An argument that holds an option and its value.** -/
inductive Joins : String → Setting → String → Prop where
  | long (setting : Setting) (value : String) :
      Joins ("--" ++ setting.longName ++ "=" ++ value) setting value
  | short (value : String) : Joins ("-c=" ++ value) .config value
  | attached {value : String} (hne : value ≠ "") (hequals : value.toList.head? ≠ some '=') :
      Joins ("-c" ++ value) .config value

/-- **An argument that is an option**, whose value is the next one. -/
inductive Names : String → Setting → Prop where
  | long (setting : Setting) : Names ("--" ++ setting.longName) setting
  | short : Names "-c" .config

/-- An argument that is no option: it does not begin with a hyphen, or is one. -/
def IsValue (argument : String) : Prop := argument.toList.head? ≠ some '-' ∨ argument = "-"

/-- **The options on a command line, and their values**; at its beginning an option may wait for
its value. -/
inductive Written : Option Setting → List String → List (Setting × String) → Prop where
  | nil : Written none [] []
  | escape : Written none ["--"] []
  | joined {argument : String} {setting : Setting} {value : String} {arguments : List String}
      {given : List (Setting × String)} (h : Joins argument setting value)
      (hrest : Written none arguments given) :
      Written none (argument :: arguments) ((setting, value) :: given)
  | named {argument : String} {setting : Setting} {arguments : List String}
      {given : List (Setting × String)} (h : Names argument setting)
      (hrest : Written (some setting) arguments given) :
      Written none (argument :: arguments) given
  | value {value : String} {setting : Setting} {arguments : List String}
      {given : List (Setting × String)} (h : IsValue value)
      (hrest : Written none arguments given) :
      Written (some setting) (value :: arguments) ((setting, value) :: given)

/-! ## §2. Shapes of arguments. -/

/-- **What an argument of a shape looks like.** -/
inductive Shaped (argument : String) : Shape → Prop where
  | escape (h : argument.toList = ['-', '-']) : Shaped argument .escape
  | long {name : List Char} (hne : name ≠ []) (hname : '=' ∉ name)
      (h : argument.toList = '-' :: '-' :: name) : Shaped argument (.long name none)
  | assigned {name value : List Char} (hname : '=' ∉ name)
      (h : argument.toList = '-' :: '-' :: (name ++ '=' :: value)) :
      Shaped argument (.long name (some (String.ofList value)))
  | short {c : Char} {cs : List Char} (hc : c ≠ '-') (h : argument.toList = '-' :: c :: cs) :
      Shaped argument (.short (c :: cs))
  | value (h : IsValue argument) : Shaped argument (.value argument)

/-- A name ends in front of the first equals sign, or with the argument. -/
theorem span_append {name behind : List Char} (h : '=' ∉ name)
    (hbehind : ∀ c ∈ behind.head?, c = '=') :
    (name ++ behind).span (· != '=') = (name, behind) := by
  have hname : ∀ c ∈ name, (c != '=') = true := fun c hc =>
    bne_iff_ne.mpr (ne_of_mem_of_not_mem hc h)
  have hstops : Template.Stops (· != '=') behind := fun c hc => by simpa using hbehind c hc
  rw [List.span_eq_takeWhile_dropWhile, Template.takeWhile_append_of_stops hname hstops,
    Template.dropWhile_append_of_stops hname hstops]

theorem span_of_not_mem {name : List Char} (h : '=' ∉ name) :
    name.span (· != '=') = (name, []) := by
  have hspan : (name ++ []).span (· != '=') = (name, []) := span_append h nofun
  rwa [List.append_nil] at hspan

theorem head?_equals (value : List Char) : ∀ c ∈ ('=' :: value).head?, c = '=' := by
  rintro c ⟨⟩
  rfl

/-- A text has no equals sign, or is cut at the first one. -/
theorem not_mem_or_exists_cut (cs : List Char) :
    '=' ∉ cs ∨ ∃ name value, '=' ∉ name ∧ cs = name ++ '=' :: value := by
  by_cases h : '=' ∈ cs
  · obtain ⟨name, value, hcs, hname⟩ := List.eq_append_cons_of_mem h
    exact .inr ⟨name, value, hname, hcs⟩
  · exact .inl h

theorem shape_of_shaped {argument : String} {sh : Shape} (h : Shaped argument sh) :
    shape argument = sh := by
  unfold shape
  cases h with
  | escape h =>
      rw [h]
      rfl
  | @long name hne hname h =>
      cases name with
      | nil => exact absurd rfl hne
      | cons c name =>
          rw [h]
          simp only [span_of_not_mem hname]
  | @assigned name value hname h =>
      have hspan := span_append hname (head?_equals value)
      rw [h]
      generalize name ++ '=' :: value = cs at hspan
      cases cs with
      | nil => cases hspan
      | cons c cs => simp only [hspan]
  | short hc h =>
      rw [h]
      split <;> simp_all
  | value h =>
      split <;> simp_all [IsValue]

theorem shaped_shape (argument : String) : Shaped argument (shape argument) := by
  unfold shape
  split
  · next h => exact .escape h
  · next cs hne h =>
      rcases not_mem_or_exists_cut cs with hname | ⟨name, value, hname, rfl⟩
      · simp only [span_of_not_mem hname]
        exact .long hne hname h
      · simp only [span_append hname (head?_equals value)]
        exact .assigned hname h
  · next c cs _ hc h => exact .short hc h
  · next hescape hlong hshort =>
      refine .value ?_
      rcases hcs : argument.toList with _ | ⟨c, _ | ⟨d, cs⟩⟩
      · exact .inl (by simp [hcs])
      · by_cases hc : c = '-'
        · exact .inr (String.toList_inj.mp (hcs.trans (by rw [hc]; rfl)))
        · exact .inl (by simpa [hcs] using hc)
      · refine .inl fun hhead => ?_
        rw [hcs] at hhead
        cases hhead
        exact hshort d cs hcs

/-- The option that an argument of a shape holds, and its value if that is there too. -/
def optionOf : Shape → Option (Setting × Option String)
  | .long name value =>
    match longOption name with
    | some (.takes setting) => some (setting, value)
    | _ => none
  | .short (c :: cs) =>
    match shortOption c with
    | some (.takes setting) => some (setting, attached cs)
    | _ => none
  | _ => none

theorem longOption_eq_some_iff {name : List Char} {setting : Setting} :
    longOption name = some (.takes setting) ↔ name = setting.longName.toList := by
  constructor
  · intro h
    unfold longOption at h
    split at h
    · next hname =>
        cases h
        exact hname
    · split at h
      · next hname =>
          cases h
          exact hname
      · split at h
        · next hname =>
            cases h
            exact hname
        · split at h <;> cases h
  · rintro rfl
    cases setting <;> decide

theorem shortOption_eq_some_iff {c : Char} {setting : Setting} :
    shortOption c = some (.takes setting) ↔ c = 'c' ∧ setting = .config := by
  unfold shortOption
  by_cases hc : c = 'c'
  · simp [hc, eq_comm]
  · by_cases hh : c = 'h' <;> simp [hc, hh]

/-- What stands behind a short name is its value, but for an equals sign in front. -/
theorem attached_eq_some_iff {cs : List Char} {value : String} :
    attached cs = some value ↔ cs = '=' :: value.toList
      ∨ cs = value.toList ∧ cs ≠ [] ∧ cs.head? ≠ some '=' := by
  cases cs with
  | nil => simp [attached]
  | cons c cs =>
      by_cases hc : c = '='
      · subst hc
        simp [attached, ← String.toList_inj]
      · have hattached : attached (c :: cs) = some (String.ofList (c :: cs)) := by
          unfold attached
          split <;> simp_all
        simp [hattached, hc, ← String.toList_inj]

theorem attached_eq_none_iff {cs : List Char} : attached cs = none ↔ cs = [] := by
  unfold attached
  split <;> simp_all

/-- **Which shapes hold an option.** -/
theorem optionOf_eq_some_iff {sh : Shape} {setting : Setting} {value : Option String} :
    optionOf sh = some (setting, value) ↔ sh = .long setting.longName.toList value
      ∨ setting = .config ∧ ∃ cs, sh = .short ('c' :: cs) ∧ attached cs = value := by
  constructor
  · intro h
    unfold optionOf at h
    split at h
    · split at h
      · next hoption =>
          cases h
          rw [longOption_eq_some_iff.mp hoption]
          exact .inl rfl
      · cases h
    · split at h
      · next hoption =>
          cases h
          obtain ⟨rfl, hsetting⟩ := shortOption_eq_some_iff.mp hoption
          exact .inr ⟨hsetting, _, rfl, rfl⟩
      · cases h
    · cases h
  · rintro (rfl | ⟨rfl, cs, rfl, rfl⟩)
    · simp [optionOf, longOption_eq_some_iff.mpr rfl]
    · rfl

/-- The arguments that hold an option and its value. -/
theorem joins_iff {argument : String} {setting : Setting} {value : String} :
    Joins argument setting value ↔ optionOf (shape argument) = some (setting, some value) := by
  rw [optionOf_eq_some_iff]
  constructor
  · intro h
    cases h with
    | long =>
        have hshape : Shaped ("--" ++ setting.longName ++ "=" ++ value)
            (.long setting.longName.toList (some (String.ofList value.toList))) := by
          refine .assigned ?_ (by simp)
          cases setting <;> decide
        rw [shape_of_shaped hshape, String.ofList_toList]
        exact .inl rfl
    | short =>
        have hshape : Shaped ("-c=" ++ value) (.short ('c' :: '=' :: value.toList)) :=
          .short (by decide) (by simp)
        rw [shape_of_shaped hshape]
        exact .inr ⟨rfl, _, rfl, attached_eq_some_iff.mpr (.inl rfl)⟩
    | attached hne hequals =>
        have hshape : Shaped ("-c" ++ value) (.short ('c' :: value.toList)) :=
          .short (by decide) (by simp)
        rw [shape_of_shaped hshape]
        exact .inr ⟨rfl, _, rfl, attached_eq_some_iff.mpr (.inr ⟨rfl, by simpa using hne, hequals⟩)⟩
  · have hshaped := shaped_shape argument
    rintro (hshape | ⟨rfl, cs, hshape, hvalue⟩)
    · rw [hshape] at hshaped
      cases hshaped with
      | @assigned _ cs _ hcs =>
          have hargument : argument = "--" ++ setting.longName ++ "=" ++ String.ofList cs :=
            String.toList_inj.mp (by simp [hcs])
          rw [hargument]
          exact .long setting _
    · rw [hshape] at hshaped
      cases hshaped with
      | short _ hcs =>
          rcases attached_eq_some_iff.mp hvalue with rfl | ⟨rfl, hne, hequals⟩
          · have hargument : argument = "-c=" ++ value :=
              String.toList_inj.mp (by simp [hcs])
            rw [hargument]
            exact .short value
          · have hargument : argument = "-c" ++ value :=
              String.toList_inj.mp (by simp [hcs])
            rw [hargument]
            exact .attached (by simpa using hne) hequals

/-- The arguments that are an option. -/
theorem names_iff {argument : String} {setting : Setting} :
    Names argument setting ↔ optionOf (shape argument) = some (setting, none) := by
  rw [optionOf_eq_some_iff]
  constructor
  · intro h
    cases h with
    | long =>
        have hshape : Shaped ("--" ++ setting.longName) (.long setting.longName.toList none) := by
          refine .long ?_ ?_ (by simp) <;> cases setting <;> decide
        exact .inl (shape_of_shaped hshape)
    | short => exact .inr ⟨rfl, [], rfl, rfl⟩
  · have hshaped := shaped_shape argument
    rintro (hshape | ⟨rfl, cs, hshape, hvalue⟩)
    · rw [hshape] at hshaped
      cases hshaped with
      | long _ _ hcs =>
          have hargument : argument = "--" ++ setting.longName :=
            String.toList_inj.mp (by simp [hcs])
          rw [hargument]
          exact .long setting
    · rw [hshape] at hshaped
      cases hshaped with
      | short _ hcs =>
          rw [attached_eq_none_iff.mp hvalue] at hcs
          have hargument : argument = "-c" := String.toList_inj.mp hcs
          rw [hargument]
          exact .short

theorem shape_eq_escape_iff {argument : String} : shape argument = .escape ↔ argument = "--" := by
  constructor
  · intro h
    have hshaped := shaped_shape argument
    rw [h] at hshaped
    cases hshaped with
    | escape h => exact String.toList_inj.mp h
  · rintro rfl
    exact shape_of_shaped (.escape rfl)

theorem isValue_iff {argument : String} :
    IsValue argument ↔ shape argument = .value argument := by
  refine ⟨fun h => shape_of_shaped (.value h), fun h => ?_⟩
  have hshaped := shaped_shape argument
  rw [h] at hshaped
  cases hshaped with
  | value h => exact h

/-! ## §3. Reading. -/

/-- The option that waits for its value. -/
def awaited : Pending → Option Setting
  | some (setting, none) => some setting
  | _ => none

theorem eq_of_awaited {p : Pending} {setting : Setting} (h : awaited p = some setting) :
    p = some (setting, none) := by
  rcases p with _ | ⟨other, _ | value⟩
  · cases h
  · cases h
    rfl
  · cases h

/-- The option that has its value, but is not given it yet. -/
def unsettled : Pending → List (Setting × String)
  | some (setting, some value) => [(setting, value)]
  | _ => []

/-- Give settings their values one after the other, each at most once. -/
def giveAll (g : Given) : List (Setting × String) → Except Fault Given
  | [] => .ok g
  | (setting, value) :: given => do giveAll (← g.giveOnce setting value) given

theorem giveAll_append_eq_ok_iff {g g' : Given} {given given' : List (Setting × String)} :
    giveAll g (given ++ given') = .ok g'
      ↔ ∃ next, giveAll g given = .ok next ∧ giveAll next given' = .ok g' := by
  induction given generalizing g with
  | nil => simp [giveAll]
  | cons entry given ih =>
      simp only [List.cons_append, giveAll, Template.bind_eq_ok_iff, ih]
      constructor
      · rintro ⟨first, hfirst, next, hnext, hrest⟩
        exact ⟨next, ⟨first, hfirst, hnext⟩, hrest⟩
      · rintro ⟨next, ⟨first, hfirst, hnext⟩, hrest⟩
        exact ⟨first, hfirst, next, hnext, hrest⟩

theorem giveAll_singleton (g : Given) (setting : Setting) (value : String) :
    giveAll g [(setting, value)] = g.giveOnce setting value := by
  show (g.giveOnce setting value >>= fun next => .ok next) = _
  cases g.giveOnce setting value <;> rfl

/-- Nothing is settled while an option waits for its value. -/
theorem settle_eq_ok_iff {g g' : Given} {p : Pending} :
    settle g p = .ok g' ↔ awaited p = none ∧ giveAll g (unsettled p) = .ok g' := by
  rcases p with _ | ⟨setting, _ | value⟩
  · simp [settle, awaited, unsettled, giveAll]
  · simp [settle, awaited]
  · rw [unsettled, giveAll_singleton]
    simp [settle, awaited]

/-- **What one argument leads to**: an option and its value are given, an option waits for its
value, or has it now. -/
inductive Reads (g : Given) (p : Pending) (argument : String) : Given × Pending → Prop where
  | joined {setting : Setting} {value : String} {g' : Given} (hawaited : awaited p = none)
      (h : Joins argument setting value)
      (hgive : giveAll g (unsettled p ++ [(setting, value)]) = .ok g') :
      Reads g p argument (g', none)
  | named {setting : Setting} {g' : Given} (hawaited : awaited p = none)
      (h : Names argument setting) (hgive : giveAll g (unsettled p) = .ok g') :
      Reads g p argument (g', some (setting, none))
  | value {setting : Setting} (hawaited : p = some (setting, none)) (h : IsValue argument) :
      Reads g p argument (g, some (setting, some argument))

/-- An argument that is no option and no value leads nowhere. -/
theorem not_reads {g : Given} {p : Pending} {argument : String}
    (hoption : optionOf (shape argument) = none) (hvalue : ∀ text, shape argument ≠ .value text)
    (result : Given × Pending) : ¬ Reads g p argument result := by
  intro h
  cases h with
  | joined _ h =>
      rw [joins_iff, hoption] at h
      cases h
  | named _ h =>
      rw [names_iff, hoption] at h
      cases h
  | value _ h => exact hvalue _ (isValue_iff.mp h)

theorem takeOption_eq_ok_iff {g : Given} {p : Pending} {setting : Setting} {value : Option String}
    {argument : String} (h : optionOf (shape argument) = some (setting, value))
    {result : Given × Pending} :
    takeOption g p setting value = .ok result ↔ Reads g p argument result := by
  unfold takeOption
  rw [Template.bind_eq_ok_iff]
  constructor
  · rintro ⟨next, hsettle, htake⟩
    obtain ⟨hawaited, hgive⟩ := settle_eq_ok_iff.mp hsettle
    cases value with
    | none =>
        cases htake
        exact .named hawaited (names_iff.mpr h) hgive
    | some value =>
        obtain ⟨last, honce, hlast⟩ := Template.bind_eq_ok_iff.mp htake
        cases hlast
        refine .joined hawaited (joins_iff.mpr h) ?_
        rw [giveAll_append_eq_ok_iff]
        exact ⟨next, hgive, (giveAll_singleton _ _ _).trans honce⟩
  · intro hreads
    cases hreads with
    | joined hawaited hjoins hgive =>
        cases h.symm.trans (joins_iff.mp hjoins)
        obtain ⟨next, hnext, honce⟩ := giveAll_append_eq_ok_iff.mp hgive
        rw [giveAll_singleton] at honce
        exact ⟨next, settle_eq_ok_iff.mpr ⟨hawaited, hnext⟩,
          Template.bind_eq_ok_iff.mpr ⟨_, honce, rfl⟩⟩
    | named hawaited hnames hgive =>
        cases h.symm.trans (names_iff.mp hnames)
        exact ⟨_, settle_eq_ok_iff.mpr ⟨hawaited, hgive⟩, rfl⟩
    | value _ hvalue =>
        rw [isValue_iff.mp hvalue] at h
        cases h

/-- Who asks for help is not told anything else. -/
theorem bind_error_ne_ok {α β : Type} (settled : Except Fault α) (fault : Fault) (b : β) :
    (settled >>= fun _ => .error fault) ≠ .ok b := by
  cases settled <;> nofun

/-- **One step of the reader.** -/
theorem readArgument_eq_ok_iff {g : Given} {p : Pending} {argument : String}
    (hescape : shape argument ≠ .escape) {result : Given × Pending} :
    readArgument g p argument = .ok result ↔ Reads g p argument result := by
  unfold readArgument
  cases hoption : optionOf (shape argument) with
  | some taken =>
      -- the argument is an option that takes a value, long or short
      obtain ⟨setting, value⟩ := taken
      rw [← takeOption_eq_ok_iff hoption]
      rcases optionOf_eq_some_iff.mp hoption with hshape | ⟨rfl, cs, hshape, rfl⟩
      · rw [hshape]
        simp only [longOption_eq_some_iff.mpr rfl]
      · rw [hshape]
        rfl
  | none =>
      cases hshape : shape argument with
      | escape => exact absurd hshape hescape
      | value text =>
          have hshaped := shaped_shape argument
          rw [hshape] at hshaped
          cases hshaped with
          | value hvalue =>
              constructor
              · intro h
                dsimp only at h
                split at h
                · cases h
                  exact .value rfl hvalue
                · cases h
              · intro h
                cases h with
                | joined _ h =>
                    rw [joins_iff, hoption] at h
                    cases h
                | named _ h =>
                    rw [names_iff, hoption] at h
                    cases h
                | value hawaited _ => rw [hawaited]
      | long name value =>
          refine iff_of_false (fun h => ?_) (not_reads hoption (by simp [hshape]) result)
          rw [hshape] at hoption
          unfold optionOf at hoption
          dsimp only at hoption h
          split at h
          · next hlong =>
              rw [hlong] at hoption
              cases hoption
          · cases h
          · exact absurd h (bind_error_ne_ok _ _ _)
          · cases h
      | short names =>
          refine iff_of_false (fun h => ?_) (not_reads hoption (by simp [hshape]) result)
          rw [hshape] at hoption
          cases names with
          | nil => cases h
          | cons c cs =>
              unfold optionOf at hoption
              dsimp only at hoption h
              split at h
              · next hshort =>
                  rw [hshort] at hoption
                  cases hoption
              · exact absurd h (bind_error_ne_ok _ _ _)
              · cases h

/-- Nothing is written behind two hyphens. -/
theorem Written.of_escape {waiting : Option Setting} {arguments : List String}
    {given : List (Setting × String)} (h : Written waiting ("--" :: arguments) given) :
    waiting = none ∧ arguments = [] ∧ given = [] := by
  have hescape : shape "--" = .escape := by decide
  generalize hline : "--" :: arguments = line at h
  cases h with
  | nil => cases hline
  | escape =>
      cases hline
      exact ⟨rfl, rfl, rfl⟩
  | joined h =>
      cases hline
      rw [joins_iff, hescape] at h
      cases h
  | named h =>
      cases hline
      rw [names_iff, hescape] at h
      cases h
  | value h =>
      cases hline
      rw [isValue_iff, hescape] at h
      cases h

/-- **A command line is written in one way only.** -/
theorem Written.unique {waiting : Option Setting} {arguments : List String}
    {given given' : List (Setting × String)} (h : Written waiting arguments given)
    (h' : Written waiting arguments given') : given = given' := by
  induction h generalizing given' with
  | nil =>
      cases h'
      rfl
  | escape => exact h'.of_escape.2.2.symm
  | joined hjoins hrest ih =>
      rw [joins_iff] at hjoins
      cases h' with
      | escape => cases hjoins
      | joined hjoins' hrest' =>
          cases hjoins.symm.trans (joins_iff.mp hjoins')
          rw [ih hrest']
      | named hnames' => cases hjoins.symm.trans (names_iff.mp hnames')
  | named hnames hrest ih =>
      rw [names_iff] at hnames
      cases h' with
      | escape => cases hnames
      | joined hjoins' => cases hnames.symm.trans (joins_iff.mp hjoins')
      | named hnames' hrest' =>
          cases hnames.symm.trans (names_iff.mp hnames')
          exact ih hrest'
  | value hvalue hrest ih =>
      cases h' with
      | value _ hrest' => rw [ih hrest']

/-- **The reader gives what is written**, and succeeds only with options that are each given once
and have values of their kind. -/
theorem readArguments_eq_ok_iff {g g' : Given} {p : Pending} {arguments : List String} :
    readArguments g p arguments = .ok g'
      ↔ ∃ given, Written (awaited p) arguments given
        ∧ giveAll g (unsettled p ++ given) = .ok g' := by
  induction arguments generalizing g p with
  | nil =>
      rw [readArguments, settle_eq_ok_iff]
      constructor
      · rintro ⟨hawaited, hgive⟩
        exact ⟨[], hawaited ▸ .nil, by rwa [List.append_nil]⟩
      · rintro ⟨given, hwritten, hgive⟩
        generalize hawaited : awaited p = waiting at hwritten
        cases hwritten
        exact ⟨rfl, by rwa [List.append_nil] at hgive⟩
  | cons argument arguments ih =>
      unfold readArguments
      by_cases hescape : shape argument = .escape
      · -- behind two hyphens nothing may follow
        rw [if_pos hescape]
        obtain rfl := shape_eq_escape_iff.mp hescape
        cases arguments with
        | nil =>
            rw [List.isEmpty_nil, if_pos rfl, settle_eq_ok_iff]
            constructor
            · rintro ⟨hawaited, hgive⟩
              exact ⟨[], hawaited ▸ .escape, by rwa [List.append_nil]⟩
            · rintro ⟨given, hwritten, hgive⟩
              obtain ⟨hawaited, -, rfl⟩ := hwritten.of_escape
              exact ⟨hawaited, by rwa [List.append_nil] at hgive⟩
        | cons argument arguments =>
            refine iff_of_false nofun ?_
            rintro ⟨given, hwritten, -⟩
            cases hwritten.of_escape.2.1
      · rw [if_neg hescape, Template.bind_eq_ok_iff]
        constructor
        · rintro ⟨⟨next, p'⟩, hread, hrest⟩
          obtain ⟨given, hwritten, hgive⟩ := ih.mp hrest
          cases (readArgument_eq_ok_iff hescape).mp hread with
          | @joined setting value _ hawaited hjoins hfirst =>
              refine ⟨(setting, value) :: given, ?_, ?_⟩
              · rw [hawaited]
                exact .joined hjoins hwritten
              · rw [List.append_cons, giveAll_append_eq_ok_iff]
                exact ⟨next, hfirst, hgive⟩
          | named hawaited hnames hfirst =>
              refine ⟨given, ?_, giveAll_append_eq_ok_iff.mpr ⟨next, hfirst, hgive⟩⟩
              rw [hawaited]
              exact .named hnames hwritten
          | value hawaited hvalue =>
              subst hawaited
              exact ⟨_, .value hvalue hwritten, hgive⟩
        · rintro ⟨given, hwritten, hgive⟩
          generalize hawaited : awaited p = waiting at hwritten
          cases hwritten with
          | escape => exact absurd rfl hescape
          | joined hjoins hrest =>
              rw [List.append_cons, giveAll_append_eq_ok_iff] at hgive
              obtain ⟨next, hfirst, hgive⟩ := hgive
              exact ⟨_, (readArgument_eq_ok_iff hescape).mpr (.joined hawaited hjoins hfirst),
                ih.mpr ⟨_, hrest, hgive⟩⟩
          | named hnames hrest =>
              obtain ⟨next, hfirst, hgive⟩ := giveAll_append_eq_ok_iff.mp hgive
              exact ⟨_, (readArgument_eq_ok_iff hescape).mpr (.named hawaited hnames hfirst),
                ih.mpr ⟨_, hrest, hgive⟩⟩
          | value hvalue hrest =>
              obtain rfl := eq_of_awaited hawaited
              exact ⟨_, (readArgument_eq_ok_iff hescape).mpr (.value rfl hvalue),
                ih.mpr ⟨_, hrest, hgive⟩⟩

/-! ## §4. Given values. -/

/-- **A setting has a value**, or none: an address has that of a text which denotes it, and the
path of a file is not empty. -/
def Given.Takes (g : Given) : Setting → Option String → Prop
  | .config, value => g.config = value ∧ value ≠ some ""
  | .listen, value => g.listen.map some = value.map Net.SocketAddress.parse
  | .logFilter, value => g.logFilter = value

theorem Given.Takes.has {g : Given} {setting : Setting} {value : Option String}
    (h : g.Takes setting value) : g.has setting = value.isSome := by
  cases setting with
  | config => exact congrArg Option.isSome h.1
  | listen => simpa [Given.has] using congrArg Option.isSome h
  | logFilter => exact congrArg Option.isSome h

theorem Given.takes_none (setting : Setting) : ({} : Given).Takes setting none := by
  cases setting with
  | config => exact ⟨rfl, nofun⟩
  | listen => rfl
  | logFilter => rfl

/-- **What giving a value does**: the setting has it, and no other is touched. -/
structure Given.Gives (g : Given) (setting : Setting) (value : String) (g' : Given) : Prop where
  takes : g'.Takes setting (some value)
  others : ∀ other ≠ setting, g'.has other = g.has other
    ∧ ∀ old, g.Takes other old → g'.Takes other old

theorem Given.gives_give {g g' : Given} {setting : Setting} {value : String}
    (h : g.give value setting = .ok g') : g.Gives setting value g' := by
  cases setting with
  | config =>
      unfold give at h
      dsimp only at h
      split at h
      · cases h
      · next hne =>
          cases h
          refine ⟨⟨rfl, fun hempty => hne ?_⟩, fun other hother => ?_⟩
          · rw [Option.some.inj hempty]
            rfl
          · cases other with
            | config => exact absurd rfl hother
            | listen => exact ⟨rfl, fun _ hold => hold⟩
            | logFilter => exact ⟨rfl, fun _ hold => hold⟩
  | listen =>
      unfold give at h
      dsimp only at h
      split at h
      · next address hparse =>
          cases h
          refine ⟨congrArg some hparse.symm, fun other hother => ?_⟩
          cases other with
          | listen => exact absurd rfl hother
          | config => exact ⟨rfl, fun _ hold => hold⟩
          | logFilter => exact ⟨rfl, fun _ hold => hold⟩
      · cases h
  | logFilter =>
      cases h
      refine ⟨rfl, fun other hother => ?_⟩
      cases other with
      | logFilter => exact absurd rfl hother
      | config => exact ⟨rfl, fun _ hold => hold⟩
      | listen => exact ⟨rfl, fun _ hold => hold⟩

/-- A setting that has a value keeps one. -/
theorem Given.Gives.has {g g' : Given} {setting : Setting} {value : String}
    (h : g.Gives setting value g') {other : Setting} (hhas : g.has other = true) :
    g'.has other = true := by
  by_cases hother : other = setting
  · subst hother
    exact h.takes.has
  · rw [(h.others other hother).1, hhas]

/-- **What values come to that are given one after the other**: no setting had one before, none is
given two, and each has its own in the end. -/
structure GivesAll (g : Given) (given : List (Setting × String)) (g' : Given) : Prop where
  fresh : ∀ entry ∈ given, g.has entry.1 = false
  once : (given.map Prod.fst).Nodup
  takes : ∀ entry ∈ given, g'.Takes entry.1 (some entry.2)
  others : ∀ other ∉ given.map Prod.fst, ∀ old, g.Takes other old → g'.Takes other old

theorem givesAll_giveAll {g g' : Given} {given : List (Setting × String)}
    (h : giveAll g given = .ok g') : GivesAll g given g' := by
  induction given generalizing g with
  | nil =>
      cases h
      exact ⟨nofun, List.nodup_nil, nofun, fun _ _ _ hold => hold⟩
  | cons entry given ih =>
      obtain ⟨setting, value⟩ := entry
      obtain ⟨next, honce, hrest⟩ := Template.bind_eq_ok_iff.mp h
      unfold Given.giveOnce at honce
      split at honce
      · cases honce
      · next hfresh =>
          have hgives := Given.gives_give honce
          have hall := ih hrest
          -- The setting has a value now, so that it is not given another one.
          have hnew : setting ∉ given.map Prod.fst := by
            intro hmem
            obtain ⟨entry, hentry, rfl⟩ := List.mem_map.mp hmem
            have hhas := hall.fresh entry hentry
            rw [hgives.takes.has] at hhas
            cases hhas
          refine ⟨?_, ?_, ?_, ?_⟩
          · rw [List.forall_mem_cons]
            refine ⟨Bool.eq_false_iff.mpr hfresh, fun entry hentry => ?_⟩
            by_contra hhas
            have hkept := hgives.has (Bool.not_eq_false _ ▸ hhas)
            rw [hall.fresh entry hentry] at hkept
            cases hkept
          · rw [List.map_cons, List.nodup_cons]
            exact ⟨hnew, hall.once⟩
          · rw [List.forall_mem_cons]
            exact ⟨hall.others setting hnew _ hgives.takes, hall.takes⟩
          · intro other hother old hold
            rw [List.map_cons, List.mem_cons, not_or] at hother
            exact hall.others other hother.2 old ((hgives.others other hother.1).2 old hold)

end ErrorContract.CommandLine
