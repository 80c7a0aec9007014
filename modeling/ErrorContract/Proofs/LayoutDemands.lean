/-
  ErrorContract.Proofs.LayoutDemands
  ──────────────────────────────────
  **WHAT A LAYOUT DEMANDS OF A VALUE, ONE THING AFTER THE OTHER.**

  `demands schema layout tree` lists what must hold for a value to be
  accepted, in the order in which it is found out: that the values inside
  are accepted, that what was found fits, and that it has the form which the
  reader looks for.  The first demand that is not met decides what becomes
  of the value, if all its numbers and strings stand for something.
-/
import ErrorContract.Proofs.Verdict

namespace ErrorContract.Json

open ErrorContract

/-! ## §1. Outcomes. -/

/-- How reading can end, whatever is read and in whatever words it fails. -/
inductive Outcome where
  | accepted
  /-- What is found does not fit. -/
  | unfit
  /-- What is found is said to be ill-formed. -/
  | malformed
  deriving DecidableEq

/-- The outcome that a flaw leads to. -/
def Flaw.outcome : Flaw → Outcome
  | .misfit _ _ => .unfit
  | .meaningless | .mistaken => .malformed

/-- The outcome of a verdict. -/
def Verdict.outcome : Verdict α → Outcome
  | .ok _ => .accepted
  | .error flaw => flaw.outcome

/-- One outcome after another: what goes wrong first is what counts. -/
def Outcome.andThen : Outcome → Outcome → Outcome
  | .accepted, later => later
  | first, _ => first

/-- The outcome of a condition. -/
def Outcome.of (holds : Bool) (otherwise : Outcome) : Outcome :=
  if holds then .accepted else otherwise

section Outcomes

variable {α β : Type} {v : Verdict α} {w : α → Verdict β} {o o₁ o₂ o₃ : Outcome}

@[simp] theorem Outcome.andThen_accepted : Outcome.andThen o .accepted = o := by cases o <;> rfl

theorem Outcome.andThen_assoc :
    (o₁.andThen o₂).andThen o₃ = o₁.andThen (o₂.andThen o₃) := by cases o₁ <;> rfl

theorem Outcome.of_eq_accepted {holds : Bool} {otherwise : Outcome}
    (hotherwise : otherwise ≠ .accepted) :
    Outcome.of holds otherwise = .accepted ↔ holds = true := by
  cases holds with
  | true => exact ⟨fun _ => rfl, fun _ => rfl⟩
  | false => exact ⟨fun h => absurd h hotherwise, fun h => by cases h⟩

@[simp] theorem Verdict.outcome_misfit (m : Mismatch) :
    Verdict.outcome (misfit m : Verdict α) = .unfit := rfl

/-- **Verdicts one after the other have outcomes one after the other.** -/
theorem Verdict.outcome_bind (h : ∀ a, v = .ok a → (w a).outcome = o) :
    Verdict.outcome (v >>= w) = v.outcome.andThen o := by
  cases v with
  | ok a => exact h a rfl
  | error flaw => cases flaw <;> rfl

/-- What is made of a value that was accepted does not matter. -/
theorem Verdict.outcome_map {f : α → β} :
    Verdict.outcome (v >>= fun a => pure (f a)) = v.outcome := by
  cases v with
  | ok a => rfl
  | error flaw => rfl

@[simp] theorem Verdict.outcome_under (s : PathSegment) : (v.under s).outcome = v.outcome := by
  cases v with
  | ok a => rfl
  | error flaw => cases flaw <;> rfl

end Outcomes

/-! ## §2. Demands. -/

/-- Something that must hold for a value to be accepted. -/
inductive Demand (τ : Type) where
  /-- A value inside must be accepted as a layout. -/
  | value (layout : Layout τ) (t : Tree)
  /-- What is found must fit. -/
  | fit (holds : Bool)
  /-- What is found must have the form that is looked for. -/
  | form (holds : Bool)

/-- A field that a list of values may be too short for. -/
def Field.isDispensable (field : Field τ) : Bool :=
  match field.presence with
  | .optional | .defaulted _ => true
  | .required | .nullable => false

/-- A field that must be named. -/
def Field.isRequired (field : Field τ) : Bool :=
  match field.presence with
  | .required => true
  | _ => false

/-- What a field demands of a value. -/
def Field.demands (schema : Schema τ) (field : Field τ) (t : Tree) : List (Demand τ) :=
  match field.presence, t with
  | .nullable, .null | .optional, .null => []
  | _, t => [.value (schema field.type) t]

/-- What fields demand of values in their order. -/
def listedDemands (schema : Schema τ) : List (Field τ) → List Tree → List (Demand τ)
  | field :: fields, t :: ts => field.demands schema t ++ listedDemands schema fields ts
  | fields, [] => [.fit (fields.all Field.isDispensable)]
  | [], _ => []

/-- The text of a string, if it is one. -/
def StringToken.name (token : StringToken) : String := (StringToken.text? token).getD ""

/-- What a record demands of its members; `seen` are the fields that were there before. -/
def namedDemands (schema : Schema τ) (fields : List (Field τ)) (closed : Bool)
    (seen : List String) : List (StringToken × Tree) → List (Demand τ)
  | [] => [.fit (fields.all fun field => !field.isRequired || seen.contains field.name)]
  | (token, t) :: rest =>
    match fields.find? (·.name == token.name) with
    | none => .fit (!closed) :: namedDemands schema fields closed seen rest
    | some field =>
      .fit (!seen.contains token.name) :: (field.demands schema t
        ++ namedDemands schema fields closed (token.name :: seen) rest)

/-- What is demanded of a name that must be a number: a number in quotes, and one of the kind. -/
def keyDemands (kind : IntegerKind) (token : StringToken) : List (Demand τ) :=
  match StringToken.number? token with
  | none => [.form false]
  | some (.int i, behind) => [.fit (kind.holds i), .form (behind == [0x22])]
  | some _ => [.fit false]

/-- Is the variant given by its bare name? -/
def Variant.isBare (variant : Variant τ) : Bool :=
  match variant.payload with
  | .bare => true
  | _ => false

/-- What a choice demands of the members of an object: that there is one, with the name of a
variant and with its value, and no other. -/
def soleDemands (schema : Schema τ) (variants : List (Variant τ)) :
    List (StringToken × Tree) → List (Demand τ)
  | [] => [.form false]
  | (token, t) :: rest =>
    match variants.find? (·.name == token.name) with
    | none => [.fit false]
    | some variant => [.value (variant.payload.layout schema) t, .form rest.isEmpty]

/-- **What a layout demands of a value**, in the order in which it is found out. -/
def demands (schema : Schema τ) : Layout τ → Tree → List (Demand τ)
  | .any, _ | .raw, _ => []
  | .text, .string _ => []
  | .truth, .truth _ => []
  | .unit, .null => []
  | .integer kind, .number n =>
    match n.value? with
    | some (.int i) => [.fit (kind.holds i)]
    | _ => [.fit false]
  | .list element, .list its => its.values.map (.value (schema element))
  | .tuple _ _ types, .list its =>
    List.zipWith (fun type t => .value (schema type) t) types its.values
      ++ [.fit (types.length ≤ its.values.length), .form (its.values.length ≤ types.length)]
  | .record _ fields _, .list its =>
    listedDemands schema fields its.values ++ [.form (its.values.length ≤ fields.length)]
  | .record _ fields closed, .object members =>
    namedDemands schema fields closed [] members.entries
  | .table .text element, .object members =>
    members.entries.map fun e => .value (schema element) e.2
  | .table (.number kind) element, .object members =>
    members.entries.flatMap fun e => keyDemands kind e.1 ++ [.value (schema element) e.2]
  | .choice variants, .string token =>
    [.fit ((variants.find? (·.name == token.name)).any Variant.isBare)]
  | .choice variants, .object members => soleDemands schema variants members.entries
  -- Only a string or an object can choose a variant.
  | .choice _, _ => [.form false]
  -- The value is kept aside as it stands and fitted when it has been read.
  | .tagged title tag variants, t => [.fit (judge schema (.tagged title tag variants) t).isOk]
  | _, _ => [.fit false]

/-- The outcome of a single demand. -/
def Demand.outcome (schema : Schema τ) : Demand τ → Outcome
  | .value layout t => (judge schema layout t).outcome
  | .fit holds => .of holds .unfit
  | .form holds => .of holds .malformed

/-- **The outcome of demands one after the other.** -/
def settle (schema : Schema τ) : List (Demand τ) → Outcome
  | [] => .accepted
  | d :: ds => (d.outcome schema).andThen (settle schema ds)

theorem settle_append (schema : Schema τ) (ds es : List (Demand τ)) :
    settle schema (ds ++ es) = (settle schema ds).andThen (settle schema es) := by
  induction ds with
  | nil => rfl
  | cons d ds ih =>
      show (d.outcome schema).andThen (settle schema (ds ++ es)) = _
      rw [ih, ← Outcome.andThen_assoc]
      rfl

theorem settle_singleton (schema : Schema τ) (d : Demand τ) :
    settle schema [d] = d.outcome schema := Outcome.andThen_accepted

/-- Demands are met one after the other if each of them is. -/
theorem settle_eq_accepted_iff {schema : Schema τ} {ds : List (Demand τ)} :
    settle schema ds = .accepted ↔ ∀ d ∈ ds, d.outcome schema = .accepted := by
  induction ds with
  | nil => simp [settle]
  | cons d ds ih =>
      rw [settle, List.forall_mem_cons, ← ih]
      cases d.outcome schema <;> simp [Outcome.andThen]

/-! ## §3. Loops. -/

section Loops

variable {schema : Schema τ}

theorem outcome_meaning (o : Option α) :
    (meaning o).outcome = Outcome.of o.isSome .malformed := by cases o <;> rfl

theorem outcome_judgeItems (layout : Layout τ) :
    ∀ (its : Items) (position : Nat) (before : List Value),
      (judgeItems schema layout position before its).outcome
        = settle schema (its.values.map (.value layout))
  | .nil _, position, before => by rw [judgeItems]; rfl
  | .cons _ _ value rest, position, before => by
      rw [judgeItems, Verdict.outcome_bind fun v _ => outcome_judgeItems layout rest _ _,
        Verdict.outcome_under]
      rfl

theorem outcome_judgeFixed (title : String) :
    ∀ (its : Items) (types : List τ) (position : Nat),
      (judgeFixed schema title position types its).outcome
        = settle schema (List.zipWith (fun type t => .value (schema type) t) types its.values
          ++ [.fit (types.length ≤ its.values.length)])
  | .nil _, [], position => by rw [judgeFixed]; rfl
  | .nil _, type :: types, position => by rw [judgeFixed]; rfl
  | .cons _ _ value rest, [], position => by rw [judgeFixed]; rfl
  | .cons _ _ value rest, type :: types, position => by
      rw [judgeFixed, Verdict.outcome_bind fun v _ =>
        Verdict.outcome_map.trans (outcome_judgeFixed title rest types _), Verdict.outcome_under]
      simp only [Items.values, List.length_cons, Nat.add_le_add_iff_right]
      rfl

theorem meaning_of_isSome {token : StringToken} (h : (StringToken.text? token).isSome = true) :
    meaning (StringToken.text? token) = .ok token.name := by
  obtain ⟨name, htext⟩ := Option.isSome_iff_exists.mp h
  rw [StringToken.name, htext]
  rfl

/-- What a field makes of a value is settled by what it demands. -/
theorem outcome_judgeField (field : Field τ) (t : Tree) :
    (judgeField schema field t).outcome = settle schema (field.demands schema t) := by
  have hvalue : (judge schema (schema field.type) t).outcome
      = settle schema [.value (schema field.type) t] :=
    (settle_singleton schema (.value (schema field.type) t)).symm
  unfold judgeField Field.orNull Field.demands
  cases field.presence with
  | required => exact hvalue
  | defaulted v => exact hvalue
  | nullable | optional =>
      cases t with
      | null => rfl
      | _ => exact hvalue

theorem outcome_judgeShort (title : String) (position : Nat) (fields : List (Field τ)) :
    (judgeShort title position fields).outcome
      = Outcome.of (fields.all Field.isDispensable) .unfit := by
  induction fields generalizing position with
  | nil => rfl
  | cons field fields ih =>
      have hrest : ∀ v : Value, Verdict.outcome (do
          return (field.name, v) :: (← judgeShort title (position + 1) fields))
            = Outcome.of (fields.all Field.isDispensable) .unfit := fun v =>
        Verdict.outcome_map.trans (ih (position + 1))
      unfold judgeShort Field.isDispensable
      rw [List.all_cons]
      cases field.presence with
      | required | nullable => rfl
      | optional => exact hrest .null
      | defaulted v => exact hrest v

theorem outcome_judgePositional (title : String) :
    ∀ (its : Items) (fields : List (Field τ)) (position : Nat),
      (judgePositional schema title position fields its).outcome
        = settle schema (listedDemands schema fields its.values)
  | .nil _, fields, position => by
      rw [judgePositional, outcome_judgeShort]
      cases fields <;> exact (settle_singleton schema (.fit _)).symm
  | .cons _ _ value rest, [], position => by rw [judgePositional]; rfl
  | .cons _ _ value rest, field :: fields, position => by
      rw [judgePositional, Verdict.outcome_bind fun v _ =>
        Verdict.outcome_map.trans (outcome_judgePositional title rest fields _),
        Verdict.outcome_under]
      show (judgeField schema field value).outcome.andThen _ = _
      rw [outcome_judgeField, ← settle_append]
      rfl

theorem contains_map_fst (name : String) (read : List (String × Value)) :
    (read.map Prod.fst).contains name = (read.lookup name).isSome := by
  induction read with
  | nil => rfl
  | cons entry read ih =>
      rw [List.map_cons, List.contains_cons, List.lookup_cons, ih]
      cases name == entry.1 <;> rfl

theorem outcome_judgeComplete (read : List (String × Value)) (fields : List (Field τ)) :
    (judgeComplete read fields).outcome = Outcome.of (fields.all fun field =>
      !field.isRequired || (read.map Prod.fst).contains field.name) .unfit := by
  induction fields with
  | nil => rfl
  | cons field fields ih =>
      have hrest : ∀ v : Value, Verdict.outcome (do
          return (field.name, v) :: (← judgeComplete read fields)) = _ := fun v =>
        Verdict.outcome_map.trans ih
      unfold judgeComplete Field.isRequired
      rw [List.all_cons, contains_map_fst]
      cases read.lookup field.name with
      | some v => cases field.presence <;> exact hrest v
      | none =>
          cases field.presence with
          | required => rfl
          | defaulted v => exact hrest v
          | nullable | optional => exact hrest .null

/-- The members of a record, and then its missing fields, are settled by what it demands. -/
theorem outcome_judgeNamed (fields : List (Field τ)) (closed : Bool) :
    ∀ (members : Members) (before : List (String × Value)),
      (∀ e ∈ members.entries, (StringToken.text? e.1).isSome = true) →
      Verdict.outcome (judgeNamed schema fields closed before members
          >>= fun read => judgeComplete read fields)
        = settle schema (namedDemands schema fields closed (before.map Prod.fst) members.entries)
  | .nil _, before, hnames => by
      rw [judgeNamed]
      exact (outcome_judgeComplete before fields).trans (settle_singleton schema (.fit _)).symm
  | .cons _ _ token _ _ value rest, before, hnames => by
      obtain ⟨htoken, hrest⟩ := List.forall_mem_cons.mp hnames
      have hlater := fun before' => outcome_judgeNamed fields closed rest before' hrest
      have htext : StringToken.text? token = some token.name := by
        obtain ⟨name, htext⟩ := Option.isSome_iff_exists.mp htoken
        rw [StringToken.name, htext]
        rfl
      show _ = settle schema (namedDemands schema fields closed _ ((token, value) :: rest.entries))
      unfold namedDemands
      cases hfield : fields.find? (·.name == token.name) with
      | none =>
          rw [judgeNamed_unknown htext hfield]
          cases closed with
          | true => rfl
          | false => exact hlater before
      | some field =>
          dsimp only
          rw [contains_map_fst]
          by_cases hduplicate : (before.lookup token.name).isSome = true
          · rw [judgeNamed_duplicate htext hfield hduplicate, hduplicate]
            rfl
          · rw [judgeNamed_field htext hfield hduplicate, bind_assoc,
              Verdict.outcome_bind (o := settle schema (namedDemands schema fields closed
                (token.name :: before.map Prod.fst) rest.entries))
                fun v _ => hlater ((token.name, v) :: before),
              Verdict.outcome_under, outcome_judgeField, Bool.eq_false_iff.mpr hduplicate]
            exact (settle_append schema _ _).symm

/-- Members with free names are settled by their names and their values. -/
theorem outcome_judgeFree (layout : Layout τ) :
    ∀ (members : Members) (before : List (String × Value)),
      (judgeFree schema layout before members).outcome = settle schema (members.entries.flatMap
        fun e => [.form (StringToken.text? e.1).isSome, .value layout e.2])
  | .nil _, before => by rw [judgeFree]; rfl
  | .cons _ _ token _ _ value rest, before => by
      have hvalue : ∀ name : String, Verdict.outcome (do
          let v ← (judge schema layout value).under (.field name)
          judgeFree schema layout ((name, v) :: before) rest)
            = (judge schema layout value).outcome.andThen (settle schema (rest.entries.flatMap
                fun e => [.form (StringToken.text? e.1).isSome, .value layout e.2])) := by
        intro name
        rw [Verdict.outcome_bind fun v _ => outcome_judgeFree layout rest _, Verdict.outcome_under]
      rw [judgeFree, Verdict.outcome_bind fun name _ => hvalue name, outcome_meaning]
      rfl

/-- Names that are texts are no matter. -/
theorem settle_named (layout : Layout τ) {entries : List (StringToken × Tree)}
    (hnames : ∀ e ∈ entries, (StringToken.text? e.1).isSome = true) :
    settle schema (entries.flatMap fun e =>
        [.form (StringToken.text? e.1).isSome, .value layout e.2])
      = settle schema (entries.map fun e => .value layout e.2) := by
  induction entries with
  | nil => rfl
  | cons e entries ih =>
      obtain ⟨he, hrest⟩ := List.forall_mem_cons.mp hnames
      rw [List.flatMap_cons, he]
      exact congrArg (Outcome.andThen (judge schema layout e.2).outcome) (ih hrest)

theorem outcome_judgeNumber_int (kind : IntegerKind) (i : Int) :
    (judgeNumber kind (.int i)).outcome = Outcome.of (kind.holds i) .unfit := by
  unfold judgeNumber IntegerKind.check
  by_cases h : kind.holds i = true
  · simp [h, Outcome.of, Verdict.outcome]
  · simp [h, Outcome.of]

theorem outcome_judgeKey (kind : IntegerKind) (token : StringToken) :
    (judgeKey kind token).outcome = settle schema (keyDemands kind token) := by
  unfold judgeKey keyDemands
  cases StringToken.number? token with
  | none => rfl
  | some found =>
      obtain ⟨v, behind⟩ := found
      cases v with
      | int i =>
          have hend : ∀ j : Int, Verdict.outcome (if behind = [0x22] then .ok j
              else .error .mistaken : Verdict Int) = Outcome.of (behind == [0x22]) .malformed := by
            intro j
            by_cases h : behind = [0x22]
            · simp [h, Outcome.of, Verdict.outcome]
            · simp [h, Outcome.of, Verdict.outcome, Flaw.outcome]
          show Verdict.outcome (Verdict.under _ (judgeNumber kind (.int i) >>= _)) = _
          rw [Verdict.outcome_under, Verdict.outcome_bind fun j _ => hend j,
            outcome_judgeNumber_int]
          exact congrArg _ Outcome.andThen_accepted.symm
      | _ => rfl

theorem outcome_judgeNumbered (kind : IntegerKind) (layout : Layout τ) :
    ∀ (members : Members) (before : List (Int × Value)),
      (judgeNumbered schema kind layout before members).outcome
        = settle schema
            (members.entries.flatMap fun e => keyDemands kind e.1 ++ [.value layout e.2])
  | .nil _, before => by rw [judgeNumbered]; rfl
  | .cons _ _ token _ _ value rest, before => by
      have hvalue : ∀ i : Int, Verdict.outcome (do
          let v ← (judge schema layout value).under (.field (Decimal.signedText i))
          judgeNumbered schema kind layout (insertEntry i v before) rest)
            = (judge schema layout value).outcome.andThen (settle schema
                (rest.entries.flatMap fun e => keyDemands kind e.1 ++ [.value layout e.2])) := by
        intro i
        rw [Verdict.outcome_bind fun v _ => outcome_judgeNumbered kind layout rest _,
          Verdict.outcome_under]
      have hkey : (judgeKey kind token).outcome = settle schema (keyDemands kind token) :=
        outcome_judgeKey kind token
      rw [judgeNumbered, Verdict.outcome_bind fun i _ => hvalue i, hkey]
      simp only [Members.entries, List.flatMap_cons, List.append_assoc, settle_append,
        settle_singleton, Demand.outcome]

end Loops

/-! ## §4. Values that stand for something. -/

mutual

/-- **Every number and every string in a value stands for something.** -/
def Tree.Meaningful : Tree → Prop
  | .null | .truth _ => True
  | .number n => n.value?.isSome
  | .string s => (StringToken.text? s).isSome
  | .list its => its.Meaningful
  | .object members => members.Meaningful

/-- Every number and every string in the elements stands for something. -/
def Items.Meaningful : Items → Prop
  | .nil _ => True
  | .cons _ _ value rest => value.Meaningful ∧ rest.Meaningful

/-- Every number and every string in the members stands for something. -/
def Members.Meaningful : Members → Prop
  | .nil _ => True
  | .cons _ _ token _ _ value rest =>
    (StringToken.text? token).isSome ∧ value.Meaningful ∧ rest.Meaningful

end

section Meaningful

variable {schema : Schema τ} {layout : Layout τ} {t : Tree}

theorem Items.meaningful_iff : ∀ its : Items, its.Meaningful ↔ ∀ u ∈ its.values, u.Meaningful
  | .nil _ => by simp [Items.Meaningful, Items.values]
  | .cons _ _ value rest => by
      rw [Items.Meaningful, Items.values, List.forall_mem_cons, rest.meaningful_iff]

theorem Members.meaningful_iff : ∀ members : Members, members.Meaningful ↔
    ∀ e ∈ members.entries, (StringToken.text? e.1).isSome = true ∧ e.2.Meaningful
  | .nil _ => by simp [Members.Meaningful, Members.entries]
  | .cons _ _ token _ _ value rest => by
      rw [Members.Meaningful, Members.entries, List.forall_mem_cons, rest.meaningful_iff, and_assoc]

/-- What stands inside a value that stands for something does so itself. -/
theorem Tree.Meaningful.of_mem_inside {u : Tree} (h : t.Meaningful) (hu : u ∈ t.inside) :
    u.Meaningful := by
  cases t with
  | list its => exact its.meaningful_iff.mp h u hu
  | object members =>
      obtain ⟨e, he, rfl⟩ := List.mem_map.mp hu
      exact (members.meaningful_iff.mp h e he).2
  | _ => cases hu

/-- A value without brackets stands for something if its leaf does. -/
theorem outcome_leafValue (hlist : ¬ ∃ its, t = .list its)
    (hobject : ¬ ∃ members, t = .object members) :
    t.leafValue.outcome = .accepted ↔ t.Meaningful := by
  have hmeaning : ∀ {α : Type} (o : Option α),
      (meaning o).outcome = .accepted ↔ o.isSome = true := by
    intro α o
    cases o <;> simp [meaning, Verdict.outcome, Flaw.outcome]
  cases t with
  | null => simp [Tree.leafValue, Tree.Meaningful, Verdict.outcome]
  | truth b => simp [Tree.leafValue, Tree.Meaningful, Verdict.outcome]
  | number n => exact hmeaning _
  | string s =>
      have hmap : (Tree.string s).leafValue.outcome = (meaning (StringToken.text? s)).outcome :=
        Verdict.outcome_map (f := Value.text)
      rw [hmap]
      exact hmeaning _
  | list its => exact absurd ⟨its, rfl⟩ hlist
  | object members => exact absurd ⟨members, rfl⟩ hobject

/-- **Any value is accepted if all in it stands for something.** The induction is on the brackets
that it opens. -/
theorem accepted_iff_meaningful {finished : List (String × Value) → List (String × Value)}
    (hfree : ∀ t, judge schema layout t = judgeAny schema layout finished t) :
    (judge schema layout t).outcome = .accepted ↔ t.Meaningful := by
  induction hdepth : t.depth using Nat.strongRecOn generalizing t with
  | _ depth ih =>
      subst hdepth
      have hinside : ∀ u ∈ t.inside, (judge schema layout u).outcome = .accepted ↔ u.Meaningful :=
        fun u hu => ih u.depth (Tree.lt_of_mem_inside hu).1 rfl
      have hleaf := outcome_leafValue (t := t)
      rw [hfree]
      cases t with
      | list its =>
          have hmap : (judgeAny schema layout finished (.list its)).outcome
              = (judgeItems schema layout 0 [] its).outcome := Verdict.outcome_map (f := Value.list)
          rw [hmap, outcome_judgeItems, settle_eq_accepted_iff, Tree.Meaningful,
            Items.meaningful_iff, List.forall_mem_map]
          exact ⟨fun h u hu => (hinside u hu).mp (h u hu),
            fun h u hu => (hinside u hu).mpr (h u hu)⟩
      | object members =>
          have hmap : (judgeAny schema layout finished (.object members)).outcome
              = (judgeFree schema layout [] members).outcome :=
            Verdict.outcome_map (f := fun found => Value.object (finished found))
          rw [hmap, outcome_judgeFree, settle_eq_accepted_iff, Tree.Meaningful,
            Members.meaningful_iff, List.forall_mem_flatMap]
          have hmember : ∀ e ∈ members.entries,
              (∀ d ∈ [Demand.form (StringToken.text? e.1).isSome, .value layout e.2],
                d.outcome schema = .accepted)
              ↔ (StringToken.text? e.1).isSome = true ∧ e.2.Meaningful := by
            intro e he
            rw [List.forall_mem_cons, List.forall_mem_singleton]
            exact and_congr (Outcome.of_eq_accepted (by decide))
              (hinside e.2 (List.mem_map_of_mem he))
          exact ⟨fun h e he => (hmember e he).mp (h e he),
            fun h e he => (hmember e he).mpr (h e he)⟩
      | _ => exact hleaf (by simp) (by simp)

/-- A value that stands for something is refused for what it is. -/
theorem outcome_refuse {α : Type} (ht : t.Meaningful) (expected : String) :
    (refuse expected t : Verdict α).outcome = .unfit := by
  have hleaf : (¬ ∃ its, t = .list its) → (¬ ∃ members, t = .object members) →
      Verdict.outcome (t.leafValue >>= fun a => (misfit (.wrongKind a.found expected) : Verdict α))
        = .unfit := by
    intro hlist hobject
    rw [Verdict.outcome_bind fun a _ => Verdict.outcome_misfit _,
      (outcome_leafValue hlist hobject).mpr ht]
    rfl
  cases t with
  | list its => rfl
  | object members => rfl
  | _ => exact hleaf (by simp) (by simp)

/-! ### Tagged choices. -/

theorem Verdict.ok_ne_malformed {α : Type} (a : α) :
    Verdict.outcome (.ok a : Verdict α) ≠ .malformed := nofun

theorem Verdict.misfit_ne_malformed {α : Type} (m : Mismatch) :
    Verdict.outcome (misfit m : Verdict α) ≠ .malformed := nofun

/-- Verdicts none of which says ill-formed do not say so together. -/
theorem Verdict.bind_ne_malformed {α β : Type} {v : Verdict α} {w : α → Verdict β}
    (hv : v.outcome ≠ .malformed) (hw : ∀ a, v = .ok a → (w a).outcome ≠ .malformed) :
    Verdict.outcome (v >>= w) ≠ .malformed := by
  cases v with
  | ok a => exact hw a rfl
  | error flaw => exact hv

theorem outcome_judgeName (ht : t.Meaningful) (names : List String) :
    (judgeName names t).outcome ≠ .malformed := by
  have hrefuse : (refuse "variant identifier" t : Verdict String).outcome ≠ .malformed := by
    rw [outcome_refuse ht]
    decide
  cases t with
  | string token =>
      refine Verdict.bind_ne_malformed (v := meaning (StringToken.text? token)) ?_ fun name _ => ?_
      · rw [meaning_of_isSome ht]
        exact Verdict.ok_ne_malformed _
      · by_cases hname : names.contains name = true
        · rw [if_pos hname]
          exact Verdict.ok_ne_malformed _
        · rw [if_neg hname]
          exact Verdict.misfit_ne_malformed _
  | _ => exact hrefuse

theorem accepted_judgeItems_raw {its : Items} (hits : its.Meaningful) (position : Nat)
    (before : List Value) :
    (judgeItems schema .raw position before its).outcome = .accepted := by
  rw [outcome_judgeItems, settle_eq_accepted_iff, List.forall_mem_map]
  exact fun u hu =>
    (accepted_iff_meaningful (judge_raw schema)).mpr (its.meaningful_iff.mp hits u hu)

theorem outcome_judgeTagged (tag : String) (names : List String) :
    ∀ (members : Members), members.Meaningful → ∀ (variant : Option String)
      (before : List (String × Value)),
      (judgeTagged schema tag names variant before members).outcome ≠ .malformed
  | .nil _, _, none, before => by
      rw [judgeTagged]
      exact Verdict.misfit_ne_malformed _
  | .nil _, _, some name, before => by
      rw [judgeTagged]
      exact Verdict.ok_ne_malformed _
  | .cons _ _ token _ _ value rest, hmembers, variant, before => by
      obtain ⟨htoken, hvalue, hrest⟩ := hmembers
      have hlater := outcome_judgeTagged tag names rest hrest
      rw [judgeTagged, meaning_of_isSome htoken]
      refine Verdict.bind_ne_malformed (Verdict.ok_ne_malformed _) fun name _ => ?_
      by_cases htag : (name == tag) = true
      · rw [if_pos htag]
        by_cases hduplicate : variant.isSome = true
        · rw [if_pos hduplicate]
          exact Verdict.misfit_ne_malformed _
        · rw [if_neg hduplicate]
          refine Verdict.bind_ne_malformed ?_ fun chosen _ => hlater (some chosen) before
          rw [Verdict.outcome_under]
          exact outcome_judgeName hvalue names
      · rw [if_neg htag]
        refine Verdict.bind_ne_malformed ?_ fun v _ => hlater variant ((name, v) :: before)
        rw [Verdict.outcome_under, (accepted_iff_meaningful (judge_raw schema)).mpr hvalue]
        decide

theorem outcome_judgeKept (tag : String) (variants : List (String × Kept)) (name : String)
    (content : Value) : (judgeKept tag variants name content).outcome ≠ .malformed := by
  unfold judgeKept
  cases variants.lookup name with
  | none => exact Verdict.misfit_ne_malformed _
  | some kept =>
      cases hfit : fit content kept with
      | error m => simp [hfit]
      | ok v => cases v <;> simp [hfit, Verdict.ok_ne_malformed]

/-- **A tagged choice is never taken for a fault of form.** -/
theorem outcome_judge_tagged (ht : t.Meaningful) (title tag : String)
    (variants : List (String × Kept)) :
    (judge schema (.tagged title tag variants) t).outcome ≠ .malformed := by
  by_cases hlist : ∃ its, t = .list its
  · obtain ⟨its, rfl⟩ := hlist
    rw [judge_tagged_list]
    refine Verdict.bind_ne_malformed ?_ fun x _ => outcome_judgeKept tag variants x.1 x.2
    cases its with
    | nil w =>
        rw [judgeTaggedItems]
        exact Verdict.misfit_ne_malformed _
    | cons leading before value rest =>
        rw [judgeTaggedItems]
        refine Verdict.bind_ne_malformed ?_ fun name _ => ?_
        · rw [Verdict.outcome_under]
          exact outcome_judgeName ht.1 _
        · refine Verdict.bind_ne_malformed ?_ fun vs _ => Verdict.ok_ne_malformed _
          rw [accepted_judgeItems_raw ht.2]
          decide
  by_cases hobject : ∃ members, t = .object members
  · obtain ⟨members, rfl⟩ := hobject
    rw [judge_tagged_object]
    exact Verdict.bind_ne_malformed (outcome_judgeTagged tag _ members ht none [])
      fun x _ => outcome_judgeKept tag variants x.1 (.object x.2)
  · rw [judge_tagged_of_ne hlist hobject, outcome_refuse ht]
    decide

end Meaningful

/-! ## §5. Every layout. -/

/-- Elements that are left over are found where the end of the list should be. -/
theorem outcome_surplus (schema : Schema τ) (a : α) (found expected : Nat) :
    Verdict.outcome (if expected < found then .error .mistaken else .ok a : Verdict α)
      = settle schema [.form (found ≤ expected)] := by
  rw [settle_singleton]
  by_cases h : expected < found
  · rw [if_pos h, decide_eq_false (Nat.not_le.mpr h)]
    rfl
  · rw [if_neg h, decide_eq_true (Nat.not_lt.mp h)]
    rfl

/-- Members that are left over are found where the end of the object should be. -/
theorem outcome_sole (schema : Schema τ) (a : α) (rest : List (StringToken × Tree)) :
    Verdict.outcome (if rest = [] then .ok a else .error .mistaken : Verdict α)
      = settle schema [.form rest.isEmpty] := by
  rw [settle_singleton]
  cases rest <;> rfl

theorem contains_map_name (variants : List (Variant τ)) (name : String) :
    (variants.map Variant.name).contains name = (variants.find? (·.name == name)).isSome := by
  induction variants with
  | nil => rfl
  | cons variant variants ih =>
      rw [List.map_cons, List.contains_cons, List.find?_cons, ih, BEq.comm]
      cases variant.name == name <;> rfl

/-- A name that is a text is looked up among the variants. -/
theorem judgeVariant_eq {variants : List (Variant τ)} {token : StringToken}
    (htoken : (StringToken.text? token).isSome = true) :
    judgeVariant variants token = match variants.find? (·.name == token.name) with
      | some variant => .ok variant
      | none => misfit (.unknownVariant token.name (variants.map Variant.name)) := by
  have hname : judgeName (variants.map Variant.name) (.string token)
      = if (variants.find? (·.name == token.name)).isSome then .ok token.name
        else misfit (.unknownVariant token.name (variants.map Variant.name)) := by
    show (meaning (StringToken.text? token) >>= fun name => _) = _
    rw [meaning_of_isSome htoken, ← contains_map_name]
    rfl
  unfold judgeVariant
  rw [hname]
  cases hfind : variants.find? (·.name == token.name) with
  | some variant =>
      show (match variants.find? (·.name == token.name) with
        | some variant => .ok variant
        | none => misfit _ : Verdict (Variant τ)) = _
      rw [hfind]
  | none => rfl

section Layouts

variable (schema : Schema τ) {t : Tree} (ht : t.Meaningful)

include ht

theorem outcome_judge_text :
    (judge schema .text t).outcome = settle schema (demands schema .text t) := by
  have hmap : (judge schema .text t).outcome = (judgeText "a string" t).outcome := by
    rw [judge_text]
    exact Verdict.outcome_map
  have hrefuse : (refuse "a string" t : Verdict String).outcome = .unfit := outcome_refuse ht _
  rw [hmap]
  cases t with
  | string token =>
      rw [judgeText, meaning_of_isSome ht]
      rfl
  | _ => exact hrefuse

theorem outcome_judge_integer (kind : IntegerKind) : (judge schema (.integer kind) t).outcome
    = settle schema (demands schema (.integer kind) t) := by
  have hmap : (judge schema (.integer kind) t).outcome = (judgeInteger kind t).outcome := by
    rw [judge_integer]
    exact Verdict.outcome_map
  have hrefuse : (refuse kind.name t : Verdict Int).outcome = .unfit := outcome_refuse ht _
  rw [hmap]
  cases t with
  | number n =>
      obtain ⟨v, hvalue⟩ := Option.isSome_iff_exists.mp ht
      rw [judgeInteger, demands, hvalue]
      cases v with
      | int i => exact (outcome_judgeNumber_int kind i).trans Outcome.andThen_accepted.symm
      | _ => rfl
  | _ => exact hrefuse

theorem outcome_judge_list (element : τ) : (judge schema (.list element) t).outcome
    = settle schema (demands schema (.list element) t) := by
  cases t with
  | list its =>
      rw [judge_list, demands, ← outcome_judgeItems _ its 0 []]
      exact Verdict.outcome_map
  | _ =>
      rw [judge_list_of_ne (by simp)]
      exact outcome_refuse ht _

theorem outcome_judge_tuple (title whole : String) (types : List τ) :
    (judge schema (.tuple title whole types) t).outcome
      = settle schema (demands schema (.tuple title whole types) t) := by
  cases t with
  | list its =>
      rw [judge_tuple]
      refine (Verdict.outcome_bind fun vs _ =>
        outcome_surplus schema (Value.list vs) its.values.length types.length).trans ?_
      rw [outcome_judgeFixed, ← settle_append, List.append_assoc]
      rfl
  | _ =>
      rw [judge_tuple_of_ne (by simp)]
      exact outcome_refuse ht _

theorem outcome_judge_record (title : String) (fields : List (Field τ)) (closed : Bool) :
    (judge schema (.record title fields closed) t).outcome
      = settle schema (demands schema (.record title fields closed) t) := by
  cases t with
  | list its =>
      rw [judge_record_list]
      refine (Verdict.outcome_bind fun read _ =>
        outcome_surplus schema (Value.object read) its.values.length fields.length).trans ?_
      rw [outcome_judgePositional, ← settle_append]
      rfl
  | object members =>
      have hnames : ∀ e ∈ members.entries, (StringToken.text? e.1).isSome = true :=
        fun e he => (members.meaningful_iff.mp ht e he).1
      rw [judge_record_object, demands, ← bind_assoc]
      exact Verdict.outcome_map.trans (outcome_judgeNamed fields closed members [] hnames)
  | _ =>
      rw [judge_record_of_ne (by simp) (by simp)]
      exact outcome_refuse ht _

theorem outcome_judge_table (key : Key) (element : τ) :
    (judge schema (.table key element) t).outcome
      = settle schema (demands schema (.table key element) t) := by
  cases t with
  | object members =>
      have hnames : ∀ e ∈ members.entries, (StringToken.text? e.1).isSome = true :=
        fun e he => (members.meaningful_iff.mp ht e he).1
      cases key with
      | text =>
          rw [judge_table_text, demands, ← settle_named _ hnames, ← outcome_judgeFree _ members []]
          exact Verdict.outcome_map
      | number kind =>
          rw [judge_table_number, demands, ← outcome_judgeNumbered kind _ members []]
          exact Verdict.outcome_map
  | _ =>
      rw [judge_table_of_ne (by simp)]
      cases key <;> exact outcome_refuse ht _

theorem outcome_judge_choice (variants : List (Variant τ)) :
    (judge schema (.choice variants) t).outcome
      = settle schema (demands schema (.choice variants) t) := by
  cases t with
  | string token =>
      rw [judge_choice_string, demands, judgeVariant_eq ht, settle_singleton]
      cases variants.find? (·.name == token.name) with
      | none => rfl
      | some variant =>
          show (judgeBare variant).outcome = Outcome.of variant.isBare .unfit
          unfold judgeBare Variant.isBare
          cases variant.payload <;> rfl
  | object members =>
      cases members with
      | nil w =>
          rw [judge_choice_object, judgeSole]
          rfl
      | cons leading before token beforeColon behindColon value rest =>
          rw [judge_choice_object, judgeSole, judgeVariant_eq ht.1]
          show _ = settle schema (soleDemands schema variants ((token, value) :: rest.entries))
          unfold soleDemands
          dsimp only
          cases variants.find? (·.name == token.name) with
          | none => rfl
          | some variant =>
              refine (Verdict.outcome_bind fun v _ =>
                outcome_sole schema (variant.withValue v) rest.entries).trans ?_
              rw [Verdict.outcome_under]
              rfl
  | _ =>
      rw [judge_choice_of_ne (by simp) (by simp)]
      rfl

/-- **The first demand that is not met decides what becomes of a value.** -/
theorem outcome_judge (layout : Layout τ) :
    (judge schema layout t).outcome = settle schema (demands schema layout t) := by
  cases layout with
  | any => exact (accepted_iff_meaningful (judge_any schema)).mpr ht
  | raw => exact (accepted_iff_meaningful (judge_raw schema)).mpr ht
  | text => exact outcome_judge_text schema ht
  | truth =>
      have hrefuse : (refuse "a boolean" t : Verdict Value).outcome = .unfit := outcome_refuse ht _
      rw [judge_truth]
      cases t with
      | truth b => rfl
      | _ => exact hrefuse
  | unit =>
      have hrefuse : (refuse "unit" t : Verdict Value).outcome = .unfit := outcome_refuse ht _
      rw [judge_unit]
      cases t with
      | null => rfl
      | _ => exact hrefuse
  | integer kind => exact outcome_judge_integer schema ht kind
  | list element => exact outcome_judge_list schema ht element
  | tuple title whole types => exact outcome_judge_tuple schema ht title whole types
  | record title fields closed => exact outcome_judge_record schema ht title fields closed
  | table key element => exact outcome_judge_table schema ht key element
  | choice variants => exact outcome_judge_choice schema ht variants
  | tagged title tag variants =>
      have hkept : (judge schema (.tagged title tag variants) t).outcome ≠ .malformed :=
        outcome_judge_tagged ht title tag variants
      rw [demands, settle_singleton, Demand.outcome]
      cases hjudge : judge schema (.tagged title tag variants) t with
      | ok v => rfl
      | error flaw =>
          rw [hjudge] at hkept
          cases flaw with
          | misfit m way => rfl
          | meaningless | mistaken => exact absurd rfl hkept

end Layouts

end ErrorContract.Json
