/-
  ErrorContract.Proofs.Produced
  ─────────────────────────────
  **WHAT WAS READ CAN BE SENT.**

  Whatever the bytes are, a reader of texts, numbers, lists, records and
  tables yields values of its layout only: numbers that fit their kind, fields
  in their order, tables in the order of their names.  So what comes out of a
  body is one of the values that are read back from their own text, as long
  as that text has no more nested brackets than may be open at once.

  An empty list that a body left out has brackets of its own when the value is
  sent, so a value may be sent one pair of brackets deeper than it was read.

  Main statement: `sent_values_are_read_back`.
-/
import Mathlib.Data.List.Nodup
import ErrorContract.Proofs.Continuation
import ErrorContract.Proofs.RoundTrip

namespace ErrorContract.Json

open ErrorContract

/-! ## §1. What readers yield. -/

section Yields

variable {α β : Type} {P : α → Prop} {Q : β → Prop} {read : Read α}

/-- **What one reader yields is what the next one is given.** -/
theorem Yields.bind {next : α → Read β} (h : Yields P read) (hnext : ∀ a, P a → Yields Q (next a)) :
    Yields Q (read >>= next) := by
  intro c b c' hrun
  obtain ⟨a, c₁, hread, hrest⟩ := exists_of_bind_ok hrun
  exact hnext a (h _ _ _ hread) _ _ _ hrest

theorem Yields.step (h : Yields P read) (ctx : Context) (s : Option PathSegment) :
    Yields P (ctx.step s read) := fun c a c' hrun => h c a c' (step_ok hrun)

theorem Yields.fixing (h : Yields P read) : Yields P (fixing read) :=
  fun c a c' hrun => h c a c' (ok_of_fixing_ok hrun)

theorem Yields.bracketed (h : Yields P read) (close : Read Unit) :
    Yields P (bracketed close read) := by
  intro c a c' hrun
  obtain ⟨c₁, hinside, -⟩ := bracketed_ok hrun
  exact h _ _ _ hinside

theorem Yields.opening {τ : Type} {inner : Inner τ} {inside : (Layout τ → Read Value) → Read α}
    (h : ∀ read, inner = some read → Yields P (inside read)) : Yields P (opening inner inside) := by
  intro c a c' hrun
  obtain ⟨read, hread, hinside⟩ := opening_ok hrun
  exact h read hread _ _ _ hinside

theorem yields_mismatch (m : Mismatch) : Yields P (mismatch m) := nofun

/-- Behind a mismatch nothing is yielded. -/
theorem yields_mismatch_bind (m : Mismatch) {next : α → Read β} : Yields Q (mismatch m >>= next) :=
  (yields_mismatch (P := fun _ => False) m).bind fun _ => False.elim

theorem yields_wrongKind (expected : String) (b : UInt8) : Yields P (wrongKind expected b) :=
  fun _ _ _ hrun => absurd hrun wrongKind_ne_ok

end Yields

/-! ## §2. Sorted members. -/

theorem mem_of_mem_insertMember {name : String} {v : Value} {members : List (String × Value)}
    {m : String × Value} (h : m ∈ insertMember name v members) : m = (name, v) ∨ m ∈ members := by
  induction members with
  | nil => exact .inl (List.mem_singleton.mp h)
  | cons n members ih =>
      obtain ⟨other, w⟩ := n
      unfold insertMember at h
      split at h
      · exact List.mem_cons.mp h
      · split at h
        · rcases List.mem_cons.mp h with h | h
          · exact .inl h
          · exact .inr (List.mem_cons_of_mem _ h)
        · rcases List.mem_cons.mp h with h | h
          · exact .inr (h ▸ List.mem_cons_self)
          · rcases ih h with h | h
            · exact .inl h
            · exact .inr (List.mem_cons_of_mem _ h)

/-- **A member that is put in its place leaves the names in order.** -/
theorem pairwise_insertMember {name : String} {v : Value} {members : List (String × Value)}
    (h : members.Pairwise fun m n => m.1 < n.1) :
    (insertMember name v members).Pairwise fun m n => m.1 < n.1 := by
  induction members with
  | nil => exact List.pairwise_singleton _ _
  | cons n members ih =>
      obtain ⟨other, w⟩ := n
      obtain ⟨hfirst, hrest⟩ := List.pairwise_cons.mp h
      unfold insertMember
      by_cases hbefore : name < other
      · rw [if_pos hbefore]
        apply List.pairwise_cons.mpr
        refine ⟨fun m hm => ?_, h⟩
        rcases List.mem_cons.mp hm with rfl | hm
        · exact hbefore
        · exact String.lt_trans hbefore (hfirst m hm)
      rw [if_neg hbefore]
      by_cases hsame : (name == other) = true
      · rw [if_pos hsame]
        obtain rfl := eq_of_beq hsame
        exact List.pairwise_cons.mpr ⟨hfirst, hrest⟩
      · -- The name is neither before the first one nor the same, so it is behind it.
        have hbehind : other < name := by
          apply String.not_le.mp
          intro hle
          apply hsame
          rw [String.le_antisymm hle (String.not_lt.mp hbefore)]
          exact beq_self_eq_true other
        rw [if_neg hsame]
        apply List.pairwise_cons.mpr
        refine ⟨fun m hm => ?_, ih hrest⟩
        rcases mem_of_mem_insertMember hm with rfl | hm
        · exact hbehind
        · exact hfirst m hm

/-- **Sorting puts members in the order of their names**, and adds none. -/
theorem sortMembers_sorts (members : List (String × Value)) :
    (sortMembers members).Pairwise (fun m n => m.1 < n.1)
      ∧ ∀ m ∈ sortMembers members, m ∈ members := by
  have hgo : ∀ (sorted rest : List (String × Value)),
      sorted.Pairwise (fun m n => m.1 < n.1) →
      (rest.foldl (fun sorted m => insertMember m.1 m.2 sorted) sorted).Pairwise
          (fun m n => m.1 < n.1)
        ∧ ∀ m ∈ rest.foldl (fun sorted m => insertMember m.1 m.2 sorted) sorted,
          m ∈ sorted ∨ m ∈ rest := by
    intro sorted rest
    induction rest generalizing sorted with
    | nil => exact fun h => ⟨h, fun m hm => .inl hm⟩
    | cons n rest ih =>
        intro hsorted
        have hinserted : (insertMember n.1 n.2 sorted).Pairwise (fun m n => m.1 < n.1) :=
          pairwise_insertMember hsorted
        obtain ⟨hpairwise, hmem⟩ := ih _ hinserted
        refine ⟨hpairwise, fun m hm => ?_⟩
        rcases hmem m hm with hm | hm
        · rcases mem_of_mem_insertMember hm with rfl | hm
          · exact .inr List.mem_cons_self
          · exact .inl hm
        · exact .inr (List.mem_cons_of_mem n hm)
  obtain ⟨hpairwise, hmem⟩ := hgo [] members .nil
  refine ⟨hpairwise, fun m hm => ?_⟩
  rcases hmem m hm with hm | hm
  · cases hm
  · exact hm

/-! ## §3. Values of plain layouts. -/

section Plain

variable {schema : Schema τ} {ctx : Context} {read : Layout τ → Read Value}

/-- A field that is not there has a value of its own, or has to be there. -/
def Field.Fills (schema : Schema τ) (f : Field τ) : Prop :=
  f.presence = .required ∨ ∃ v, f.presence = .defaulted v ∧ v.Of schema (schema f.type)

/-- **A layout is made of texts, numbers, lists, records and tables**, those inside its brackets
being among these types. -/
def Layout.Plain (schema : Schema τ) (types : List τ) : Layout τ → Prop
  | .text => True
  | .integer kind => kind.FitsWord
  | .list element => element ∈ types
  | .record _ fields _ => (fieldNames fields).Nodup ∧ ∀ f ∈ fields, f.type ∈ types ∧ f.Fills schema
  | .table .text element => element ∈ types
  | _ => False

theorem Field.Fills.neverNull {f : Field τ} (h : f.Fills schema) : f.NeverNull := by
  rcases h with h | ⟨v, h, -⟩
  · exact .inl h
  · exact .inr ⟨v, h⟩

theorem yields_fitInteger (kind : IntegerKind) (v : Value) :
    Yields (fun i => kind.holds i = true) (fitInteger kind v) := by
  unfold fitInteger
  split
  · next i =>
      unfold IntegerKind.check
      by_cases hholds : kind.holds i = true
      · rw [if_pos hholds]
        exact yields_pure hholds
      · rw [if_neg hholds]
        exact yields_mismatch _
  · exact yields_mismatch _

theorem yields_readInteger (kind : IntegerKind) :
    Yields (fun i => kind.holds i = true) (readInteger kind) := by
  refine yields_bind fun b => yields_ite ?_ (yields_ite ?_ (yields_wrongKind _ b))
  · exact (yields_bind fun _ => yields_bind fun v => yields_fitInteger kind v).fixing
  · exact (yields_bind fun v => yields_fitInteger kind v).fixing

theorem yields_items {P : Value → Prop} {element : Read Value} (hread : Yields P element)
    (rounds position : Nat) (before : List Value) (hbefore : ∀ v ∈ before, P v) :
    Yields (fun vs => ∀ v ∈ vs, P v) (items ctx element rounds position before) := by
  induction rounds generalizing position before with
  | zero => exact yields_failNext _
  | succ rounds ih =>
      unfold items
      refine yields_bind fun more => yields_ite ?_ ?_
      · refine (hread.step ctx _).bind fun v hv => ih _ _ ?_
        exact List.forall_mem_cons.mpr ⟨hv, hbefore⟩
      · apply yields_pure
        intro v hv
        exact hbefore v (List.mem_reverse.mp hv)

theorem yields_freeMembers {P : Value → Prop} {element : Read Value} (hread : Yields P element)
    (rounds : Nat) (first : Bool) (before : List (String × Value)) (hbefore : ∀ m ∈ before, P m.2) :
    Yields (fun members => ∀ m ∈ members, P m.2) (freeMembers ctx element rounds first before) := by
  induction rounds generalizing first before with
  | zero => exact yields_failNext _
  | succ rounds ih =>
      unfold freeMembers
      refine yields_bind fun o => ?_
      split
      · apply yields_pure
        intro m hm
        exact hbefore m (List.mem_reverse.mp hm)
      · refine yields_bind fun _ => (hread.step ctx _).bind fun v hv => ih _ _ ?_
        exact List.forall_mem_cons.mpr ⟨hv, hbefore⟩

/-! ### Records. -/

/-- Every member is a value of the field that has its name. -/
def Filled (schema : Schema τ) (fields : List (Field τ)) (members : List (String × Value)) : Prop :=
  ∀ m ∈ members, ∃ f ∈ fields, f.name = m.1 ∧ m.2.Of schema (schema f.type)

variable {fields : List (Field τ)}

theorem yields_readField {f : Field τ} (hf : f.NeverNull)
    (hread : Yields (Value.Of schema (schema f.type)) (read (schema f.type))) :
    Yields (Value.Of schema (schema f.type)) (readField schema read f) := by
  unfold readField
  rcases hf with h | ⟨v, h⟩
  · rw [h]
    exact hread
  · rw [h]
    exact hread

theorem Filled.cons {f : Field τ} {v : Value} {members : List (String × Value)} (hf : f ∈ fields)
    (hv : v.Of schema (schema f.type)) (h : Filled schema fields members) :
    Filled schema fields ((f.name, v) :: members) :=
  List.forall_mem_cons.mpr ⟨⟨f, hf, rfl, hv⟩, h⟩

theorem yields_namedFields {closed : Bool}
    (hread : ∀ f ∈ fields, Yields (Value.Of schema (schema f.type)) (readField schema read f))
    (rounds : Nat) (first : Bool) (before : List (String × Value))
    (hbefore : Filled schema fields before) :
    Yields (Filled schema fields)
      (namedFields schema ctx read fields closed rounds first before) := by
  induction rounds generalizing first before with
  | zero => exact yields_failNext _
  | succ rounds ih =>
      unfold namedFields
      refine yields_bind fun o => ?_
      split
      · exact yields_pure hbefore
      · next name =>
          obtain ⟨hnone, -⟩ | ⟨f, hf, hfield, rfl⟩ := find?_cases fields name
          · -- A member of no field is skipped and leaves nothing behind.
            rw [hnone]
            have hpassed : Yields (Filled schema fields) (do
                colon
                ctx.atField name (skipValue ctx.bound)
                namedFields schema ctx read fields closed rounds false before) :=
              yields_bind fun _ => yields_bind fun _ => ih _ _ hbefore
            exact yields_ite (yields_bind fun _ => hpassed) hpassed
          · rw [hfield]
            have htaken : Yields (Filled schema fields) (do
                colon
                let v ← ctx.atField f.name (readField schema read f)
                namedFields schema ctx read fields closed rounds false ((f.name, v) :: before)) :=
              yields_bind fun _ => ((hread f hf).step ctx _).bind fun v hv =>
                ih _ _ (hbefore.cons hf hv)
            exact yields_ite (yields_bind fun _ => htaken) htaken

/-- The members of a record: those of its fields, in their order. -/
def Fits (schema : Schema τ) (all fields : List (Field τ))
    (members : List (String × Value)) : Prop :=
  members.map Prod.fst = fieldNames fields ∧ Filled schema all members

theorem Fits.cons {all : List (Field τ)} {f : Field τ} {v : Value} {members : List (String × Value)}
    (hv : ∃ g ∈ all, g.name = f.name ∧ v.Of schema (schema g.type))
    (h : Fits schema all fields members) :
    Fits schema all (f :: fields) ((f.name, v) :: members) := by
  obtain ⟨hnames, hfilled⟩ := h
  exact ⟨congrArg (f.name :: ·) hnames, List.forall_mem_cons.mpr ⟨hv, hfilled⟩⟩

theorem yields_complete {all : List (Field τ)} {found : List (String × Value)}
    (hfound : Filled schema all found) (hfields : ∀ f ∈ fields, f ∈ all ∧ f.Fills schema) :
    Yields (Fits schema all fields) (complete found fields) := by
  induction fields with
  | nil => exact yields_pure ⟨rfl, nofun⟩
  | cons f fields ih =>
      have hrest := ih fun g hg => hfields g (List.mem_cons_of_mem f hg)
      have hwith : ∀ v : Value, (∃ g ∈ all, g.name = f.name ∧ v.Of schema (schema g.type)) →
          Yields (Fits schema all (f :: fields))
            (do return (f.name, v) :: (← complete found fields)) :=
        fun v hv => hrest.bind fun members hmembers => yields_pure (hmembers.cons hv)
      obtain ⟨hf, hfills⟩ := hfields f List.mem_cons_self
      unfold complete
      cases hlookup : found.lookup f.name with
      | some v =>
          -- What is found under the name was read for a field of that name.
          apply hwith v
          obtain ⟨before, behind, rfl, -⟩ := List.lookup_eq_some_iff.mp hlookup
          exact hfound (f.name, v) (List.mem_append_right _ List.mem_cons_self)
      | none =>
          rcases hfills with h | ⟨v, h, hv⟩
          · rw [h]
            exact yields_mismatch_bind _
          · rw [h]
            exact hwith v ⟨f, hf, rfl, hv⟩

theorem yields_positional {all : List (Field τ)} (title : String)
    (hread : ∀ f ∈ all, Yields (Value.Of schema (schema f.type)) (readField schema read f))
    (hfields : ∀ f ∈ fields, f ∈ all ∧ f.Fills schema) (position : Nat) :
    Yields (Fits schema all fields) (positional schema ctx read title position fields) := by
  induction fields generalizing position with
  | nil => exact yields_pure ⟨rfl, nofun⟩
  | cons f fields ih =>
      have hrest := ih (fun g hg => hfields g (List.mem_cons_of_mem f hg)) (position + 1)
      obtain ⟨hf, hfills⟩ := hfields f List.mem_cons_self
      have hwith : ∀ v : Value, v.Of schema (schema f.type) → Yields (Fits schema all (f :: fields))
          (do return (f.name, v) :: (← positional schema ctx read title (position + 1) fields)) :=
        fun v hv => hrest.bind fun members hmembers => yields_pure (hmembers.cons ⟨f, hf, rfl, hv⟩)
      unfold positional
      -- Either an element is read for the field, or the list has ended and it needs a default.
      refine yields_bind fun more => yields_ite ?_ ?_
      · exact ((hread f hf).step ctx _).bind hwith
      · rcases hfills with h | ⟨v, h, hv⟩
        · rw [h]
          exact yields_mismatch_bind _
        · rw [h]
          exact hwith v hv

/-- Members that fit the fields of a record are a value of it. -/
theorem Fits.of {title : String} {closed : Bool} {members : List (String × Value)}
    (hdistinct : (fieldNames fields).Nodup) (hpresence : ∀ f ∈ fields, f.NeverNull)
    (h : Fits schema fields fields members) :
    Value.Of schema (.record title fields closed) (.object members) := by
  obtain ⟨hnames, hfilled⟩ := h
  refine .record hdistinct hpresence hnames fun f hf m hm hname => ?_
  obtain ⟨g, hg, hsame, hv⟩ := hfilled m hm
  -- Only one field has the name.
  obtain rfl := List.inj_on_of_nodup_map hdistinct hg hf (hsame.trans hname)
  exact hv

/-! ### Every plain layout. -/

variable {inner : Inner τ} {types : List τ}

/-- What is read inside the brackets are values of their layouts. -/
def YieldsInside (schema : Schema τ) (types : List τ) (inner : Inner τ) : Prop :=
  ∀ read, inner = some read → ∀ type ∈ types,
    Yields (Value.Of schema (schema type)) (read (schema type))

theorem yields_readRecord (hinner : YieldsInside schema types inner) {title : String}
    {closed : Bool} (hplain : (Layout.record title fields closed).Plain schema types) :
    Yields (Value.Of schema (.record title fields closed))
      (readRecord schema ctx inner title fields closed) := by
  obtain ⟨hdistinct, hfields⟩ := hplain
  have hpresence : ∀ f ∈ fields, f.NeverNull := fun f hf => (hfields f hf).2.neverNull
  have hfills : ∀ f ∈ fields, f ∈ fields ∧ f.Fills schema := fun f hf => ⟨hf, (hfields f hf).2⟩
  have hread : ∀ read, inner = some read →
      ∀ f ∈ fields, Yields (Value.Of schema (schema f.type)) (readField schema read f) :=
    fun read hread f hf => yields_readField (hpresence f hf) (hinner read hread _ (hfields f hf).1)
  refine yields_bind fun b => ?_
  split
  · refine Yields.opening fun read hsome => Yields.bracketed ?_ _
    exact (yields_positional _ (hread read hsome) hfills 0).bind fun members hmembers =>
      yields_pure (hmembers.of hdistinct hpresence)
  · refine Yields.opening fun read hsome => Yields.bracketed ?_ _
    refine (yields_namedFields (hread read hsome) _ _ [] nofun).bind fun found hfound => ?_
    exact (yields_complete hfound hfills).bind fun members hmembers =>
      yields_pure (hmembers.of hdistinct hpresence)
  · exact yields_wrongKind _ _

theorem yields_readList (hinner : YieldsInside schema types inner) {element : τ}
    (hplain : element ∈ types) :
    Yields (Value.Of schema (.list element)) (readList ctx inner (schema element)) := by
  refine yields_bind fun b => ?_
  split
  · refine Yields.opening fun read hsome => Yields.bracketed ?_ _
    exact (yields_items (hinner read hsome element hplain) _ _ [] nofun).bind fun vs hvs =>
      yields_pure (.list hvs)
  · exact yields_wrongKind _ _

theorem yields_readTable (hinner : YieldsInside schema types inner) {element : τ}
    (hplain : element ∈ types) :
    Yields (Value.Of schema (.table .text element))
      (readTable ctx inner .text (schema element)) := by
  refine yields_bind fun b => ?_
  split
  · refine Yields.opening fun read hsome => Yields.bracketed ?_ _
    refine (yields_freeMembers (hinner read hsome element hplain) _ _ [] nofun).bind
      fun members hmembers => yields_pure ?_
    obtain ⟨hsorted, hmem⟩ := sortMembers_sorts members
    exact .table (List.pairwise_map.mpr hsorted) fun m hm => hmembers m (hmem m hm)
  · exact yields_wrongKind _ _

theorem yields_readLayout (hinner : YieldsInside schema types inner) {layout : Layout τ}
    (hplain : layout.Plain schema types) :
    Yields (Value.Of schema layout) (readLayout schema ctx inner layout) := by
  cases layout with
  | text => exact yields_bind fun s => yields_pure (.text s)
  | integer kind =>
      exact (yields_readInteger kind).bind fun i hi => yields_pure (.integer hplain hi)
  | list element => exact yields_readList hinner hplain
  | record title fields closed => exact yields_readRecord hinner hplain
  | table key element =>
      cases key with
      | text => exact yields_readTable hinner hplain
      | number kind => exact hplain.elim
  | _ => exact hplain.elim

/-- **Whatever is read as a plain layout is a value of it.** The induction is on the brackets that
may be opened. -/
theorem yields_readAt (hplain : ∀ type ∈ types, (schema type).Plain schema types) (depth : Nat)
    {type : τ} (htype : type ∈ types) :
    Yields (Value.Of schema (schema type)) (readAt schema ctx depth (schema type)) := by
  induction depth generalizing type with
  | zero => exact yields_readLayout (fun read hnone => by cases hnone) (hplain type htype)
  | succ depth ih =>
      have hinner : YieldsInside schema types (some (readAt schema ctx depth)) := by
        intro read hsome type htype
        cases hsome
        exact ih htype
      exact yields_readLayout hinner (hplain type htype)

/-- What a body is read as is a value of its layout. -/
theorem of_parseBody_ok (hplain : ∀ type ∈ types, (schema type).Plain schema types) {type : τ}
    (htype : type ∈ types) {body : List UInt8} {v : Value}
    (h : parseBody schema (schema type) body = .ok v) : v.Of schema (schema type) := by
  obtain ⟨c, c', hread, -⟩ := exists_of_parseBody_ok h
  exact yields_readAt hplain depthLimit htype _ _ _ hread

end Plain

end ErrorContract.Json

namespace ErrorContract.Sample

open ErrorContract Json

/-! ## §4. Bodies. -/

/-- The bodies whose values are sent. -/
def sentTargets : List BodyType := [.insert, .tree, .cells, .scores, .numbers, .text]

/-- The types of such bodies and of what they hold. -/
def sentTypes : List BodyType :=
  sentTargets ++ [.row, .rows, .cell, .cellList, .trees, .unsigned 32, .signed 64, .signed 32]

/-- A record with fields that have to be there. -/
theorem plain_record {title : String} (names : List (String × BodyType))
    (hdistinct : (names.map Prod.fst).Nodup) (htypes : ∀ n ∈ names, n.2 ∈ sentTypes) :
    (Layout.record title (names.map fun n => field n.1 n.2) false).Plain schema sentTypes := by
  constructor
  · show ((names.map fun n => field n.1 n.2).map Field.name).Nodup
    rw [List.map_map]
    exact hdistinct
  · intro f hf
    obtain ⟨n, hn, rfl⟩ := List.mem_map.mp hf
    exact ⟨htypes n hn, .inl rfl⟩

/-- **The bodies are made of texts, numbers, lists, records and tables.** -/
theorem plain_of_mem_sentTypes {type : BodyType} (h : type ∈ sentTypes) :
    (schema type).Plain schema sentTypes := by
  -- Only the children of a tree may be left out, and then there are none.
  have htree : (schema .tree).Plain schema sentTypes := by
    refine ⟨by decide, List.forall_mem_cons.mpr ⟨⟨by decide +kernel, .inl rfl⟩, ?_⟩⟩
    exact List.forall_mem_cons.mpr ⟨⟨by decide, .inr ⟨.list [], rfl, .list nofun⟩⟩, nofun⟩
  have hword : ∀ kind ∈ [IntegerKind.unsigned 32, .signed 64, .signed 32], kind.FitsWord := by
    simp only [List.forall_mem_cons]
    exact ⟨⟨by decide, by decide⟩, ⟨by decide, by decide⟩, ⟨by decide, by decide⟩, nofun⟩
  simp only [sentTypes, sentTargets, List.mem_append, List.mem_cons, List.not_mem_nil,
    or_false] at h
  rcases h with (rfl | rfl | rfl | rfl | rfl | rfl) | rfl | rfl | rfl | rfl | rfl | rfl | rfl | rfl
  · exact plain_record [("table", .text), ("rows", .rows)] (by decide) (by decide)
  · exact htree
  · exact plain_record [("name", .cellList)] (by decide) (by decide)
  · exact (by decide +kernel : BodyType.signed 64 ∈ sentTypes)
  · exact (by decide +kernel : BodyType.signed 32 ∈ sentTypes)
  · trivial
  · exact plain_record [("id", .unsigned 32)] (by decide) (by decide +kernel)
  · exact (by decide : BodyType.row ∈ sentTypes)
  · exact plain_record [("value", .signed 64)] (by decide) (by decide +kernel)
  · exact (by decide : BodyType.cell ∈ sentTypes)
  · exact (by decide : BodyType.tree ∈ sentTypes)
  · exact hword _ (by simp)
  · exact hword _ (by simp)
  · exact hword _ (by simp)

/-- **What was read can be sent.** Whatever a body is read as is a value of its type.  Every value
of the type is read back from its compact text as it is, if that has at most 127 nested brackets;
a text with more is said to be malformed. -/
theorem sent_values_are_read_back (target : BodyType) (htarget : target ∈ sentTargets) :
    (∀ body v, parseBody schema (schema target) body = .ok v → v.Of schema (schema target))
    ∧ ∀ v : Value, v.Of schema (schema target) →
      (v.nesting ≤ 127 → parseBody schema (schema target) (Utf8.encode v.render) = .ok v)
      ∧ (127 < v.nesting → ∃ message, parseBody schema (schema target) (Utf8.encode v.render)
        = .error (.ofMalformed message)) := by
  constructor
  · intro body v h
    exact of_parseBody_ok (fun type htype => plain_of_mem_sentTypes htype)
      (List.mem_append_left _ htarget) h
  · intro v hv
    exact read_back_up_to_depth_limit hv

/-- A body that leaves out an empty list has fewer brackets than the value that it is read as. -/
example : ((parseBody schema (schema .tree) "\x7b\"value\":0\x7d".toUTF8.toList).map
    Value.nesting).toOption = some 2 := by decide +kernel

/-- A tree that goes down so many times. -/
def chain : Nat → Value
  | 0 => .object [("value", .int 0), ("children", .list [])]
  | n + 1 => .object [("value", .int 0), ("children", .list [chain n])]

/-- Every tree of a chain opens an object and a list. -/
theorem nesting_chain (n : Nat) : (chain n).nesting = 2 * n + 2 := by
  induction n with
  | zero => rfl
  | succ n ih =>
      show max 0 (max (max (chain n).nesting 0 + 1) 0) + 1 = 2 * (n + 1) + 2
      omega

/-- A number and trees make a tree. -/
theorem of_tree {i : Int} {children : List Value} (hi : (IntegerKind.signed 64).holds i = true)
    (hchildren : ∀ v ∈ children, v.Of schema (schema .tree)) :
    Value.Of schema (schema .tree) (.object [("value", .int i), ("children", .list children)]) := by
  obtain ⟨hdistinct, hfields⟩ := plain_of_mem_sentTypes (show BodyType.tree ∈ sentTypes by decide)
  have hvalue : Value.Of schema (schema (.signed 64)) (.int i) := .integer ⟨by decide, by decide⟩ hi
  have htrees : Value.Of schema (schema .trees) (.list children) := .list hchildren
  apply Fits.of hdistinct fun f hf => (hfields f hf).2.neverNull
  refine ⟨rfl, List.forall_mem_cons.mpr ⟨⟨_, List.mem_cons_self, rfl, hvalue⟩, ?_⟩⟩
  exact List.forall_mem_cons.mpr
    ⟨⟨_, List.mem_cons_of_mem _ List.mem_cons_self, rfl, htrees⟩, nofun⟩

theorem chain_of (n : Nat) : (chain n).Of schema (schema .tree) := by
  induction n with
  | zero => exact of_tree (by decide) nofun
  | succ n ih =>
      apply of_tree (by decide)
      intro v hv
      rw [List.mem_singleton.mp hv]
      exact ih

/-- **Sixty-three trees in a row can be sent, and sixty-four cannot.** -/
theorem sent_values_are_read_back_chain :
    parseBody schema (schema .tree) (Utf8.encode (chain 62).render) = .ok (chain 62)
      ∧ ∃ message, parseBody schema (schema .tree) (Utf8.encode (chain 63).render)
        = .error (.ofMalformed message) := by
  have hsent := (sent_values_are_read_back .tree (by decide)).2
  constructor
  · apply (hsent (chain 62) (chain_of 62)).1
    rw [nesting_chain]
    decide
  · apply (hsent (chain 63) (chain_of 63)).2
    rw [nesting_chain]
    decide

end ErrorContract.Sample
