/-
  ErrorContract.Proofs.Distinct
  ─────────────────────────────
  **NO TABLE OF A DOCUMENT HAS TWO MEMBERS OF ONE NAME.**

  A table in the making is added to by `put` alone, and that puts an item in
  place of the one of its name.  So nothing that a document says gives a table
  two members of one name: neither a setting nor a header, neither on a line
  of its own nor inside braces.  What is read from such tables has distinct
  names in turn.

  Main statements: `distinct_of_parse`, and `nodup_resourceAttributes` for the
  attributes that an accepted configuration gives the resource.
-/
import ErrorContract.Proofs.Sections
import ErrorContract.Proofs.Vetted

namespace ErrorContract.Toml

open ErrorContract

/-! ## §1. Values and tables in the making. -/

/-- **No table inside the value has two members of one name.** -/
inductive Value.Distinct : Value → Prop where
  | text (s : String) : Distinct (.text s)
  | int (i : Int) : Distinct (.int i)
  | float (x : Float) : Distinct (.float x)
  | bool (b : Bool) : Distinct (.bool b)
  | datetime (text : String) : Distinct (.datetime text)
  | array {items : List Value} (hitems : ∀ v ∈ items, v.Distinct) : Distinct (.array items)
  | table {members : List (String × Value)} (hnames : (members.map Prod.fst).Nodup)
      (hmembers : ∀ m ∈ members, m.2.Distinct) : Distinct (.table members)

/-- The names in a table in the making. -/
def Members.names : Members → List String
  | .empty => []
  | .more name _ rest => name :: rest.names

mutual

/-- The names in a table in the making are distinct, and so they are in the tables inside it. -/
inductive Members.Distinct : Members → Prop where
  | empty : Members.Distinct .empty
  | more {name : String} {item : Item} {rest : Members} (hnew : name ∉ rest.names)
      (hitem : item.Distinct) (hrest : rest.Distinct) : Members.Distinct (.more name item rest)

/-- The names are distinct in all the tables that an item holds. -/
inductive Item.Distinct : Item → Prop where
  | leaf {v : Value} (h : v.Distinct) : Item.Distinct (.leaf v)
  | table {origin : Origin} {members : Members} (h : members.Distinct) :
      Item.Distinct (.table origin members)
  | tables {last : Members} {before : List Members} (hlast : last.Distinct)
      (hbefore : ∀ members ∈ before, members.Distinct) : Item.Distinct (.tables last before)

end

section Members

variable {members members' : Members} {name : String} {item : Item} {v : Value}

/-- An item that is found is as distinct as the table that it stands in. -/
theorem Members.Distinct.find? {members : Members} (h : members.Distinct)
    (hfind : members.find? name = some item) : item.Distinct := by
  cases h with
  | empty => cases hfind
  | more hnew hitem hrest =>
      unfold Members.find? at hfind
      split at hfind
      · exact Option.some.inj hfind ▸ hitem
      · exact hrest.find? hfind

/-- Only the name that is put can be new. -/
theorem Members.mem_names_put {members : Members} {n : String}
    (h : n ∈ (members.put name item).names) : n = name ∨ n ∈ members.names := by
  cases members with
  | empty => exact .inl (List.mem_singleton.mp h)
  | more other i rest =>
      unfold Members.put at h
      split at h
      · exact .inr h
      · rcases List.mem_cons.mp h with rfl | h
        · exact .inr List.mem_cons_self
        · exact (mem_names_put h).imp_right (List.mem_cons_of_mem _)

/-- **What is put takes the place of the one of its name.** -/
theorem Members.Distinct.put {members : Members} (h : members.Distinct) (hitem : item.Distinct) :
    (members.put name item).Distinct := by
  cases h with
  | empty => exact .more List.not_mem_nil hitem .empty
  | @more other i rest hnew hi hrest =>
      unfold Members.put
      split
      · exact .more hnew hitem hrest
      · next hother =>
          -- Nothing but the name that is put is new in the rest, and that is not the first one.
          refine .more ?_ hi (hrest.put hitem)
          intro hmem
          rcases mem_names_put hmem with rfl | hmem
          · exact hother (beq_self_eq_true other)
          · exact hnew hmem

/-! ## §2. What a document says. -/

/-- A change of a table keeps names distinct. -/
def KeepsDistinct (change : Members → Option Members) : Prop :=
  ∀ members members', members.Distinct → change members = some members' → members'.Distinct

/-- What was changed is put back under its name. -/
theorem Members.Distinct.put_map {inside : Option Members} {build : Members → Item}
    (h : members.Distinct) (hinside : ∀ m, inside = some m → (build m).Distinct)
    (hput : (inside.map fun m => members.put name (build m)) = some members') :
    members'.Distinct := by
  obtain ⟨m, hm, rfl⟩ := Option.map_eq_some_iff.mp hput
  exact h.put (hinside m hm)

/-- **A setting keeps names distinct**, however long its key. -/
theorem keepsDistinct_defineIn (free : Bool) (path : List String) (hv : v.Distinct) :
    KeepsDistinct (Members.defineIn free path v) := by
  induction path generalizing free with
  | nil => exact nofun
  | cons name path ih =>
      intro members members' h hdefine
      cases path with
      | nil =>
          -- the last part of the key: the value itself is put
          unfold Members.defineIn at hdefine
          split at hdefine
          · exact Option.some.inj hdefine ▸ h.put (.leaf hv)
          · cases hdefine
      | cons next path =>
          unfold Members.defineIn at hdefine
          split at hdefine
          · -- a table that the key brings into being
            exact h.put_map (fun m hm => .table (ih true _ m .empty hm)) hdefine
          · next m hfind =>
              -- one that other keys did
              cases h.find? hfind with
              | table hm => exact h.put_map (fun m' hm' => .table (ih true m m' hm hm')) hdefine
          · next m hfind =>
              -- one that a header implied
              cases h.find? hfind with
              | table hm => exact h.put_map (fun m' hm' => .table (ih false m m' hm hm')) hdefine
          · cases hdefine

/-- A change keeps names distinct wherever it is made. -/
theorem KeepsDistinct.alter {change : Members → Option Members} (h : KeepsDistinct change)
    (path : List String) : KeepsDistinct (Members.alter change path) := by
  induction path with
  | nil => exact h
  | cons name path ih =>
      intro members members' hmembers halter
      unfold Members.alter at halter
      split at halter
      · exact hmembers.put_map (fun m hm => .table (ih _ m .empty hm)) halter
      · next origin m hfind =>
          cases hmembers.find? hfind with
          | table hm => exact hmembers.put_map (fun m' hm' => .table (ih m m' hm hm')) halter
      · next last before hfind =>
          -- The way leads into the last table of the array, and the others stay as they are.
          cases hmembers.find? hfind with
          | tables hlast hbefore =>
              exact hmembers.put_map (fun m' hm' => .tables (ih last m' hlast hm') hbefore) halter
      · cases halter

theorem keepsDistinct_addTable (name : String) : KeepsDistinct (Members.addTable name) := by
  intro members members' h hadd
  unfold Members.addTable at hadd
  split at hadd
  · exact Option.some.inj hadd ▸ h.put (.table .empty)
  · next m hfind =>
      cases h.find? hfind with
      | table hm => exact Option.some.inj hadd ▸ h.put (.table hm)
  · cases hadd

theorem keepsDistinct_addElement (name : String) : KeepsDistinct (Members.addElement name) := by
  intro members members' h hadd
  unfold Members.addElement at hadd
  split at hadd
  · exact Option.some.inj hadd ▸ h.put (.tables .empty nofun)
  · next last before hfind =>
      cases h.find? hfind with
      | tables hlast hbefore =>
          exact Option.some.inj hadd
            ▸ h.put (.tables .empty (List.forall_mem_cons.mpr ⟨hlast, hbefore⟩))
  · cases hadd

/-- A header keeps names distinct if what it adds does. -/
theorem keepsDistinct_header {add : String → Members → Option Members}
    (h : ∀ name, KeepsDistinct (add name)) (path : List String) :
    KeepsDistinct (Members.header add path) := by
  intro members members' hmembers hheader
  unfold Members.header at hheader
  split at hheader
  · cases hheader
  · exact (h _).alter _ members members' hmembers hheader

/-- The value that a statement sets, if it sets one, is distinct. -/
def Statement.Distinct : Statement → Prop
  | .setting _ v => v.Distinct
  | .table _ | .element _ => True

/-- **Statements keep names distinct**, one after the other. -/
theorem distinct_of_assemble {root result : Members} {path : List String}
    {statements : List Statement} (hroot : root.Distinct)
    (hstatements : ∀ s ∈ statements, s.Distinct)
    (h : assemble root path statements = some result) : result.Distinct := by
  induction statements generalizing root path with
  | nil => exact Option.some.inj h ▸ hroot
  | cons s rest ih =>
      obtain ⟨hs, hrest⟩ := List.forall_mem_cons.mp hstatements
      -- Every statement is a change somewhere below the root.
      cases s with
      | setting key v =>
          obtain ⟨root', hset, h⟩ := Option.bind_eq_some_iff.mp h
          have hkeeps : KeepsDistinct (Members.define key v) := keepsDistinct_defineIn true key hs
          exact ih (hkeeps.alter path root root' hroot hset) hrest h
      | table header =>
          obtain ⟨root', hadd, h⟩ := Option.bind_eq_some_iff.mp h
          exact ih (keepsDistinct_header keepsDistinct_addTable header root root' hroot hadd)
            hrest h
      | element header =>
          obtain ⟨root', hadd, h⟩ := Option.bind_eq_some_iff.mp h
          exact ih (keepsDistinct_header keepsDistinct_addElement header root root' hroot hadd)
            hrest h

end Members

/-! ## §3. Finished tables. -/

section Values

/-- A member is put among the others, somewhere. -/
theorem insertSorted_perm (name : String) (v : α) (members : List (String × α)) :
    (insertSorted name v members).Perm ((name, v) :: members) := by
  induction members with
  | nil => exact .refl _
  | cons m rest ih =>
      obtain ⟨n, w⟩ := m
      unfold insertSorted
      split
      · exact .refl _
      · exact (ih.cons (n, w)).trans (.swap (name, v) (n, w) rest)

/-- A finished table has the names that were put in it. -/
theorem mem_names_values (members : Members) (n : String) :
    n ∈ members.values.map Prod.fst ↔ n ∈ members.names := by
  cases members with
  | empty => exact Iff.rfl
  | more name item rest =>
      have hperm := (insertSorted_perm name item.value rest.values).map Prod.fst
      show n ∈ (insertSorted name item.value rest.values).map Prod.fst ↔ n ∈ name :: rest.names
      rw [hperm.mem_iff, List.map_cons, List.mem_cons, List.mem_cons, mem_names_values rest n]

mutual

theorem Members.Distinct.values : ∀ {members : Members}, members.Distinct →
    (members.values.map Prod.fst).Nodup ∧ ∀ m ∈ members.values, m.2.Distinct
  | .empty, _ => ⟨.nil, nofun⟩
  | .more name item rest, .more hnew hitem hrest => by
      obtain ⟨hnames, hvalues⟩ := hrest.values
      have hperm := insertSorted_perm name item.value rest.values
      constructor
      · show ((insertSorted name item.value rest.values).map Prod.fst).Nodup
        rw [(hperm.map Prod.fst).nodup_iff]
        apply List.nodup_cons.mpr
        refine ⟨?_, hnames⟩
        intro hmem
        exact hnew ((mem_names_values rest name).mp hmem)
      · intro m hm
        rcases List.mem_cons.mp (hperm.mem_iff.mp hm) with rfl | hm
        · exact hitem.value
        · exact hvalues m hm

theorem Item.Distinct.value : ∀ {item : Item}, item.Distinct → item.value.Distinct
  | .leaf v, .leaf h => h
  | .table origin members, .table h => .table h.values.1 h.values.2
  | .tables last before, .tables hlast hbefore => by
      apply Value.Distinct.array
      intro v hv
      rcases List.mem_cons.mp (List.mem_reverse.mp hv) with rfl | hv
      · exact .table hlast.values.1 hlast.values.2
      · exact distinct_of_mem_tableValues hbefore v hv

theorem distinct_of_mem_tableValues : ∀ {before : List Members},
    (∀ members ∈ before, members.Distinct) → ∀ v ∈ tableValues before, v.Distinct
  | [], _, _, hv => nomatch hv
  | members :: rest, h, v, hv => by
      obtain ⟨hmembers, hrest⟩ := List.forall_mem_cons.mp h
      rcases List.mem_cons.mp hv with rfl | hv
      · exact .table hmembers.values.1 hmembers.values.2
      · exact distinct_of_mem_tableValues hrest v hv

end

/-- **The value of a table in the making has distinct names**, and so have the tables inside it. -/
theorem Members.Distinct.table {members : Members} (h : members.Distinct) :
    (Value.table members.values).Distinct := .table h.values.1 h.values.2

end Values

/-! ## §4. What readers yield. -/

/-- Whatever is read has the property. -/
def Yields (P : α → Prop) (read : Front α) : Prop :=
  ∀ cs a rest, read cs = some (a, rest) → P a

section Yields

variable {α β : Type} {P : α → Prop} {Q : β → Prop} {read : Front α} {v : Value}

theorem yields_pure {a : α} (h : P a) : Yields P (pure a) := by
  intro cs a' rest hread
  obtain rfl : a = a' := congrArg Prod.fst (Option.some.inj hread)
  exact h

theorem yields_refuse : Yields P Front.refuse := nofun

/-- **What one reader yields is what the next one is given.** -/
theorem Yields.bind {next : α → Front β} (h : Yields P read)
    (hnext : ∀ a, P a → Yields Q (next a)) : Yields Q (read >>= next) := by
  intro cs b rest hread
  obtain ⟨p, hfirst, hsecond⟩ := Option.bind_eq_some_iff.mp hread
  exact hnext p.1 (h cs p.1 p.2 hfirst) p.2 b rest hsecond

theorem yields_bind {next : α → Front β} (h : ∀ a, Yields Q (next a)) :
    Yields Q (read >>= next) :=
  Yields.bind (P := fun _ => True) (fun _ _ _ _ => trivial) fun a _ => h a

theorem yields_ite {p : Prop} [Decidable p] {yes no : Front α} (hyes : Yields P yes)
    (hno : Yields P no) : Yields P (if p then yes else no) := by
  by_cases hp : p
  · rw [if_pos hp]
    exact hyes
  · rw [if_neg hp]
    exact hno

/-- A scalar is no table, and holds none. -/
theorem distinct_of_scalar {cs : List Char} (h : scalar cs = some v) : v.Distinct := by
  -- Whole numbers are written in four ways, but all of them end here.
  have hword : ∀ {i : Int}, fitWord i = some v → v.Distinct := by
    intro i hi
    unfold fitWord at hi
    split at hi
    · exact Option.some.inj hi ▸ .int i
    · cases hi
  unfold scalar at h
  split at h
  · exact Option.some.inj h ▸ .bool true
  split at h
  · exact Option.some.inj h ▸ .bool false
  split at h
  · exact Option.some.inj h ▸ .datetime _
  rcases Option.or_eq_some_iff.mp h with hwhole | ⟨-, hfloat⟩
  · unfold wholeNumber at hwhole
    split at hwhole
    all_goals
      obtain ⟨ds, -, hfit⟩ := Option.bind_eq_some_iff.mp hwhole
      exact hword hfit
  · obtain ⟨x, -, rfl⟩ := Option.map_eq_some_iff.mp hfloat
    exact .float _

theorem yields_scalarValue : Yields Value.Distinct scalarValue := by
  refine yields_bind fun cs => ?_
  split
  · next v hscalar => exact yields_pure (distinct_of_scalar hscalar)
  · exact yields_refuse

variable {inner : Front Value}

theorem yields_arrayItems (bound : Nat) (hinner : Yields Value.Distinct inner) (rounds : Nat)
    (before : List Value) (hbefore : ∀ v ∈ before, v.Distinct) :
    Yields (fun vs => ∀ v ∈ vs, v.Distinct) (arrayItems bound inner rounds before) := by
  have hreverse : ∀ vs : List Value, (∀ v ∈ vs, v.Distinct) → ∀ v ∈ vs.reverse, v.Distinct :=
    fun vs hvs v hv => hvs v (List.mem_reverse.mp hv)
  induction rounds generalizing before with
  | zero => exact yields_refuse
  | succ rounds ih =>
      unfold arrayItems
      refine yields_bind fun _ => yields_bind fun closed => yields_ite ?_ ?_
      · exact yields_pure (hreverse before hbefore)
      · refine hinner.bind fun v hv => yields_bind fun _ => yields_bind fun more => ?_
        have hmore : ∀ w ∈ v :: before, w.Distinct := List.forall_mem_cons.mpr ⟨hv, hbefore⟩
        exact yields_ite (ih _ hmore) (yields_bind fun _ => yields_pure (hreverse _ hmore))

theorem yields_setting (bound : Nat) (hinner : Yields Value.Distinct inner) :
    Yields (fun s => s.2.Distinct) (setting bound inner) :=
  yields_bind fun _ => yields_bind fun _ => yields_bind fun _ => hinner.bind fun _ hv =>
    yields_pure hv

theorem yields_inlineSettings (bound : Nat) (hinner : Yields Value.Distinct inner) (rounds : Nat)
    (members : Members) (h : members.Distinct) :
    Yields Members.Distinct (inlineSettings bound inner rounds members) := by
  induction rounds generalizing members with
  | zero => exact yields_refuse
  | succ rounds ih =>
      unfold inlineSettings
      refine yields_bind fun _ => yields_bind fun closed => yields_ite (yields_pure h) ?_
      refine (yields_setting bound hinner).bind fun s hs => ?_
      -- The setting is defined in the table as it would be on a line of its own.
      dsimp only
      split
      · exact yields_refuse
      · next members' hdefine =>
          have h' : members'.Distinct :=
            keepsDistinct_defineIn true s.1 hs members members' h hdefine
          exact yields_bind fun _ => yields_bind fun more =>
            yields_ite (ih members' h') (yields_bind fun _ => yields_pure h')

theorem yields_valueWith (bound : Nat) (hinner : Yields Value.Distinct inner) :
    Yields Value.Distinct (valueWith bound inner) := by
  refine yields_bind fun o => ?_
  split
  · exact yields_bind fun s => yields_pure (.text s)
  · exact yields_bind fun s => yields_pure (.text s)
  · exact yields_bind fun _ => (yields_arrayItems bound hinner bound [] nofun).bind fun vs hvs =>
      yields_pure (.array hvs)
  · exact yields_bind fun _ => (yields_inlineSettings bound hinner bound .empty .empty).bind
      fun members hmembers => yields_pure hmembers.table
  · exact yields_scalarValue

/-- **Whatever is read as a value has distinct names**, at any depth. -/
theorem yields_value (bound depth : Nat) : Yields Value.Distinct (value bound depth) := by
  induction depth with
  | zero => exact yields_valueWith bound yields_refuse
  | succ depth ih => exact yields_valueWith bound ih

theorem yields_statement (bound : Nat) : Yields Statement.Distinct (statement bound) := by
  refine yields_bind fun array => yields_ite ?_ ?_
  · exact yields_bind fun _ => yields_bind fun _ => yields_pure trivial
  · refine yields_bind fun table => yields_ite ?_ ?_
    · exact yields_bind fun _ => yields_bind fun _ => yields_pure trivial
    · exact (yields_setting bound (yields_value bound depthLimit)).bind fun s hs => yields_pure hs

theorem yields_statements (bound rounds : Nat) (before : List Statement)
    (hbefore : ∀ s ∈ before, s.Distinct) :
    Yields (fun all => ∀ s ∈ all, s.Distinct) (statements bound rounds before) := by
  induction rounds generalizing before with
  | zero => exact yields_refuse
  | succ rounds ih =>
      unfold statements
      refine yields_bind fun _ => yields_bind fun o => ?_
      split
      · exact yields_pure fun s hs => hbefore s (List.mem_reverse.mp hs)
      · refine (yields_statement bound).bind fun s hs => yields_bind fun _ => ih _ ?_
        exact List.forall_mem_cons.mpr ⟨hs, hbefore⟩

end Yields

/-- **No table of a document has two members of one name.** -/
theorem distinct_of_parse {text : String} {document : Value} (h : parse text = some document) :
    document.Distinct := by
  unfold parse at h
  obtain ⟨⟨all, rest⟩, hread, h⟩ := Option.bind_eq_some_iff.mp h
  dsimp only at h
  split at h
  · obtain ⟨members, hmembers, h⟩ := Option.bind_eq_some_iff.mp h
    obtain rfl := Option.some.inj h
    have hall : ∀ s ∈ all, s.Distinct := yields_statements _ _ [] nofun _ all rest hread
    exact (distinct_of_assemble .empty hall hmembers).table
  · cases h

end ErrorContract.Toml

namespace ErrorContract.Schema

open ErrorContract

/-! ## §5. Settings out of such documents. -/

section Sections

variable {σ α : Type} {P : σ → Prop} {s : Section σ} {v : Toml.Value} {result : σ}

/-- Reading the setting off a value of distinct names keeps the property. -/
def Setting.Keeps (P : σ → Prop) (setting : Setting σ) : Prop :=
  ∀ v before after, v.Distinct → setting.read v before = .ok after → P before → P after

theorem keeps_setting {name : String} {value : Toml.Value → Except Mismatch α}
    {update : α → σ → σ}
    (h : ∀ v a before, v.Distinct → value v = .ok a → P before → P (update a before)) :
    (setting name value update).Keeps P := by
  intro v before after hv hread hbefore
  change (value v).map (update · before) = .ok after at hread
  cases hvalue : value v with
  | error m =>
      rw [hvalue] at hread
      cases hread
  | ok a =>
      rw [hvalue] at hread
      exact Except.ok.inj hread ▸ h v a before hv hvalue hbefore

/-- What counts as a table of distinct names has distinct names. -/
theorem distinct_of_members? {members : List (String × Toml.Value)} (hv : v.Distinct)
    (h : members? v = some members) :
    (members.map Prod.fst).Nodup ∧ ∀ m ∈ members, m.2.Distinct := by
  cases hv with
  | table hnames hmembers =>
      obtain rfl := Option.some.inj h
      exact ⟨hnames, hmembers⟩
  | datetime text =>
      obtain rfl := Option.some.inj h
      exact ⟨List.nodup_singleton momentName, List.forall_mem_singleton.mpr (.text text)⟩
  | text | int | float | bool | array => cases h

/-- The members of a table keep the property, one after the other. -/
theorem of_readMembers {members : List (String × Toml.Value)} {sofar : σ} (hsofar : P sofar)
    (hsettings : ∀ setting ∈ s.settings, setting.Keeps P) (hmembers : ∀ m ∈ members, m.2.Distinct)
    (h : s.readMembers sofar members = .ok result) : P result := by
  induction members generalizing sofar with
  | nil => exact Except.ok.inj h ▸ hsofar
  | cons member rest ih =>
      obtain ⟨hmember, hrest⟩ := List.forall_mem_cons.mp hmembers
      obtain ⟨setting, next, hfind, hread, h⟩ := Section.readMembers_cons_ok.mp h
      obtain ⟨hmem, -⟩ := Section.find?_eq_some hfind
      exact ih (hsettings setting hmem member.2 sofar next hmember hread hsofar) hrest h

/-- The elements of an array keep the property, each read by the setting at its place. -/
theorem of_readElements {title : String} {size index : Nat} {settings : List (Setting σ)}
    {items : List Toml.Value} {sofar : σ} (hsofar : P sofar)
    (hsettings : ∀ setting ∈ settings, setting.Keeps P) (hitems : ∀ v ∈ items, v.Distinct)
    (h : readElements title size index sofar settings items = .ok result) : P result := by
  induction settings generalizing index sofar items with
  | nil => exact Except.ok.inj h ▸ hsofar
  | cons setting settings ih =>
      obtain ⟨hsetting, hsettings⟩ := List.forall_mem_cons.mp hsettings
      cases items with
      | nil =>
          unfold readElements at h
          split at h
          · exact ih hsofar hsettings hitems h
          · cases h
      | cons v items =>
          obtain ⟨hv, hitems⟩ := List.forall_mem_cons.mp hitems
          obtain ⟨next, hread, h⟩ := Template.bind_eq_ok_iff.mp h
          exact ih (hsetting v sofar next hv hread hsofar) hsettings hitems h

/-- **What a section is read as has the property** if its defaults do and every setting keeps it. -/
theorem of_read (hv : v.Distinct) (h : s.read v = .ok result) (hdefaults : P s.defaults)
    (hsettings : ∀ setting ∈ s.settings, setting.Keeps P) : P result := by
  unfold Section.read at h
  split at h
  · next members htable =>
      exact of_readMembers hdefaults hsettings (distinct_of_members? hv htable).2 h
  · cases hv with
    | array hitems => exact of_readElements hdefaults hsettings hitems h
  · cases h

end Sections

/-- Texts are read under the names that they stand under. -/
theorem map_fst_of_readTexts {members : List (String × Toml.Value)} {texts : List (String × String)}
    (h : readTexts members = .ok texts) : texts.map Prod.fst = members.map Prod.fst := by
  induction members generalizing texts with
  | nil =>
      obtain rfl := Except.ok.inj h
      rfl
  | cons member rest ih =>
      unfold readTexts at h
      obtain ⟨text, -, h⟩ := Template.bind_eq_ok_iff.mp h
      obtain ⟨more, hmore, h⟩ := Template.bind_eq_ok_iff.mp h
      obtain rfl := Except.ok.inj h
      rw [List.map_cons, List.map_cons, ih hmore]

theorem nodup_of_readTextTable {v : Toml.Value} {texts : List (String × String)} (hv : v.Distinct)
    (h : readTextTable v = .ok texts) : (texts.map Prod.fst).Nodup := by
  unfold readTextTable at h
  split at h
  · next members hmembers =>
      rw [map_fst_of_readTexts h]
      exact (distinct_of_members? hv hmembers).1
  · cases h

/-- The attributes of the resource have distinct names. -/
def NamesAttributesOnce (t : TelemetrySettings) : Prop := (t.resourceAttributes.map Prod.fst).Nodup

/-- Only the setting of the attributes changes them. -/
theorem namesAttributesOnce_of_read {v : Toml.Value} {t : TelemetrySettings} (hv : v.Distinct)
    (h : telemetry.read v = .ok t) : NamesAttributesOnce t := by
  have hdefaults : NamesAttributesOnce telemetry.defaults := List.nodup_nil
  apply of_read hv h hdefaults
  simp only [telemetry, List.forall_mem_cons]
  -- The other settings leave the attributes as they are.
  refine ⟨?name, ?attributes, ?exporter, ?tracing, ?metrics, nofun⟩
  case attributes => exact keeps_setting fun v texts _ hv hread _ => nodup_of_readTextTable hv hread
  all_goals exact keeps_setting fun _ _ _ _ _ hbefore => hbefore

/-- **The attributes that an accepted configuration gives the resource have distinct names.** -/
theorem nodup_resourceAttributes {env : Environment} {text : String} {c : Config}
    {t : TelemetrySettings} (h : Config.parse env text = .ok c) (ht : c.telemetry = some t) :
    (t.resourceAttributes.map Prod.fst).Nodup := by
  obtain ⟨expanded, document, -, hdocument, hread⟩ := Config.exists_document_of_parse h
  have hdistinct : document.Distinct := Toml.distinct_of_parse hdocument
  have hdefaults : ∀ t, config.defaults.telemetry = some t → NamesAttributesOnce t := by
    intro t hnone
    cases hnone
  have hsettings : ∀ setting ∈ config.settings,
      setting.Keeps fun c => ∀ t, c.telemetry = some t → NamesAttributesOnce t := by
    simp only [config, List.forall_mem_cons]
    refine ⟨?server, ?errors, ?telemetry, nofun⟩
    case telemetry =>
      apply keeps_setting
      intro v telemetry before hv hvalue _ t ht
      exact Option.some.inj ht ▸ namesAttributesOnce_of_read hv hvalue
    all_goals exact keeps_setting fun _ _ _ _ _ hbefore => hbefore
  exact of_read hdistinct hread hdefaults hsettings t ht

end ErrorContract.Schema
