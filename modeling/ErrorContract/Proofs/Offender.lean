/-
  ErrorContract.Proofs.Offender
  ─────────────────────────────
  **A MAPPING FAILURE NAMES EXACTLY THE OFFENDING VALUE.**

  The path of a mapping failure can be followed in the document, step by
  step, while the layout says which type is expected at each place.  The
  value that it leads to does not fit that type by itself: read on its own it
  fails again, with nowhere left to go.

  `exists_misfit_inside` takes one step of the path inside a value, for each
  way in which a value can have others inside; `exists_offender` follows all
  of them.  Reading comes in only at both ends, by `readsLike_judge`.
-/
import ErrorContract.Proofs.Reading
import ErrorContract.Sample.Bodies

namespace ErrorContract.Json

open ErrorContract

/-! ## §1. Following a path. -/

/-- A value one step inside another: a member with a name, whichever of them if there are
several, or the element at a position. -/
def Tree.Child : Tree → PathSegment → Tree → Prop
  | .list items, .index i, t => items.values[i]? = some t
  | .object members, .field name, t =>
    ∃ token, StringToken.text? token = some name ∧ (token, t) ∈ members.entries
  | _, _, _ => False

/-- **The value that a path leads to.** -/
def Tree.Follows (t : Tree) : Path → Tree → Prop
  | [], target => target = t
  | s :: path, target => ∃ u, t.Child s u ∧ u.Follows path target

/-- The layout that is expected one step inside. -/
def Layout.inside? (schema : Schema τ) : Layout τ → PathSegment → Option (Layout τ)
  | .list element, .index _ => some (schema element)
  | .record _ fields _, .index i => fields[i]?.map fun f => schema f.type
  | .record _ fields _, .field name => (fields.find? (·.name == name)).map fun f => schema f.type
  | .table _ element, .field _ => some (schema element)
  | _, _ => none

/-- **The layout that is expected where a path leads.** -/
def Layout.expected? (schema : Schema τ) (layout : Layout τ) : Path → Option (Layout τ)
  | [] => some layout
  | s :: path => (layout.inside? schema s).bind fun next => next.expected? schema path

/-! ## §2. Plain layouts. -/

/-- **A layout in which every step of a way leads to a value**, with the values inside it of types
in `S`. -/
inductive PlainIn (S : τ → Prop) : Layout τ → Prop where
  | text : PlainIn S .text
  | integer (kind : IntegerKind) : PlainIn S (.integer kind)
  | list {element : τ} (h : S element) : PlainIn S (.list element)
  | record {title : String} {fields : List (Field τ)} (htypes : ∀ f ∈ fields, S f.type) :
      PlainIn S (.record title fields false)
  | table {element : τ} (h : S element) : PlainIn S (.table .text element)

/-! ## §3. Where a misfit comes from. -/

section Misfit

variable {α β : Type} {schema : Schema τ} {S : τ → Prop} {layout : Layout τ} {t : Tree}
  {m : Mismatch} {s : PathSegment} {way : Path}

theorem Verdict.bind_eq_error {v : Verdict α} {w : α → Verdict β} {flaw : Flaw}
    (h : (v >>= w) = .error flaw) : v = .error flaw ∨ ∃ a, v = .ok a ∧ w a = .error flaw := by
  cases v with
  | ok a => exact .inr ⟨a, rfl, h⟩
  | error f =>
      left
      cases h
      rfl

theorem Verdict.under_eq_misfit {v : Verdict α} {s' : PathSegment}
    (h : v.under s' = .error (.misfit m (s :: way))) :
    s' = s ∧ v = .error (.misfit m way) := by
  cases v with
  | ok a => cases h
  | error flaw =>
      cases flaw with
      | misfit n p =>
          cases h
          exact ⟨rfl, rfl⟩
      | meaningless | mistaken => cases h

/-- A verdict whose misfits are all found right here. -/
def Verdict.Here (v : Verdict α) : Prop := ∀ m s way, v ≠ .error (.misfit m (s :: way))

theorem Verdict.here_ok (a : α) : Verdict.Here (.ok a : Verdict α) := by
  intro m s way h
  cases h

theorem Verdict.here_misfit (m : Mismatch) : Verdict.Here (misfit m : Verdict α) := by
  intro n s way h
  cases h

theorem Verdict.here_meaning (a : Option α) : Verdict.Here (meaning a) := by
  cases a <;> (intro m s way h; cases h)

theorem eq_some_of_meaning {o : Option α} {a : α} (h : meaning o = .ok a) : o = some a := by
  cases o with
  | some b =>
      cases h
      rfl
  | none => cases h

theorem Verdict.Here.bind {v : Verdict α} {w : α → Verdict β} (hv : v.Here)
    (hw : ∀ a, Verdict.Here (w a)) : Verdict.Here (v >>= w) := by
  intro m s way h
  rcases Verdict.bind_eq_error h with h | ⟨a, -, h⟩
  · exact hv m s way h
  · exact hw a m s way h

theorem here_leafValue (t : Tree) : Verdict.Here t.leafValue := by
  cases t with
  | null => exact Verdict.here_ok _
  | truth b => exact Verdict.here_ok _
  | number n => exact Verdict.here_meaning _
  | string s => exact (Verdict.here_meaning _).bind fun _ => Verdict.here_ok _
  | list items =>
      intro m s way h
      cases h
  | object members =>
      intro m s way h
      cases h

theorem here_refuse (expected : String) (t : Tree) :
    Verdict.Here (refuse expected t : Verdict α) := by
  cases t with
  | list items => exact Verdict.here_misfit _
  | object members => exact Verdict.here_misfit _
  | _ => exact (here_leafValue _).bind fun _ => Verdict.here_misfit _

theorem here_judgeText (expected : String) (t : Tree) : Verdict.Here (judgeText expected t) := by
  have hrefuse : Verdict.Here (refuse expected t : Verdict String) := here_refuse expected t
  cases t with
  | string s => exact Verdict.here_meaning _
  | _ => exact hrefuse

theorem here_judgeNumber (kind : IntegerKind) (v : Value) : Verdict.Here (judgeNumber kind v) := by
  cases v with
  | int i =>
      unfold judgeNumber
      cases hcheck : kind.check i with
      | ok j =>
          simp only [hcheck]
          exact Verdict.here_ok _
      | error m =>
          simp only [hcheck]
          exact Verdict.here_misfit _
  | _ => exact Verdict.here_misfit _

theorem here_judgeInteger (kind : IntegerKind) (t : Tree) : Verdict.Here (judgeInteger kind t) := by
  have hrefuse : Verdict.Here (refuse kind.name t : Verdict Int) := here_refuse kind.name t
  cases t with
  | number n => exact (Verdict.here_meaning _).bind fun _ => here_judgeNumber _ _
  | _ => exact hrefuse

theorem here_judgeShort (title : String) (position : Nat) (fields : List (Field τ)) :
    Verdict.Here (judgeShort title position fields) := by
  induction fields generalizing position with
  | nil => exact Verdict.here_ok _
  | cons field fields ih =>
      have hrest := fun v : Value =>
        (ih (position + 1)).bind fun rest => Verdict.here_ok ((field.name, v) :: rest)
      unfold judgeShort
      cases field.presence with
      | optional => exact hrest .null
      | defaulted v => exact hrest v
      | _ => exact (Verdict.here_misfit _).bind hrest

theorem here_judgeComplete (read : List (String × Value)) (fields : List (Field τ)) :
    Verdict.Here (judgeComplete read fields) := by
  induction fields with
  | nil => exact Verdict.here_ok _
  | cons field fields ih =>
      have hrest := fun v : Value =>
        ih.bind fun rest => Verdict.here_ok ((field.name, v) :: rest)
      unfold judgeComplete
      cases read.lookup field.name with
      | some v => exact hrest v
      | none =>
          cases field.presence with
          | required => exact (Verdict.here_misfit _).bind hrest
          | defaulted v => exact hrest v
          | _ => exact hrest .null

/-- A field that takes `null` as it stands makes no other misfits. -/
theorem error_of_orNull {field : Field τ} {v : Verdict Value} {flaw : Flaw}
    (h : field.orNull t v = .error flaw) : v = .error flaw := by
  unfold Field.orNull at h
  split at h
  · cases h
  · cases h
  · exact h

/-- **A misfit inside a list is one of its elements'.** -/
theorem misfit_of_judgeItems :
    ∀ (its : Items) {position : Nat} {before : List Value},
      judgeItems schema layout position before its = .error (.misfit m (s :: way)) →
      ∃ i t, s = .index (position + i) ∧ its.values[i]? = some t
        ∧ judge schema layout t = .error (.misfit m way)
  | .nil _, position, before, h => by
      rw [judgeItems] at h
      cases h
  | .cons leading blanks value rest, position, before, h => by
      rw [judgeItems] at h
      -- It is the misfit of this element, or of a later one, one position further on.
      rcases Verdict.bind_eq_error h with h | ⟨v, -, h⟩
      · obtain ⟨rfl, hvalue⟩ := Verdict.under_eq_misfit h
        exact ⟨0, value, rfl, rfl, hvalue⟩
      · obtain ⟨i, t, rfl, hi, ht⟩ := misfit_of_judgeItems rest h
        exact ⟨i + 1, t, by rw [Nat.add_assoc, Nat.add_comm 1], hi, ht⟩

/-- A misfit inside a list of fields is that of an element, for the field in its place. -/
theorem misfit_of_judgePositional {title : String} :
    ∀ (its : Items) {position : Nat} {fields : List (Field τ)},
      judgePositional schema title position fields its = .error (.misfit m (s :: way)) →
      ∃ i t field, s = .index (position + i) ∧ its.values[i]? = some t ∧ fields[i]? = some field
        ∧ judge schema (schema field.type) t = .error (.misfit m way)
  | .nil _, position, fields, h => by
      rw [judgePositional] at h
      exact absurd h (here_judgeShort title position fields m s way)
  -- no field is left, so nothing is judged
  | .cons leading blanks value rest, position, [], h => by
      rw [judgePositional] at h
      cases h
  | .cons leading blanks value rest, position, field :: fields, h => by
      rw [judgePositional] at h
      -- The misfit is that of this element, of a later one, or there is none.
      rcases Verdict.bind_eq_error h with h | ⟨v, -, h⟩
      · obtain ⟨rfl, hvalue⟩ := Verdict.under_eq_misfit h
        exact ⟨0, value, field, rfl, rfl, rfl, error_of_orNull hvalue⟩
      · rcases Verdict.bind_eq_error h with h | ⟨r, -, h⟩
        · obtain ⟨i, t, f, rfl, hi, hf, ht⟩ := misfit_of_judgePositional rest h
          exact ⟨i + 1, t, f, by rw [Nat.add_assoc, Nat.add_comm 1], hi, hf, ht⟩
        · cases h

/-- A misfit inside the members of a record is that of a member, for the field of its name. -/
theorem misfit_of_judgeNamed {fields : List (Field τ)} :
    ∀ (members : Members) {before : List (String × Value)},
      judgeNamed schema fields false before members = .error (.misfit m (s :: way)) →
      ∃ name token t field, s = .field name ∧ StringToken.text? token = some name
        ∧ (token, t) ∈ members.entries ∧ fields.find? (·.name == name) = some field
        ∧ judge schema (schema field.type) t = .error (.misfit m way)
  | .nil _, before, h => by
      rw [judgeNamed] at h
      cases h
  | .cons leading blanks token beforeColon behindColon value rest, before, h => by
      -- What the rest of the members has to say is said by the induction.
      have hrest : ∀ before',
          judgeNamed schema fields false before' rest = .error (.misfit m (s :: way)) →
          ∃ name token' t field, s = .field name ∧ StringToken.text? token' = some name
            ∧ (token', t) ∈ (token, value) :: rest.entries
            ∧ fields.find? (·.name == name) = some field
            ∧ judge schema (schema field.type) t = .error (.misfit m way) := by
        intro before' h
        obtain ⟨name, token', t, field, hs, htext, hmem, hrest⟩ := misfit_of_judgeNamed rest h
        exact ⟨name, token', t, field, hs, htext, List.mem_cons_of_mem _ hmem, hrest⟩
      show ∃ name token' t field, _ ∧ _ ∧ (token', t) ∈ (token, value) :: rest.entries ∧ _
      cases htext : StringToken.text? token with
      | none =>
          rw [judgeNamed, htext] at h
          cases h
      | some name =>
          cases hfield : fields.find? (·.name == name) with
          | none =>
              rw [judgeNamed_unknown htext hfield] at h
              exact hrest _ h
          | some field =>
              by_cases hduplicate : (before.lookup name).isSome = true
              · rw [judgeNamed_duplicate htext hfield hduplicate] at h
                cases h
              · rw [judgeNamed_field htext hfield hduplicate] at h
                rcases Verdict.bind_eq_error h with h | ⟨v, -, h⟩
                · obtain ⟨rfl, hvalue⟩ := Verdict.under_eq_misfit h
                  exact ⟨name, token, value, field, rfl, htext, List.mem_cons_self, hfield,
                    error_of_orNull hvalue⟩
                · exact hrest _ h

/-- A misfit inside the members of a table is that of a member. -/
theorem misfit_of_judgeFree :
    ∀ (members : Members) {before : List (String × Value)},
      judgeFree schema layout before members = .error (.misfit m (s :: way)) →
      ∃ name token t, s = .field name ∧ StringToken.text? token = some name
        ∧ (token, t) ∈ members.entries ∧ judge schema layout t = .error (.misfit m way)
  | .nil _, before, h => by
      rw [judgeFree] at h
      cases h
  | .cons leading blanks token beforeColon behindColon value rest, before, h => by
      rw [judgeFree] at h
      -- A name that is no text is no misfit, and neither is it one step inside.
      rcases Verdict.bind_eq_error h with h | ⟨name, hname, h⟩
      · exact absurd h (Verdict.here_meaning _ m s way)
      rcases Verdict.bind_eq_error h with h | ⟨v, -, h⟩
      · obtain ⟨rfl, hvalue⟩ := Verdict.under_eq_misfit h
        exact ⟨name, token, value, rfl, eq_some_of_meaning hname, List.mem_cons_self, hvalue⟩
      · obtain ⟨name, token', t, hs, htext, hmem, hvalue⟩ := misfit_of_judgeFree rest h
        exact ⟨name, token', t, hs, htext, List.mem_cons_of_mem _ hmem, hvalue⟩

theorem Items.mem_inside {its : Items} {i : Nat} {u : Tree} (h : its.values[i]? = some u) :
    u ∈ (Tree.list its).inside := List.mem_of_getElem? h

theorem Members.mem_inside {members : Members} {token : StringToken} {u : Tree}
    (h : (token, u) ∈ members.entries) : u ∈ (Tree.object members).inside :=
  List.mem_map_of_mem (f := Prod.snd) h

/-- A misfit inside a list is found by a step to one of its elements. -/
theorem exists_inside_list {element : τ} (helement : S element)
    (h : judge schema (.list element) t = .error (.misfit m (s :: way))) :
    ∃ type u, S type ∧ t.Child s u ∧ u ∈ t.inside
      ∧ Layout.inside? schema (.list element) s = some (schema type)
      ∧ judge schema (schema type) u = .error (.misfit m way) := by
  by_cases hlist : ∃ its, t = .list its
  · obtain ⟨its, rfl⟩ := hlist
    rw [judge_list] at h
    rcases Verdict.bind_eq_error h with h | ⟨v, -, h⟩
    · obtain ⟨i, u, rfl, hi, hu⟩ := misfit_of_judgeItems its h
      rw [Nat.zero_add]
      exact ⟨element, u, helement, hi, Items.mem_inside hi, rfl, hu⟩
    · cases h
  · rw [judge_list_of_ne hlist] at h
    exact absurd h (here_refuse _ t m s way)

/-- A misfit inside a table is found by a step to one of its members. -/
theorem exists_inside_table {element : τ} (helement : S element)
    (h : judge schema (.table .text element) t = .error (.misfit m (s :: way))) :
    ∃ type u, S type ∧ t.Child s u ∧ u ∈ t.inside
      ∧ Layout.inside? schema (.table .text element) s = some (schema type)
      ∧ judge schema (schema type) u = .error (.misfit m way) := by
  by_cases hobject : ∃ members, t = .object members
  · obtain ⟨members, rfl⟩ := hobject
    rw [judge_table_text] at h
    rcases Verdict.bind_eq_error h with h | ⟨v, -, h⟩
    · obtain ⟨name, token, u, rfl, htext, hmem, hu⟩ := misfit_of_judgeFree members h
      exact ⟨element, u, helement, ⟨token, htext, hmem⟩, Members.mem_inside hmem, rfl, hu⟩
    · cases h
  · rw [judge_table_of_ne hobject] at h
    exact absurd h (here_refuse _ t m s way)

/-- A misfit inside a record is found by a step to a field, by its name or by its place. -/
theorem exists_inside_record {title : String} {fields : List (Field τ)}
    (htypes : ∀ f ∈ fields, S f.type)
    (h : judge schema (.record title fields false) t = .error (.misfit m (s :: way))) :
    ∃ type u, S type ∧ t.Child s u ∧ u ∈ t.inside
      ∧ Layout.inside? schema (.record title fields false) s = some (schema type)
      ∧ judge schema (schema type) u = .error (.misfit m way) := by
  cases t with
  | list its =>
      rw [judge_record_list] at h
      rcases Verdict.bind_eq_error h with h | ⟨v, -, h⟩
      · obtain ⟨i, u, field, rfl, hi, hfield, hu⟩ := misfit_of_judgePositional its h
        rw [Nat.zero_add]
        refine ⟨field.type, u, htypes field (List.mem_of_getElem? hfield), hi,
          Items.mem_inside hi, ?_, hu⟩
        show (fields[i]?.map fun f => schema f.type) = some (schema field.type)
        rw [hfield]
        rfl
      · -- A list that is too long is ill-formed, and no misfit.
        by_cases hlong : fields.length < its.values.length
        · rw [if_pos hlong] at h
          cases h
        · rw [if_neg hlong] at h
          cases h
  | object members =>
      rw [judge_record_object] at h
      rcases Verdict.bind_eq_error h with h | ⟨read, -, h⟩
      · obtain ⟨name, token, u, field, rfl, htext, hmem, hfield, hu⟩ :=
          misfit_of_judgeNamed members h
        refine ⟨field.type, u, htypes field (List.mem_of_find?_eq_some hfield),
          ⟨token, htext, hmem⟩, Members.mem_inside hmem, ?_, hu⟩
        show ((fields.find? (·.name == name)).map fun f => schema f.type)
          = some (schema field.type)
        rw [hfield]
        rfl
      -- A field that is missing is missed by the object itself.
      · have hhere := (here_judgeComplete read fields).bind fun all =>
          Verdict.here_ok (Value.object all)
        exact absurd h (hhere m s way)
  | _ =>
      rw [judge_record_of_ne (by simp) (by simp)] at h
      exact absurd h (here_refuse _ _ m s way)

/-- **One step of the way of a misfit leads to a value inside**, which is judged for the layout
that is expected there and has the rest of the way. -/
theorem exists_misfit_inside (hlayout : PlainIn S layout)
    (h : judge schema layout t = .error (.misfit m (s :: way))) :
    ∃ type u, S type ∧ t.Child s u ∧ u ∈ t.inside
      ∧ layout.inside? schema s = some (schema type)
      ∧ judge schema (schema type) u = .error (.misfit m way) := by
  cases hlayout with
  | text =>
      rw [judge_text] at h
      exact absurd h (((here_judgeText _ t).bind fun _ => Verdict.here_ok _) m s way)
  | integer kind =>
      rw [judge_integer] at h
      exact absurd h (((here_judgeInteger kind t).bind fun _ => Verdict.here_ok _) m s way)
  | list helement => exact exists_inside_list helement h
  | record htypes => exact exists_inside_record htypes h
  | table helement => exact exists_inside_table helement h

/-- **The whole way of a misfit leads to a value that is a misfit itself.** The induction is on
the way. -/
theorem exists_offender (hschema : ∀ type, S type → PlainIn S (schema type))
    (hlayout : PlainIn S layout) (h : judge schema layout t = .error (.misfit m way)) :
    ∃ u expected, t.Follows way u ∧ layout.expected? schema way = some expected
      ∧ PlainIn S expected ∧ u.depth ≤ t.depth
      ∧ judge schema expected u = .error (.misfit m []) := by
  induction way generalizing t layout with
  -- At the end of the way stands the misfit.
  | nil => exact ⟨t, layout, rfl, rfl, hlayout, Nat.le_refl _, h⟩
  | cons s way ih =>
      obtain ⟨type, u, htype, hchild, hinside, hnext, hu⟩ := exists_misfit_inside hlayout h
      obtain ⟨offender, expected, hfollows, hexpected, hplain, hdepth, hjudge⟩ :=
        ih (hschema type htype) hu
      -- The value is further inside, so it is not nested deeper.
      have hless : u.depth < t.depth := (Tree.lt_of_mem_inside hinside).1
      refine ⟨offender, expected, ⟨u, hchild, hfollows⟩, ?_, hplain, by omega, hjudge⟩
      show (layout.inside? schema s).bind _ = _
      rw [hnext]
      exact hexpected

end Misfit

/-! ## §4. Bodies. -/

section Bodies

variable {schema : Schema τ} {S : τ → Prop} {layout : Layout τ}

/-- Why a body could not be read, if it could not. -/
def cause? (r : Except UnreadableBody Value) : Option BodyCause :=
  match r with
  | .ok _ => none
  | .error body => some body.cause

/-- A mapping failure is a misfit with the same way. -/
theorem ReadsLike.misfit_of_mapping {v : Verdict Value} {r : Except UnreadableBody Value}
    {path : Path} {message : String} (h : ReadsLike v r)
    (hcause : cause? r = some (.mapping path message)) : ∃ m, v = .error (.misfit m path) := by
  cases v with
  | ok v =>
      cases h
      cases hcause
  | error flaw =>
      cases flaw with
      | misfit m way =>
          obtain ⟨message', rfl⟩ := h
          cases hcause
          exact ⟨m, rfl⟩
      | meaningless | mistaken =>
          obtain ⟨message', rfl⟩ := h
          cases hcause

/-- **The path of a mapping failure leads to a value that fails by itself**, for every schema of
plain layouts. -/
theorem exists_offender_of_cause (hschema : ∀ type, S type → PlainIn S (schema type))
    (hlayout : PlainIn S layout) {d : Document} (hdepth : d.tree.depth ≤ depthLimit) {path : Path}
    {message : String}
    (h : cause? (parseBody schema layout d.bytes) = some (.mapping path message)) :
    ∃ value expected, d.tree.Follows path value ∧ layout.expected? schema path = some expected
      ∧ ∃ own, cause? (parseBody schema expected value.bytes) = some (.mapping [] own) := by
  obtain ⟨m, hjudge⟩ := (readsLike_judge d hdepth).misfit_of_mapping h
  obtain ⟨value, expected, hfollows, hexpected, hplain, hless, hown⟩ :=
    exists_offender hschema hlayout hjudge
  refine ⟨value, expected, hfollows, hexpected, ?_⟩
  -- The value alone is a document too, and no deeper than the one it comes from.
  have halone : value.alone.bytes = value.bytes := List.append_nil value.bytes
  have hreads : ReadsLike (judge schema expected value)
      (parseBody schema expected value.alone.bytes) :=
    readsLike_judge value.alone (Nat.le_trans hless hdepth)
  rw [halone, hown] at hreads
  obtain ⟨own, hread⟩ := hreads
  refine ⟨own, ?_⟩
  rw [hread]
  rfl

end Bodies

end ErrorContract.Json

namespace ErrorContract.Sample

open ErrorContract.Json

/-! ## §5. The bodies of the sample service. -/

/-- Types that consist of plain layouts. -/
def BodyType.IsPlain : BodyType → Prop
  | .insert | .row | .rows | .cells | .cell | .cellList | .tree | .trees | .scores | .numbers
  | .text | .integer _ => True
  | .shape | .shapes | .strict | .numberedText | .tagged | .byId | .truth | .value => False

/-- Plain types hold values of plain types. -/
theorem plainIn_schema (type : BodyType) (h : type.IsPlain) :
    PlainIn BodyType.IsPlain (schema type) := by
  cases type with
  | text => exact .text
  | integer kind => exact .integer kind
  | rows | cellList | trees | numbers => exact .list trivial
  | scores => exact .table trivial
  | insert | row | cells | cell | tree =>
      refine .record ?_
      simp [field, BodyType.IsPlain, BodyType.signed, BodyType.unsigned]
  | _ => exact h.elim

/-- The types of bodies whose failures are followed. -/
def followed : List BodyType := [.insert, .cells, .cell, .tree, .numbers, .scores]

/-- **A mapping failure names exactly the offending value**: its path can be followed in the
document, and the value reached, read on its own as what is expected there, fails again, with an
empty path. -/
theorem mapping_names_offender {type : BodyType} (htype : type ∈ followed) {d : Document}
    (hdepth : d.tree.depth ≤ 127) {path : Path} {message : String}
    (h : cause? (parseBody schema (schema type) d.bytes) = some (.mapping path message)) :
    ∃ value expected, d.tree.Follows path value
      ∧ (schema type).expected? schema path = some expected
      ∧ ∃ own, cause? (parseBody schema expected value.bytes) = some (.mapping [] own) := by
  have hplain : type.IsPlain := by
    simp only [followed, List.mem_cons, List.not_mem_nil, or_false] at htype
    rcases htype with rfl | rfl | rfl | rfl | rfl | rfl <;> exact trivial
  exact exists_offender_of_cause plainIn_schema (plainIn_schema type hplain) hdepth h

/-- A string of bytes that stand for themselves. -/
def plainString (bytes : List UInt8) : StringToken := bytes.filterMap fun b =>
  if h : b ≠ 0x22 ∧ b ≠ 0x5c ∧ ¬ b < 0x20 then some (.byte b h.1 h.2.1 h.2.2) else none

/-- A tree whose second child has no number. -/
def numberlessChild : Document :=
  let one : Tree := .number ⟨false, 0x31, [], [], none, rfl, by simp, by simp, by simp⟩
  let node (value : Tree) (more : Members) : Members :=
    .cons .empty .empty (plainString "value".toUTF8.toList) .empty .empty value more
  let children : Items :=
    .cons .empty .empty (.object (node one (.nil .empty)))
      (.cons .empty .empty (.object (node .null (.nil .empty))) (.nil .empty))
  Tree.alone (.object (node one (.cons .empty .empty (plainString "children".toUTF8.toList) .empty
    .empty (.list children) (.nil .empty))))

theorem mapping_names_offender_numberless_child :
    ∃ value expected,
      numberlessChild.tree.Follows [.field "children", .index 1, .field "value"] value
      ∧ (schema .tree).expected? schema [.field "children", .index 1, .field "value"]
          = some expected
      ∧ ∃ own, cause? (parseBody schema expected value.bytes) = some (.mapping [] own) :=
  mapping_names_offender (by decide) (by decide)
    (show _ = some (BodyCause.mapping _ "invalid type: null, expected i64 at line 1 column 48") by
      decide +kernel)

end ErrorContract.Sample
