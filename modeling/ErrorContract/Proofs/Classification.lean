/-
  ErrorContract.Proofs.Classification
  ───────────────────────────────────
  **WHICH FAILURE A RAISED ERROR STANDS FOR.**

  The classifier is compared with a table.  Each `Criterion` names a kind of
  layer and says how the outermost layer of that kind reads as a failure; the
  table lists them, most specific first.  Main statement: the classification
  is what the first criterion of the table finds that finds anything among
  the visible layers, and where none does it is the fallback failure with
  the text of the outermost layer.
-/
import ErrorContract.Proofs.VisibleLayers

namespace ErrorContract

/-! ## §1. Kinds of layers. -/

/-- What kind of error a layer is. -/
inductive LayerKind where
  | body | statement | client | sql | failure
  | common (kind : CommonKind)
  | other
  deriving DecidableEq

/-- The kind of a layer. -/
def Layer.kind : Layer → LayerKind
  | .body _ => .body
  | .statement _ => .statement
  | .client _ => .client
  | .sql _ => .sql
  | .failure _ => .failure
  | .common kind _ => .common kind
  | .other _ => .other

/-- `l` is the outermost of the layers of a kind. -/
def IsOutermost (kind : LayerKind) (layers : List Layer) (l : Layer) : Prop :=
  l.kind = kind ∧ ∃ above below, layers = above ++ l :: below ∧ ∀ a ∈ above, a.kind ≠ kind

theorem isOutermost_iff {kind : LayerKind} {layers : List Layer} {l : Layer} :
    IsOutermost kind layers l ↔ layers.find? (fun a => decide (a.kind = kind)) = some l := by
  rw [List.find?_eq_some_iff_append]
  simp [IsOutermost]

/-! ## §2. The table of criteria. -/

/-- How an error of a common kind reads as a failure. -/
def CommonKind.reading (message : String) : CommonKind → Failure
  | .wholeNumber | .floatingNumber | .truthValue | .narrowing | .inputOutput => .badRequest message
  | .textConversion | .textCheck => .internal .encoding message
  | .json => .internal .parse message

/-- How a layer reads as a failure: vendor's errors, bodies and failures as themselves. -/
def Layer.reading : Layer → Option Failure
  | .body unreadable => some (.unreadableBody unreadable)
  | .statement error => some (.statement error)
  | .client error => some (.client error)
  | .sql error => some (.sql error)
  | .failure raised => some raised
  | .common kind message => some (kind.reading message)
  | .other _ => none

/-- How a layer reads of which only an unreadable body inside a failure counts. -/
def Layer.bodyReading : Layer → Option Failure
  | .failure (.unreadableBody unreadable) => some (.unreadableBody unreadable)
  | _ => none

/-- A way to find a failure: the outermost layer of a kind, and how that reads. -/
structure Criterion where
  kind : LayerKind
  reading : Layer → Option Failure

/-- A criterion finds a failure among layers. -/
def Criterion.Finds (c : Criterion) (layers : List Layer) (f : Failure) : Prop :=
  ∃ l, IsOutermost c.kind layers l ∧ c.reading l = some f

/-- The criterion that reads the outermost layer of a kind as what it is. -/
def Criterion.on (kind : LayerKind) : Criterion := ⟨kind, Layer.reading⟩

/-- **The table**, most specific criterion first. -/
def criteria : List Criterion := [
  .on .body, ⟨.failure, Layer.bodyReading⟩,
  .on .statement, .on .client,
  .on .sql,
  .on .failure,
  .on (.common .wholeNumber), .on (.common .floatingNumber), .on (.common .truthValue),
  .on (.common .narrowing), .on (.common .inputOutput),
  .on (.common .textConversion), .on (.common .textCheck),
  .on (.common .json)]

/-- What a criterion finds among layers, computed. -/
def Criterion.find (c : Criterion) (layers : List Layer) : Option Failure :=
  (layers.find? fun a => decide (a.kind = c.kind)).bind c.reading

theorem Criterion.finds_iff {c : Criterion} {layers : List Layer} {f : Failure} :
    c.Finds layers f ↔ c.find layers = some f := by
  unfold Criterion.Finds Criterion.find
  rw [Option.bind_eq_some_iff]
  constructor
  · rintro ⟨l, hl, hf⟩
    exact ⟨l, isOutermost_iff.mp hl, hf⟩
  · rintro ⟨l, hl, hf⟩
    exact ⟨l, isOutermost_iff.mpr hl, hf⟩

/-! ## §3. Every rule is a part of the table. -/

/-- Picking the layers of one kind, and nothing else, finds the outermost of them. -/
theorem findSome?_eq_find?_bind {α : Type} {pick : Layer → Option α} {kind : LayerKind}
    (hpick : ∀ l, (pick l).isSome ↔ l.kind = kind) (layers : List Layer) :
    layers.findSome? pick = (layers.find? fun a => decide (a.kind = kind)).bind pick := by
  induction layers with
  | nil => rfl
  | cons l rest ih =>
      rw [List.findSome?_cons, List.find?_cons]
      by_cases hl : l.kind = kind
      · obtain ⟨a, ha⟩ := Option.isSome_iff_exists.mp ((hpick l).mpr hl)
        simp [hl, ha]
      · have hnone : pick l = none := by
          rw [← Option.not_isSome_iff_eq_none]
          exact fun h => hl ((hpick l).mp h)
        simp [hl, hnone, ih]

/-- A search that passes over everything but the layers of one kind is the search of a criterion,
if what is made of a layer that was found is what the criterion reads. -/
theorem find_eq_bind_outermost {α : Type} {pick : Layer → Option α} {c : Criterion}
    {make : α → Option Failure} (e : Raised) (hother : c.kind ≠ .other)
    (hpick : ∀ l, (pick l).isSome ↔ l.kind = c.kind)
    (hmake : ∀ l, l.kind = c.kind → c.reading l = (pick l).bind make) :
    c.find e.layers = (e.outermost pick).bind make := by
  have htext : ∀ message, pick (.other message) = none := by
    intro message
    rw [← Option.not_isSome_iff_eq_none, hpick]
    exact fun h => hother h.symm
  -- The search in two passes is one scan of the layers, which finds the outermost of the kind.
  rw [Raised.outermost_eq_findSome?_layers htext, findSome?_eq_find?_bind hpick, Criterion.find,
    Option.bind_assoc]
  cases h : e.layers.find? fun a => decide (a.kind = c.kind) with
  | none => rfl
  | some l =>
      have hl : l.kind = c.kind := by simpa using List.find?_some h
      exact hmake l hl

theorem Layer.isSome_reading (l : Layer) : l.reading.isSome ↔ l.kind ≠ .other := by
  cases l <;> simp [Layer.reading, Layer.kind]

/-- The same for a criterion that reads layers as what they are. -/
theorem find_on_eq_map_outermost {α : Type} {pick : Layer → Option α} {kind : LayerKind}
    {make : α → Failure} (e : Raised) (hother : kind ≠ .other)
    (hpick : ∀ l, (pick l).map make = if l.kind = kind then l.reading else none) :
    (Criterion.on kind).find e.layers = (e.outermost pick).map make := by
  rw [Option.map_eq_bind]
  refine find_eq_bind_outermost e hother (fun l => ?_) (fun l hl => ?_)
  · show _ ↔ l.kind = kind
    rw [← Option.isSome_map (f := make), hpick]
    by_cases hl : l.kind = kind
    · simpa [hl, Layer.isSome_reading] using hother
    · simp [hl]
  · rw [← Option.map_eq_bind, hpick]
    exact (if_pos hl).symm

theorem find_on_common (kind : CommonKind) (e : Raised) :
    (Criterion.on (.common kind)).find e.layers
      = (e.outermost (Layer.text? kind)).map (kind.reading ·) := by
  apply find_on_eq_map_outermost e LayerKind.noConfusion
  intro l
  cases l with
  | common k message => by_cases hk : k = kind <;> simp [Layer.text?, Layer.kind, Layer.reading, hk]
  | _ => rfl

theorem find_on_body (e : Raised) :
    (Criterion.on .body).find e.layers = (e.outermost Layer.body?).map .unreadableBody :=
  find_on_eq_map_outermost e LayerKind.noConfusion fun l => by cases l <;> rfl

theorem find_on_statement (e : Raised) :
    (Criterion.on .statement).find e.layers = (e.outermost Layer.statement?).map .statement :=
  find_on_eq_map_outermost e LayerKind.noConfusion fun l => by cases l <;> rfl

theorem find_on_client (e : Raised) :
    (Criterion.on .client).find e.layers = (e.outermost Layer.client?).map .client :=
  find_on_eq_map_outermost e LayerKind.noConfusion fun l => by cases l <;> rfl

theorem find_on_sql (e : Raised) :
    (Criterion.on .sql).find e.layers = (e.outermost Layer.sql?).map .sql :=
  find_on_eq_map_outermost e LayerKind.noConfusion fun l => by cases l <;> rfl

theorem find_on_failure (e : Raised) :
    (Criterion.on .failure).find e.layers = e.outermost Layer.failure? := by
  have hfailure : (Criterion.on .failure).find e.layers = (e.outermost Layer.failure?).map id :=
    find_on_eq_map_outermost e LayerKind.noConfusion fun l => by cases l <;> rfl
  rw [hfailure, Option.map_id_fun, id]

namespace Failure

/-- The unreadable body that a failure is, as a failure. -/
def asBody : Failure → Option Failure
  | .unreadableBody unreadable => some (.unreadableBody unreadable)
  | _ => none

theorem find_bodyReading (e : Raised) :
    (Criterion.mk .failure Layer.bodyReading).find e.layers
      = (e.outermost Layer.failure?).bind asBody := by
  apply find_eq_bind_outermost e LayerKind.noConfusion
  · intro l
    cases l <;> simp [Layer.failure?, Layer.kind]
  · intro l hl
    cases l with
    | failure raised => cases raised <;> rfl
    | _ => exact LayerKind.noConfusion hl

theorem unreadableBodyRule_eq (e : Raised) :
    unreadableBodyRule e = ((Criterion.on .body).find e.layers).or
      ((Criterion.mk .failure Layer.bodyReading).find e.layers) := by
  rw [find_on_body, find_bodyReading, unreadableBodyRule]
  cases e.outermost Layer.body? with
  | some unreadable => rfl
  | none =>
      cases e.outermost Layer.failure? with
      | none => rfl
      | some raised => cases raised <;> rfl

theorem databaseRule_eq (e : Raised) :
    databaseRule e = ((Criterion.on .statement).find e.layers).or
      ((Criterion.on .client).find e.layers) := by
  rw [find_on_statement, find_on_client, databaseRule]
  cases e.outermost Layer.statement? <;> rfl

theorem sqlRule_eq (e : Raised) : sqlRule e = (Criterion.on .sql).find e.layers :=
  (find_on_sql e).symm

theorem applicationRule_eq (e : Raised) :
    applicationRule e = (Criterion.on .failure).find e.layers :=
  (find_on_failure e).symm

/-- The first text of some common kinds, all of which read alike, is what their criteria find. -/
theorem map_firstText {make : String → Failure} (e : Raised) :
    ∀ kinds : List CommonKind, (∀ k ∈ kinds, ∀ message, k.reading message = make message) →
      (firstText kinds e).map make
        = kinds.findSome? fun k => (Criterion.on (.common k)).find e.layers
  | [], _ => rfl
  | kind :: kinds, hmake => by
      have ih := map_firstText e kinds fun k hk => hmake k (List.mem_cons_of_mem kind hk)
      rw [firstText] at ih ⊢
      rw [List.findSome?_cons, List.findSome?_cons, find_on_common]
      -- Either a layer of the first kind is found, or the search goes on with the others.
      cases e.outermost (Layer.text? kind) with
      | none => exact ih
      | some message => exact congrArg some (hmake kind List.mem_cons_self message).symm

theorem badRequestRule_eq (e : Raised) :
    badRequestRule e
      = badRequestKinds.findSome? fun k => (Criterion.on (.common k)).find e.layers := by
  apply map_firstText
  intro k hk message
  cases k <;> simp_all [badRequestKinds, CommonKind.reading]

theorem internalRule_eq (e : Raised) :
    internalRule e
      = (encodingKinds.findSome? fun k => (Criterion.on (.common k)).find e.layers).or
        ((Criterion.on (.common .json)).find e.layers) := by
  have hencoding : (firstText encodingKinds e).map (.internal .encoding)
      = encodingKinds.findSome? fun k => (Criterion.on (.common k)).find e.layers := by
    apply map_firstText
    intro k hk message
    cases k <;> simp_all [encodingKinds, CommonKind.reading]
  have hjson : (firstText [.json] e).map (.internal .parse)
      = (Criterion.on (.common .json)).find e.layers := by
    rw [find_on_common, firstText, List.findSome?_singleton]
    rfl
  rw [← hencoding, ← hjson, internalRule]
  cases firstText encodingKinds e <;> rfl

theorem findSome?_cons_eq_or {α β : Type} (pick : α → Option β) (a : α) (rest : List α) :
    (a :: rest).findSome? pick = (pick a).or (rest.findSome? pick) := by
  rw [List.findSome?_cons]
  cases pick a <;> rfl

/-- **The rules, one after the other, are the table.** -/
theorem findSome?_rules (e : Raised) :
    (rules.findSome? fun rule => rule e) = criteria.findSome? (·.find e.layers) := by
  have hcriteria : criteria = [.on .body, ⟨.failure, Layer.bodyReading⟩]
      ++ [.on .statement, .on .client] ++ [.on .sql] ++ [.on .failure]
      ++ badRequestKinds.map (fun k => .on (.common k))
      ++ encodingKinds.map (fun k => .on (.common k)) ++ [.on (.common .json)] := rfl
  -- Each rule is turned into its criteria; what is left is to move the brackets.
  rw [hcriteria]
  simp only [rules, List.findSome?_append, List.findSome?_map, findSome?_cons_eq_or,
    List.findSome?_nil, Option.or_none, Option.or_assoc, Function.comp_def,
    unreadableBodyRule_eq, databaseRule_eq, sqlRule_eq, applicationRule_eq, badRequestRule_eq,
    internalRule_eq]

/-! ## §4. THE CLASSIFICATION THEOREM. -/

/-- **The first criterion that finds anything decides**; where none does, the text of the
outermost layer is all that is left of the error. -/
theorem classify_by_first_criterion (e : Raised) :
    (∃ before c after, criteria = before ++ c :: after
        ∧ (∀ b ∈ before, ∀ f, ¬ b.Finds e.layers f) ∧ c.Finds e.layers (classify e))
    ∨ ((∀ c ∈ criteria, ∀ f, ¬ c.Finds e.layers f)
        ∧ ∃ top rest, e.layers = top :: rest ∧ classify e = ofText top.message) := by
  have hnone : ∀ c : Criterion, c.find e.layers = none → ∀ f, ¬ c.Finds e.layers f := by
    intro c hc f hf
    rw [Criterion.finds_iff, hc] at hf
    cases hf
  -- The criterion that decides splits the table: those before it find nothing.
  cases h : criteria.findSome? (·.find e.layers) with
  | some f =>
      left
      obtain ⟨before, c, after, hsplit, hc, hbefore⟩ := List.findSome?_eq_some_iff.mp h
      refine ⟨before, c, after, hsplit, fun b hb => hnone b (hbefore b hb), ?_⟩
      rw [classify, findSome?_rules, h]
      exact Criterion.finds_iff.mpr hc
  | none =>
      right
      refine ⟨fun c hc => hnone c (List.findSome?_eq_none_iff.mp h c hc), ?_⟩
      obtain ⟨top, rest, hlayers, htop⟩ := e.exists_layers_eq_cons
      refine ⟨top, rest, hlayers, ?_⟩
      rw [classify, findSome?_rules, h, htop]
      rfl

end Failure

end ErrorContract
