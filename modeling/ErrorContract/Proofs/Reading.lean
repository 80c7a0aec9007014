/-
  ErrorContract.Proofs.Reading
  ────────────────────────────
  **WELL-FORMED VALUES ARE READ AS THEY ARE JUDGED.**

  Each reader meets the verdict of its counterpart, whatever follows the
  value, if the value may open its brackets and no loop runs out of rounds.
  The lemmas follow the reader: the loops between brackets, and the layouts.
  Reading a tree ends as `judge` says (`meets_readAt`), and so does reading a
  document (`readsLike_judge`).
-/
import ErrorContract.Json.Body
import ErrorContract.Proofs.ReadingScalars

namespace ErrorContract.Json

open ErrorContract

variable {tail : List UInt8} {c : Cursor}

/-! ## §1. What stands between brackets. -/

/-- A reader reads a value as it is judged, wherever that stands. -/
def ReadsAs (read : Read Value) (v : Verdict Value) (t : Tree) : Prop :=
  ∀ (tail : List UInt8) (c : Cursor) (w : Blanks), EndsNumber tail →
    c.At (w.bytes ++ (t.bytes ++ tail)) → Meets tail v (read c)

/-- A reader reads each of these values as it is judged, whatever the layout. -/
def ReadsAll (schema : Schema τ) (read : Layout τ → Read Value) (ts : List Tree) : Prop :=
  ∀ layout, ∀ t ∈ ts, ReadsAs (read layout) (judge schema layout t) t

section Loops

variable {schema : Schema τ} {ctx : Context} {read : Layout τ → Read Value} {layout : Layout τ}
  {first : Bool}

theorem ReadsAll.front {t : Tree} {ts : List Tree} (h : ReadsAll schema read (t :: ts))
    (layout : Layout τ) : ReadsAs (read layout) (judge schema layout t) t :=
  h layout t List.mem_cons_self

theorem ReadsAll.behind {t : Tree} {ts : List Tree} (h : ReadsAll schema read (t :: ts)) :
    ReadsAll schema read ts := fun layout s hs => h layout s (List.mem_cons_of_mem t hs)

/-- **The elements of a list are read as they are judged.** -/
theorem meets_items (htracked : ctx.tracked = true) {rounds : Nat} {its : Items}
    (hread : ReadsAll schema read its.values) {position : Nat} {before : List Value}
    (hrounds : its.values.length < rounds) (h : c.At (its.bytes first ++ 0x5d :: tail))
    (hfirst : (position == 0) = first) :
    Meets (0x5d :: tail) (judgeItems schema layout position before its)
      (items ctx (read layout) rounds position before c) := by
  -- The induction is on the rounds, one for each element and one for the end.
  induction rounds generalizing c its position before first with
  | zero => exact absurd hrounds (Nat.not_lt_zero _)
  | succ rounds ih =>
      subst hfirst
      cases its with
      | nil w => exact (meets_hasItem_end _ h).bind_ok fun c₁ h₁ => Meets.pure h₁
      | cons leading blanks value rest =>
          refine (meets_hasItem _ h).bind_ok fun c₁ h₁ => ?_
          have hvalue := hread.front layout _ c₁ .empty (endsNumber_items rest tail) h₁
          refine (hvalue.step htracked (.index position)).bind fun v c₂ _ h₂ => ?_
          exact ih hread.behind (Nat.lt_of_succ_lt_succ hrounds) h₂ rfl

/-- **The members of an object with free names are read as they are judged.** -/
theorem meets_freeMembers (htracked : ctx.tracked = true) {rounds : Nat} {members : Members}
    (hread : ReadsAll schema read (members.entries.map Prod.snd)) {before : List (String × Value)}
    (hrounds : members.entries.length < rounds) (h : c.At (members.bytes first ++ 0x7d :: tail)) :
    Meets (0x7d :: tail) (judgeFree schema layout before members)
      (freeMembers ctx (read layout) rounds first before c) := by
  -- One round is for each member and one for the end, as in a list.
  induction rounds generalizing c members first before with
  | zero => exact absurd hrounds (Nat.not_lt_zero _)
  | succ rounds ih =>
      cases members with
      | nil w => exact (meets_memberName_end ctx first h).bind_ok fun c₁ h₁ => Meets.pure h₁
      | cons leading blanks token beforeColon behindColon value rest =>
          have hname := meets_memberName ctx first h
          unfold judgeFree freeMembers
          cases htext : StringToken.text? token with
          | none =>
              rw [htext] at hname
              exact MeetsThen.bind_error hname
          | some name =>
              rw [htext] at hname
              refine hname.bind_ok fun c₁ h₁ => (meets_colon h₁).bind_ok fun c₂ h₂ => ?_
              have hvalue := hread.front layout _ c₂ behindColon (endsNumber_members rest tail) h₂
              refine (hvalue.step htracked (.field name)).bind fun v c₃ _ h₃ => ?_
              exact ih hread.behind (Nat.lt_of_succ_lt_succ hrounds) h₃

/-- **Members whose names are numbers are read as they are judged.** -/
theorem meets_numberedMembers (htracked : ctx.tracked = true) (kind : IntegerKind) {rounds : Nat}
    {members : Members} (hread : ReadsAll schema read (members.entries.map Prod.snd))
    {before : List (Int × Value)} (hrounds : members.entries.length < rounds)
    (h : c.At (members.bytes first ++ 0x7d :: tail)) :
    Meets (0x7d :: tail) (judgeNumbered schema kind layout before members)
      (numberedMembers ctx kind (read layout) rounds first before c) := by
  induction rounds generalizing c members first before with
  | zero => exact absurd hrounds (Nat.not_lt_zero _)
  | succ rounds ih =>
      cases members with
      | nil w =>
          exact (Meets.step_none ctx (meets_hasMember_end first h)).bind_ok fun c₁ h₁ =>
            Meets.pure h₁
      | cons leading blanks token beforeColon behindColon value rest =>
          unfold judgeNumbered
          refine (Meets.step_none ctx (meets_hasMember first h)).bind_ok fun c₁ h₁ => ?_
          refine (meets_numericName htracked kind token h₁).bind fun i c₂ _ h₂ => ?_
          refine (meets_colon h₂).bind_ok fun c₃ h₃ => ?_
          have hvalue := hread.front layout _ c₃ behindColon (endsNumber_members rest tail) h₃
          refine (hvalue.step htracked (.field (Decimal.signedText i))).bind fun v c₄ _ h₄ => ?_
          exact ih hread.behind (Nat.lt_of_succ_lt_succ hrounds) h₄

/-! ### Records. -/

/-- `null` is taken where it may stand. -/
theorem readsAs_null (other : Read Value) : ReadsAs (do
    match ← look with
    | some 0x6e => advance; literal nullTail; return .null
    | _ => other : Read Value) (.ok .null) .null := by
  intro tail c w _ h
  refine (meets_look rfl h).bind_ok fun c₁ h₁ => (meets_advance h₁).bind_ok fun c₂ h₂ => ?_
  exact (meets_literal nullTail h₂).bind_ok fun c₃ h₃ => Meets.pure h₃

/-- Anything but `null` is left to another reader. -/
theorem meets_null_or {t : Tree} {w : Blanks} {v : Verdict Value} {other : Read Value}
    (ht : t ≠ .null) (h : c.At (w.bytes ++ (t.bytes ++ tail)))
    (hother : ∀ c' : Cursor, c'.At (t.bytes ++ tail) → Meets tail v (other c')) :
    Meets tail v ((do
      match ← look with
      | some 0x6e => advance; literal nullTail; return .null
      | _ => other : Read Value) c) := by
  have hskip : ∀ b : UInt8, b ≠ 0x6e → (match some b with
      | some 0x6e => (do advance; literal nullTail; return .null : Read Value)
      | _ => other) = other := by
    intro b hb
    split
    · next hnull => exact absurd (Option.some.inj hnull) hb
    · rfl
  rw [t.bytes_eq, List.cons_append] at h
  refine (meets_look t.head_ne.1 h).bind_ok fun c₁ h₁ => ?_
  rw [← List.cons_append, ← t.bytes_eq] at h₁
  rw [hskip _ (Tree.head_ne_null ht)]
  exact hother c₁ h₁

/-- **A field is read as it is judged.** -/
theorem readsAs_readField {field : Field τ} {t : Tree}
    (hread : ReadsAs (read (schema field.type)) (judge schema (schema field.type) t) t) :
    ReadsAs (readField schema read field) (judgeField schema field t) t := by
  unfold readField judgeField Field.orNull
  cases hpresence : field.presence with
  | required => exact hread
  | defaulted v => exact hread
  | nullable | optional =>
      by_cases ht : t = .null
      · subst ht
        exact readsAs_null _
      · intro tail c w htail h
        have hother : ∀ c' : Cursor, c'.At (t.bytes ++ tail) →
            Meets tail (judge schema (schema field.type) t) (read (schema field.type) c') :=
          fun c' hc' => hread tail c' .empty htail hc'
        cases t with
        | null => exact absurd rfl ht
        | _ => exact meets_null_or ht h hother

/-- Fields are completed as they are judged. -/
theorem meets_complete {post : Cursor → Prop} (read : List (String × Value))
    (fields : List (Field τ)) (h : post c) :
    MeetsThen post (judgeComplete read fields) (complete read fields c) := by
  induction fields with
  | nil => exact ⟨c, rfl, h⟩
  | cons field fields ih =>
      have hrest : ∀ v : Value, MeetsThen post
          (do return (field.name, v) :: (← judgeComplete read fields))
          ((do return (field.name, v) :: (← complete read fields) : Read _) c) := fun v => ih.map
      unfold judgeComplete complete
      cases hlookup : read.lookup field.name with
      | some v => exact hrest v
      | none =>
          cases hpresence : field.presence with
          | required => exact meets_mismatch_bind _ c
          | nullable => exact hrest .null
          | optional => exact hrest .null
          | defaulted v => exact hrest v

/-- **The members of a record are read as they are judged.** Only what fields ask for has to be
read; the other members are passed over. -/
theorem meets_namedFields (htracked : ctx.tracked = true) {fields : List (Field τ)} {closed : Bool}
    {rounds : Nat} {members : Members}
    (hread : ∀ e ∈ members.entries, ∀ f ∈ fields, ReadsAs (read (schema f.type))
      (judge schema (schema f.type) e.2) e.2)
    (hbound : ∀ e ∈ members.entries, e.2.bytes.length ≤ ctx.bound)
    {before : List (String × Value)} (hrounds : members.entries.length < rounds)
    (h : c.At (members.bytes first ++ 0x7d :: tail)) :
    Meets (0x7d :: tail) (judgeNamed schema fields closed before members)
      (namedFields schema ctx read fields closed rounds first before c) := by
  induction rounds generalizing c members first before with
  | zero => exact absurd hrounds (Nat.not_lt_zero _)
  | succ rounds ih =>
      cases members with
      | nil w => exact (meets_memberName_end ctx first h).bind_ok fun c₁ h₁ => Meets.pure h₁
      | cons leading blanks token beforeColon behindColon value rest =>
          have hname := meets_memberName ctx first h
          have hrest := endsNumber_members rest tail
          have ihRest : ∀ (c' : Cursor) (before : List (String × Value)),
              c'.At (rest.bytes false ++ 0x7d :: tail) →
              Meets (0x7d :: tail) (judgeNamed schema fields closed before rest)
                (namedFields schema ctx read fields closed rounds false before c') :=
            fun c' before hc' => ih (fun e he => hread e (List.mem_cons_of_mem _ he))
              (fun e he => hbound e (List.mem_cons_of_mem _ he))
              (Nat.lt_of_succ_lt_succ hrounds) hc'
          unfold namedFields
          cases htext : StringToken.text? token with
          | none =>
              rw [htext] at hname
              rw [judgeNamed, htext]
              exact MeetsThen.bind_error hname
          | some name =>
              rw [htext] at hname
              refine hname.bind_ok fun c₁ h₁ => ?_
              cases hfield : fields.find? (·.name == name) with
              | none =>
                  -- a member that nobody asked for, which a closed record refuses
                  rw [judgeNamed_unknown htext hfield]
                  simp only [hfield]
                  cases closed with
                  | true =>
                      have hrefused : Meets (0x7d :: tail)
                          ((misfit (.unknownField name (fieldNames fields)) : Verdict Unit).under
                            (.field name)) (ctx.atField name
                              (mismatch (.unknownField name (fieldNames fields))) c₁) :=
                        Meets.step htracked _ (meets_mismatch _ c₁)
                      exact hrefused.bind_error
                  | false =>
                      refine (meets_colon h₁).bind_ok fun c₂ h₂ => ?_
                      have hskip := meets_skipValue value (hbound _ List.mem_cons_self) hrest h₂
                      exact (hskip.step htracked (.field name)).bind_ok fun c₃ h₃ =>
                        ihRest c₃ before h₃
              | some field =>
                  -- a member for a field, which may have been there before
                  by_cases hduplicate : (before.lookup name).isSome = true
                  · rw [judgeNamed_duplicate htext hfield hduplicate]
                    simp only [hfield, hduplicate, if_true]
                    exact meets_mismatch_bind _ c₁
                  · rw [judgeNamed_field htext hfield hduplicate]
                    simp only [hfield, hduplicate]
                    refine (meets_colon h₁).bind_ok fun c₂ h₂ => ?_
                    have hvalue := readsAs_readField
                      (hread _ List.mem_cons_self field (List.mem_of_find?_eq_some hfield)) _ c₂
                      behindColon hrest h₂
                    exact (hvalue.step htracked (.field name)).bind fun v c₃ _ h₃ =>
                      ihRest c₃ ((name, v) :: before) h₃

/-- A list that is too long is not at its end when it should be. -/
def surplus (expected : Nat) (its : Items) : Verdict Unit :=
  if expected < its.values.length then .error .mistaken else .ok ()

/-- The end of a list is met, unless elements are left over. -/
theorem meets_closeList_surplus (its : Items) (h : c.At (its.bytes first ++ 0x5d :: tail)) :
    Meets tail (surplus 0 its) (closeList c) := by
  cases its with
  | nil w => exact meets_closeList h
  | cons leading blanks value rest => exact meets_closeList_extra first h

/-- The end of a list has come before all fields have. -/
theorem meets_positional_short (fields : List (Field τ)) (title : String) (position : Nat)
    {w : Blanks} (h : c.At (w.bytes ++ 0x5d :: tail)) :
    MeetsThen (fun c' => Meets tail (.ok ()) (closeList c')) (judgeShort title position fields)
      (positional schema ctx read title position fields c) := by
  induction fields generalizing c position w with
  | nil => exact ⟨c, rfl, meets_closeList h⟩
  | cons field fields ih =>
      have ihShort : ∀ (v : Value) (c' : Cursor), c'.At (0x5d :: tail) →
          MeetsThen (fun c'' => Meets tail (.ok ()) (closeList c''))
            (do return (field.name, v) :: (← judgeShort title (position + 1) fields))
            ((do return (field.name, v) :: (← positional schema ctx read title (position + 1)
              fields) : Read _) c') := fun v c' hc' => (ih (w := .empty) _ hc').map
      unfold positional judgeShort
      refine (meets_hasItem_end _ h).bind_ok fun c₁ h₁ => ?_
      cases hpresence : field.presence with
      | required => exact meets_mismatch_bind _ c₁
      | nullable => exact meets_mismatch_bind _ c₁
      | optional => exact ihShort .null c₁ h₁
      | defaulted v => exact ihShort v c₁ h₁

/-- **The elements of a list are read as the fields of a record**; then the list must end. -/
theorem meets_positional (htracked : ctx.tracked = true) {fields : List (Field τ)} {its : Items}
    (hread : ReadsAll schema read its.values) (title : String) {position : Nat}
    (h : c.At (its.bytes first ++ 0x5d :: tail)) (hfirst : (position == 0) = first) :
    MeetsThen (fun c' => Meets tail (surplus fields.length its) (closeList c'))
      (judgePositional schema title position fields its)
      (positional schema ctx read title position fields c) := by
  induction fields generalizing c its position first with
  -- No field is left for what follows, and the list should have ended.
  | nil => cases its <;> exact ⟨c, rfl, meets_closeList_surplus _ h⟩
  | cons field fields ih =>
      cases its with
      | nil w => exact meets_positional_short _ title position h
      | cons leading blanks value rest =>
          subst hfirst
          have ihRest : ∀ (v : Value) (c' : Cursor), c'.At (rest.bytes false ++ 0x5d :: tail) →
              MeetsThen (fun c'' => Meets tail (surplus fields.length rest) (closeList c''))
                (do return (field.name, v) :: (← judgePositional schema title (position + 1)
                  fields rest))
                ((do return (field.name, v) :: (← positional schema ctx read title (position + 1)
                  fields) : Read _) c') := fun v c' hc' => (ih hread.behind hc' rfl).map
          unfold positional judgePositional
          simp only [surplus, Items.values, List.length_cons, Nat.add_lt_add_iff_right]
          refine (meets_hasItem _ h).bind_ok fun c₁ h₁ => ?_
          have hvalue := readsAs_readField (hread.front (schema field.type)) _ c₁ .empty
            (endsNumber_items rest tail) h₁
          exact (hvalue.step htracked (.index position)).bind fun v c₂ _ h₂ => ihRest v c₂ h₂

/-! ### Tuples and tagged choices. -/

/-- **The elements of a list are read as those of a tuple**; then the list must end. -/
theorem meets_fixedItems (htracked : ctx.tracked = true) {types : List τ} {its : Items}
    (hread : ReadsAll schema read its.values) (title : String) {position : Nat}
    (h : c.At (its.bytes first ++ 0x5d :: tail)) (hfirst : (position == 0) = first) :
    MeetsThen (fun c' => Meets tail (surplus types.length its) (closeList c'))
      (judgeFixed schema title position types its)
      (fixedItems schema ctx read title position types c) := by
  induction types generalizing c its position first with
  | nil => cases its <;> exact ⟨c, rfl, meets_closeList_surplus _ h⟩
  | cons type types ih =>
      subst hfirst
      cases its with
      | nil w => exact (meets_hasItem_end _ h).bind_ok fun c₁ _ => meets_mismatch _ c₁
      | cons leading blanks value rest =>
          unfold fixedItems judgeFixed
          simp only [surplus, Items.values, List.length_cons, Nat.add_lt_add_iff_right]
          refine (meets_hasItem _ h).bind_ok fun c₁ h₁ => ?_
          have hvalue := hread.front (schema type) _ c₁ .empty (endsNumber_items rest tail) h₁
          refine (hvalue.step htracked (.index position)).bind fun v c₂ _ h₂ => ?_
          exact (ih hread.behind h₂ rfl).map

/-- **The elements of a tagged choice are read as they are judged.** -/
theorem meets_taggedItems (htracked : ctx.tracked = true) {its : Items} (tag : String)
    (names : List String) (hread : ReadsAll schema read its.values)
    (hbound : its.values.length ≤ ctx.bound) (h : c.At (its.bytes true ++ 0x5d :: tail)) :
    Meets (0x5d :: tail) (judgeTaggedItems schema tag names its) ((do
      if ← hasItem true then
        let name ← ctx.atIndex 0 (variantName names)
        return (name, .list (← items ctx (read .raw) (ctx.bound + 1) 1 []))
      else mismatch (.missingField tag) : Read (String × Value)) c) := by
  cases its with
  | nil w => exact (meets_hasItem_end _ h).bind_ok fun c₁ _ => meets_mismatch _ c₁
  | cons leading blanks value rest =>
      unfold judgeTaggedItems
      refine (meets_hasItem _ h).bind_ok fun c₁ h₁ => ?_
      have hname := meets_variantName (w := .empty) names value (endsNumber_items rest tail) h₁
      refine (hname.step htracked (.index 0)).bind fun name c₂ _ h₂ => ?_
      have hrounds : rest.values.length < ctx.bound + 1 := by
        simp only [Items.values, List.length_cons] at hbound
        omega
      exact (meets_items htracked hread.behind hrounds h₂ rfl).map

/-- **The members of a tagged choice are read as they are judged.** -/
theorem meets_taggedMembers (htracked : ctx.tracked = true) (tag : String) (names : List String)
    {rounds : Nat} {members : Members}
    (hread : ReadsAll schema read (members.entries.map Prod.snd)) {variant : Option String}
    {before : List (String × Value)} (hrounds : members.entries.length < rounds)
    (h : c.At (members.bytes first ++ 0x7d :: tail)) :
    Meets (0x7d :: tail) (judgeTagged schema tag names variant before members)
      (taggedMembers ctx (read .raw) tag names rounds first variant before c) := by
  induction rounds generalizing c members first variant before with
  | zero => exact absurd hrounds (Nat.not_lt_zero _)
  | succ rounds ih =>
      cases members with
      | nil w =>
          refine (meets_memberName_end ctx first h).bind_ok fun c₁ h₁ => ?_
          cases variant with
          | some name => exact Meets.pure h₁
          | none => exact meets_mismatch _ c₁
      | cons leading blanks token beforeColon behindColon value rest =>
          have hname := meets_memberName ctx first h
          have hrest := endsNumber_members rest tail
          unfold judgeTagged taggedMembers
          cases htext : StringToken.text? token with
          | none =>
              rw [htext] at hname
              exact MeetsThen.bind_error hname
          | some name =>
              rw [htext] at hname
              refine hname.bind_ok fun c₁ h₁ => ?_
              show Meets (0x7d :: tail) (if (name == tag) = true then _ else _)
                ((if (name == tag) = true then _ else _ : Read _) c₁)
              by_cases htag : (name == tag) = true
              · rw [if_pos htag, if_pos htag]
                by_cases hduplicate : variant.isSome = true
                · rw [if_pos hduplicate, if_pos hduplicate]
                  exact meets_mismatch_bind _ c₁
                · rw [if_neg hduplicate, if_neg hduplicate]
                  refine (meets_colon h₁).bind_ok fun c₂ h₂ => ?_
                  have hvariant := meets_variantName names value hrest h₂
                  refine (hvariant.step htracked (.field name)).bind fun chosen c₃ _ h₃ => ?_
                  exact ih hread.behind (Nat.lt_of_succ_lt_succ hrounds) h₃
              · rw [if_neg htag, if_neg htag]
                refine (meets_colon h₁).bind_ok fun c₂ h₂ => ?_
                have hvalue := hread.front .raw _ c₂ behindColon hrest h₂
                refine (hvalue.step htracked (.field name)).bind fun v c₃ _ h₃ => ?_
                exact ih hread.behind (Nat.lt_of_succ_lt_succ hrounds) h₃

end Loops

/-! ## §2. Layouts. -/

section Layouts

variable {schema : Schema τ} {ctx : Context} {inner : Inner τ} {t : Tree} {w : Blanks}

/-- What is needed to read the values inside brackets: a reader that reads them as they are
judged. A value without brackets needs none. -/
def Opens (schema : Schema τ) (inner : Inner τ) (t : Tree) : Prop :=
  t.depth = 0 ∨ ∃ read, inner = some read ∧ ReadsAll schema read t.inside

theorem Opens.list {its : Items} (h : Opens schema inner (.list its)) :
    ∃ read, inner = some read ∧ ReadsAll schema read its.values := by
  rcases h with h | h
  · cases h
  · exact h

theorem Opens.object {members : Members} (h : Opens schema inner (.object members)) :
    ∃ read, inner = some read ∧ ReadsAll schema read (members.entries.map Prod.snd) := by
  rcases h with h | h
  · cases h
  · exact h

theorem Items.length_values_lt_bound {its : Items}
    (hbound : (Tree.list its).bytes.length ≤ ctx.bound) : its.values.length < ctx.bound + 1 := by
  have := its.length_values_lt
  omega

theorem Members.length_entries_lt_bound {members : Members}
    (hbound : (Tree.object members).bytes.length ≤ ctx.bound) :
    members.entries.length < ctx.bound + 1 := by
  have := members.length_entries_lt
  omega

theorem Members.length_bytes_le_bound {members : Members}
    (hbound : (Tree.object members).bytes.length ≤ ctx.bound) :
    ∀ e ∈ members.entries, e.2.bytes.length ≤ ctx.bound := by
  intro e he
  have hinside : e.2 ∈ (Tree.object members).inside := List.mem_map_of_mem (f := Prod.snd) he
  have := (Tree.lt_of_mem_inside hinside).2
  omega

/-- What stands between the brackets of a list is met if the end of the list follows. -/
theorem meets_list {α : Type} {v : Verdict α} {inside : Read α} {its : Items}
    (h : c.At ((Tree.list its).bytes ++ tail))
    (hinside : ∀ c' : Cursor, c'.At (its.bytes true ++ 0x5d :: tail) →
      Meets (0x5d :: tail) v (inside c')) :
    Meets tail v (bracketed closeList inside c) := by
  rw [Tree.bytes_list] at h
  exact meets_closed (fun c' hc' => meets_closeList (w := .empty) hc') h hinside

/-- What stands between the brackets of an object is met if the end of the object follows. -/
theorem meets_object {α : Type} {v : Verdict α} {inside : Read α} {members : Members}
    (h : c.At ((Tree.object members).bytes ++ tail))
    (hinside : ∀ c' : Cursor, c'.At (members.bytes true ++ 0x7d :: tail) →
      Meets (0x7d :: tail) v (inside c')) :
    Meets tail v (bracketed closeObject inside c) := by
  rw [Tree.bytes_object] at h
  exact meets_closed (fun c' hc' => meets_closeObject (w := .empty) hc') h hinside

/-- A list of so many elements is met, and has to end behind them. -/
theorem meets_list_surplus {α : Type} {expected : Nat} {v : Verdict α} {f : α → Value}
    {inside : Read α} {its : Items} (h : c.At ((Tree.list its).bytes ++ tail))
    (hinside : ∀ c' : Cursor, c'.At (its.bytes true ++ 0x5d :: tail) →
      MeetsThen (fun c'' => Meets tail (surplus expected its) (closeList c'')) v (inside c')) :
    Meets tail (v >>= fun a => if expected < its.values.length then .error .mistaken else .ok (f a))
      (bracketed closeList (inside >>= fun a => pure (f a)) c) := by
  rw [Tree.bytes_list] at h
  have hrun := meets_bracketed h fun c' hc' => (hinside c' hc').map (f := f)
  -- What is wrong inside comes before elements that are left over.
  cases v with
  | error flaw => exact hrun
  | ok a =>
      show Meets tail (if expected < its.values.length then _ else _) _
      by_cases hlong : expected < its.values.length
      · rw [surplus, if_pos hlong] at hrun
        rw [if_pos hlong]
        exact hrun
      · rw [surplus, if_neg hlong] at hrun
        rw [if_neg hlong]
        exact hrun

/-- **Any value is read as it is judged.** -/
theorem meets_readFree (layout : Layout τ)
    (finished : List (String × Value) → List (String × Value)) (htracked : ctx.tracked = true)
    (hinner : Opens schema inner t) (hbound : t.bytes.length ≤ ctx.bound)
    (htail : EndsNumber tail) (h : c.At (w.bytes ++ (t.bytes ++ tail))) :
    Meets tail (judgeAny schema layout finished t) (readFree ctx inner layout finished c) := by
  have hleaf : (¬ ∃ its, t = .list its) → (¬ ∃ members, t = .object members) →
      Meets tail t.leafValue (readFree ctx inner layout finished c) := by
    intro hlist hobject
    refine (meets_firstByte t h).bind_ok fun c₁ h₁ => ?_
    exact meets_no_bracket (t.head_ne_bracket.1.resolve_right hlist)
      (t.head_ne_bracket.2.resolve_right hobject) (meets_leaf t htail h₁)
  cases t with
  | list its =>
      obtain ⟨read, rfl, hread⟩ := hinner.list
      refine (meets_firstByte _ h).bind_ok fun c₁ h₁ => meets_list h₁ fun c' hc' => ?_
      exact (meets_items htracked hread (Items.length_values_lt_bound hbound) hc' rfl).map
  | object members =>
      obtain ⟨read, rfl, hread⟩ := hinner.object
      refine (meets_firstByte _ h).bind_ok fun c₁ h₁ => meets_object h₁ fun c' hc' => ?_
      exact (meets_freeMembers htracked hread (Members.length_entries_lt_bound hbound) hc').map
  | _ => exact hleaf (by simp) (by simp)

/-- **A list is read as it is judged.** -/
theorem meets_readList (element : τ) (htracked : ctx.tracked = true)
    (hinner : Opens schema inner t) (hbound : t.bytes.length ≤ ctx.bound)
    (htail : EndsNumber tail) (h : c.At (w.bytes ++ (t.bytes ++ tail))) :
    Meets tail (judge schema (.list element) t) (readList ctx inner (schema element) c) := by
  by_cases hlist : ∃ its, t = .list its
  · obtain ⟨its, rfl⟩ := hlist
    obtain ⟨read, rfl, hread⟩ := hinner.list
    rw [judge_list]
    refine (meets_firstByte _ h).bind_ok fun c₁ h₁ => meets_list h₁ fun c' hc' => ?_
    exact (meets_items htracked hread (Items.length_values_lt_bound hbound) hc' rfl).map
  · rw [judge_list_of_ne hlist]
    refine (meets_firstByte t h).bind_ok fun c₁ h₁ => ?_
    exact meets_no_list (t.head_ne_bracket.1.resolve_right hlist) (meets_wrongKind t _ htail h₁)

/-- **A tuple is read as it is judged.** -/
theorem meets_readTuple (title whole : String) (types : List τ) (htracked : ctx.tracked = true)
    (hinner : Opens schema inner t) (htail : EndsNumber tail)
    (h : c.At (w.bytes ++ (t.bytes ++ tail))) :
    Meets tail (judge schema (.tuple title whole types) t)
      (readTuple schema ctx inner title whole types c) := by
  by_cases hlist : ∃ its, t = .list its
  · obtain ⟨its, rfl⟩ := hlist
    obtain ⟨read, rfl, hread⟩ := hinner.list
    rw [judge_tuple]
    refine (meets_firstByte _ h).bind_ok fun c₁ h₁ => meets_list_surplus h₁ fun c' hc' => ?_
    exact meets_fixedItems htracked hread whole hc' rfl
  · rw [judge_tuple_of_ne hlist]
    refine (meets_firstByte t h).bind_ok fun c₁ h₁ => ?_
    exact meets_no_list (t.head_ne_bracket.1.resolve_right hlist) (meets_wrongKind t _ htail h₁)

/-- **A table is read as it is judged.** -/
theorem meets_readTable (key : Key) (element : τ) (htracked : ctx.tracked = true)
    (hinner : Opens schema inner t) (hbound : t.bytes.length ≤ ctx.bound)
    (htail : EndsNumber tail) (h : c.At (w.bytes ++ (t.bytes ++ tail))) :
    Meets tail (judge schema (.table key element) t)
      (readTable ctx inner key (schema element) c) := by
  by_cases hobject : ∃ members, t = .object members
  · obtain ⟨members, rfl⟩ := hobject
    obtain ⟨read, rfl, hread⟩ := hinner.object
    have hrounds := Members.length_entries_lt_bound hbound
    refine (meets_firstByte _ h).bind_ok fun c₁ h₁ => meets_object h₁ fun c' hc' => ?_
    cases key with
    | text =>
        rw [judge_table_text]
        exact (meets_freeMembers htracked hread hrounds hc').map
    | number kind =>
        rw [judge_table_number]
        exact (meets_numberedMembers htracked kind hread hrounds hc').map
  · rw [judge_table_of_ne hobject]
    refine (meets_firstByte t h).bind_ok fun c₁ h₁ => ?_
    exact meets_no_object (t.head_ne_bracket.2.resolve_right hobject)
      (meets_wrongKind t _ htail h₁)

/-- **A record is read as it is judged**, be it an object or a list. -/
theorem meets_readRecord (title : String) (fields : List (Field τ)) (closed : Bool)
    (htracked : ctx.tracked = true) (hinner : Opens schema inner t)
    (hbound : t.bytes.length ≤ ctx.bound) (htail : EndsNumber tail)
    (h : c.At (w.bytes ++ (t.bytes ++ tail))) :
    Meets tail (judge schema (.record title fields closed) t)
      (readRecord schema ctx inner title fields closed c) := by
  by_cases hlist : ∃ its, t = .list its
  · obtain ⟨its, rfl⟩ := hlist
    obtain ⟨read, rfl, hread⟩ := hinner.list
    rw [judge_record_list]
    refine (meets_firstByte _ h).bind_ok fun c₁ h₁ => meets_list_surplus h₁ fun c' hc' => ?_
    exact meets_positional htracked hread _ hc' rfl
  by_cases hobject : ∃ members, t = .object members
  · obtain ⟨members, rfl⟩ := hobject
    obtain ⟨read, rfl, hread⟩ := hinner.object
    rw [judge_record_object]
    refine (meets_firstByte _ h).bind_ok fun c₁ h₁ => meets_object h₁ fun c' hc' => ?_
    -- The members are read as they come; then the fields are put in order.
    refine (meets_namedFields htracked (fun e he f _ => hread (schema f.type) e.2
      (List.mem_map_of_mem (f := Prod.snd) he)) (Members.length_bytes_le_bound hbound)
      (Members.length_entries_lt_bound hbound) hc').bind fun read c₂ _ h₂ => ?_
    exact (meets_complete read fields h₂).map
  · rw [judge_record_of_ne hlist hobject]
    refine (meets_firstByte t h).bind_ok fun c₁ h₁ => ?_
    exact meets_no_bracket (t.head_ne_bracket.1.resolve_right hlist)
      (t.head_ne_bracket.2.resolve_right hobject) (meets_wrongKind t _ htail h₁)

/-- Behind the value of a variant nothing but the end of the object may follow. -/
theorem meets_soleEnd (variant : Variant τ) (v : Value) (rest : Members)
    (h : c.At (rest.bytes false ++ 0x7d :: tail)) :
    Meets tail (if rest.entries = [] then return variant.withValue v else .error .mistaken) ((do
      match ← look with
      | some 0x7d => advance
      | some _ => fail .expectedValue
      | none => fail .endInObject
      match variant.payload with
      | .bare => return .text variant.name
      | _ => return .object [(variant.name, v)] : Read Value) c) := by
  cases rest with
  | nil w =>
      refine (meets_look rfl h).bind_ok fun c₁ h₁ => (meets_advance h₁).bind_ok fun c₂ h₂ => ?_
      have hend : (Members.nil w).entries = [] := rfl
      rw [if_pos hend]
      unfold Variant.withValue
      cases variant.payload <;> exact Meets.pure h₂
  | cons leading before token beforeColon behindColon value rest =>
      rw [Members.bytes_cons_later] at h
      exact (meets_look rfl h).bind_ok fun c₁ h₁ => ⟨_, _, rfl, rfl⟩

/-- **The members of an object that chooses a variant are read as they are judged.** -/
theorem meets_sole (variants : List (Variant τ)) {read : Layout τ → Read Value}
    (htracked : ctx.tracked = true) {members : Members}
    (hread : ReadsAll schema read (members.entries.map Prod.snd))
    (h : c.At (members.bytes true ++ 0x7d :: tail)) :
    Meets tail (judgeSole schema variants members) ((do
      let variant ← readChoice.named variants
      colon
      let v ← ctx.atField variant.name (read (variant.payload.layout schema))
      match ← look with
      | some 0x7d => advance
      | some _ => fail .expectedValue
      | none => fail .endInObject
      match variant.payload with
      | .bare => return .text variant.name
      | _ => return .object [(variant.name, v)] : Read Value) c) := by
  cases members with
  | nil w =>
      -- The end of the object is taken for the name of a variant, which it cannot be.
      have hname : Meets tail (.error .mistaken : Verdict String)
          (variantName (variants.map Variant.name) c) := by
        have hbyte : Meets (0x7d :: tail) (.ok 0x7d) (firstByte c) :=
          (meets_look rfl h).bind_ok fun c₁ h₁ => Meets.pure h₁
        refine hbyte.bind_ok fun c₁ _ => Meets.fixing ?_
        have hleaf : Meets tail (.error .mistaken : Verdict Value) (leaf 0x7d c₁) :=
          meets_mistaken rfl c₁
        exact hleaf.bind_error
      have hnamed : Meets tail (.error .mistaken : Verdict (Variant τ))
          (readChoice.named variants c) := hname.bind_error
      exact hnamed.bind_error
  | cons leading before token beforeColon behindColon value rest =>
      rw [Members.bytes_cons_first] at h
      have hcolon : EndsNumber (0x3a :: (behindColon.bytes ++ (value.bytes ++
          (rest.bytes false ++ 0x7d :: tail)))) := by
        intro b hb
        cases hb
        decide
      unfold judgeSole
      refine (meets_named variants token (hcolon.append_blanks beforeColon) h).bind
        fun variant c₁ _ h₁ => (meets_colon h₁).bind_ok fun c₂ h₂ => ?_
      have hvalue := hread.front (variant.payload.layout schema) _ c₂ behindColon
        (endsNumber_members rest tail) h₂
      exact (hvalue.step htracked (.field variant.name)).bind fun v c₃ _ h₃ =>
        meets_soleEnd variant v rest h₃

/-- **A choice is read as it is judged.** -/
theorem meets_readChoice (variants : List (Variant τ)) (htracked : ctx.tracked = true)
    (hinner : Opens schema inner t) (htail : EndsNumber tail)
    (h : c.At (w.bytes ++ (t.bytes ++ tail))) :
    Meets tail (judge schema (.choice variants) t) (readChoice schema ctx inner variants c) := by
  by_cases hobject : ∃ members, t = .object members
  · obtain ⟨members, rfl⟩ := hobject
    obtain ⟨read, rfl, hread⟩ := hinner.object
    refine (meets_firstByte _ h).bind_ok fun c₁ h₁ => ?_
    rw [Tree.bytes_object] at h₁
    rw [judge_choice_object]
    exact (meets_advance h₁).bind_ok fun c₂ h₂ => meets_sole variants htracked hread h₂
  by_cases hstring : ∃ token, t = .string token
  · obtain ⟨token, rfl⟩ := hstring
    rw [judge_choice_string]
    refine (meets_firstByte _ h).bind_ok fun c₁ h₁ => ?_
    exact (meets_named (w := .empty) variants token htail h₁).bind fun variant c₂ _ h₂ =>
      meets_bareVariant htracked variant h₂
  · rw [judge_choice_of_ne hstring hobject]
    refine (meets_firstByte t h).bind_ok fun c₁ _ => ?_
    exact meets_no_choice (t.head_ne_bracket.2.resolve_right hobject)
      (Tree.head_ne_quote fun token ht => hstring ⟨token, ht⟩) (meets_mistaken rfl c₁)

/-- What was kept aside is fitted as it is judged. -/
theorem meets_kept (tag : String) (variants : List (String × Kept)) (name : String)
    (content : Value) (h : c.At tail) :
    Meets tail (judgeKept tag variants name content) ((match variants.lookup name with
      | none => mismatch (.unknownVariant name (variants.map (·.1)))
      | some kept =>
        match fit content kept with
        | .error m => mismatch m
        | .ok (.object members) => return .object ((tag, .text name) :: members)
        | .ok v => return v : Read Value) c) := by
  unfold judgeKept
  cases variants.lookup name with
  | none => exact meets_mismatch _ c
  | some kept =>
      cases hfit : fit content kept with
      | error m =>
          simp only [hfit]
          exact meets_mismatch m c
      | ok v =>
          simp only [hfit]
          cases v <;> exact Meets.pure h

/-- **A tagged choice is read as it is judged**, be it an object or a list. -/
theorem meets_readTagged (title tag : String) (variants : List (String × Kept))
    (htracked : ctx.tracked = true) (hinner : Opens schema inner t)
    (hbound : t.bytes.length ≤ ctx.bound) (htail : EndsNumber tail)
    (h : c.At (w.bytes ++ (t.bytes ++ tail))) :
    Meets tail (judge schema (.tagged title tag variants) t)
      (readTagged ctx inner title tag variants c) := by
  by_cases hlist : ∃ its, t = .list its
  · obtain ⟨its, rfl⟩ := hlist
    obtain ⟨read, rfl, hread⟩ := hinner.list
    rw [judge_tagged_list]
    refine (meets_firstByte _ h).bind_ok fun c₁ h₁ => ?_
    refine (meets_list h₁ fun c' hc' => ?_).bind
      fun x c₂ _ h₂ => meets_kept tag variants x.1 x.2 h₂
    have := Items.length_values_lt_bound hbound
    exact meets_taggedItems htracked tag _ hread (by omega) hc'
  by_cases hobject : ∃ members, t = .object members
  · obtain ⟨members, rfl⟩ := hobject
    obtain ⟨read, rfl, hread⟩ := hinner.object
    -- The members are put together as a value before the variant is looked up.
    have hjudge : judge schema (.tagged title tag variants) (.object members)
        = (judgeTagged schema tag (variants.map (·.1)) none [] members
            >>= fun x => .ok (x.1, Value.object x.2))
          >>= fun x => judgeKept tag variants x.1 x.2 := by
      rw [judge_tagged_object]
      cases judgeTagged schema tag (variants.map (·.1)) none [] members <;> rfl
    rw [hjudge]
    refine (meets_firstByte _ h).bind_ok fun c₁ h₁ => ?_
    refine (meets_object h₁ fun c' hc' => ?_).bind
      fun x c₂ _ h₂ => meets_kept tag variants x.1 x.2 h₂
    exact (meets_taggedMembers htracked tag _ hread (Members.length_entries_lt_bound hbound)
      hc').map
  · rw [judge_tagged_of_ne hlist hobject]
    refine (meets_firstByte t h).bind_ok fun c₁ h₁ => ?_
    refine meets_no_bracket (t.head_ne_bracket.1.resolve_right hlist)
      (t.head_ne_bracket.2.resolve_right hobject) ?_
    -- Nothing was read that a variant could be looked up for.
    rw [← refuse_bind title t fun x : String × Value => judgeKept tag variants x.1 x.2]
    exact (meets_wrongKind t title htail h₁).bind fun x c₂ _ h₂ =>
      meets_kept tag variants x.1 x.2 h₂

/-- **A value is read as it is judged**, if the values inside its brackets are. -/
theorem meets_readLayout (layout : Layout τ) (htracked : ctx.tracked = true)
    (hinner : Opens schema inner t) (hbound : t.bytes.length ≤ ctx.bound)
    (htail : EndsNumber tail) (h : c.At (w.bytes ++ (t.bytes ++ tail))) :
    Meets tail (judge schema layout t) (readLayout schema ctx inner layout c) := by
  cases layout with
  | any =>
      rw [judge_any]
      exact meets_readFree _ _ htracked hinner hbound htail h
  | raw =>
      rw [judge_raw]
      exact meets_readFree _ _ htracked hinner hbound htail h
  | text =>
      rw [judge_text]
      exact (meets_readText "a string" t htail h).map
  | truth =>
      rw [judge_truth]
      exact meets_readTruth t htail h
  | unit =>
      rw [judge_unit]
      exact meets_readUnit t htail h
  | integer kind =>
      rw [judge_integer]
      exact (meets_readInteger kind t htail h).map
  | list element => exact meets_readList element htracked hinner hbound htail h
  | tuple title whole types => exact meets_readTuple title whole types htracked hinner htail h
  | record title fields closed =>
      exact meets_readRecord title fields closed htracked hinner hbound htail h
  | table key element => exact meets_readTable key element htracked hinner hbound htail h
  | choice variants => exact meets_readChoice variants htracked hinner htail h
  | tagged title tag variants =>
      exact meets_readTagged title tag variants htracked hinner hbound htail h

/-- **Reading a well-formed value ends as it is judged**, if it opens no more brackets than it
may. The induction is on the brackets that may be opened. -/
theorem meets_readAt (htracked : ctx.tracked = true) {depth : Nat} {layout : Layout τ}
    (hdepth : t.depth ≤ depth) (hbound : t.bytes.length ≤ ctx.bound) (htail : EndsNumber tail)
    (h : c.At (w.bytes ++ (t.bytes ++ tail))) :
    Meets tail (judge schema layout t) (readAt schema ctx depth layout c) := by
  induction depth generalizing t layout tail c w with
  | zero => exact meets_readLayout layout htracked (.inl (Nat.le_zero.mp hdepth)) hbound htail h
  | succ depth ih =>
      -- A value inside opens fewer brackets, so that one fewer may be open.
      have hinner : Opens schema (some (readAt schema ctx depth)) t := by
        refine .inr ⟨_, rfl, fun layout s hs tail' c' w' htail' hc' => ?_⟩
        obtain ⟨hless, hshorter⟩ := Tree.lt_of_mem_inside hs
        exact ih (by omega) (by omega) htail' hc'
      exact meets_readLayout layout htracked hinner hbound htail h

end Layouts

/-! ## §3. Whole bodies. -/

/-- **A body is read as a verdict says**, whatever words a failure is put in. -/
def ReadsLike : Verdict Value → Except UnreadableBody Value → Prop
  | .ok v, r => r = .ok v
  | .error (.misfit _ way), r => ∃ message, r = .error (.ofMapping way message)
  | .error .meaningless, r | .error .mistaken, r => ∃ message, r = .error (.ofMalformed message)

/-- A run that ends as a verdict says is told as the verdict says. -/
theorem MeetsThen.readsLike {v : Verdict Value} {read : Read Value} {post : Cursor → Prop}
    {body : List UInt8} (h : MeetsThen post v (read (.start body .complete))) :
    ReadsLike v ((run read body .complete).mapError (Error.unreadable body)) := by
  unfold run
  cases v with
  | ok v =>
      obtain ⟨c, hrun, -⟩ := h
      rw [hrun]
      rfl
  | error flaw =>
      obtain ⟨e, c, hrun, hcauses⟩ := h
      rw [hrun]
      cases flaw with
      | misfit m way =>
          refine ⟨e.message body, congrArg Except.error ?_⟩
          unfold Error.unreadable
          rw [hcauses.1, hcauses.2]
          rfl
      | meaningless | mistaken =>
          refine ⟨e.message body, congrArg Except.error ?_⟩
          unfold Error.unreadable
          rw [show e.fault.kind = .malformed from hcauses]

/-- What is read of a body is all of it, if only blanks follow. -/
theorem Meets.finish {α : Type} {v : Verdict α} {read : Read α} {behind : Blanks} {c : Cursor}
    (h : Meets behind.bytes v (read c)) :
    Meets [] v ((do let a ← read; finish; return a : Read α) c) := by
  cases v with
  | ok a =>
      exact h.bind_ok fun c₁ h₁ => (meets_finish h₁).bind_ok fun c₂ h₂ => Meets.pure (a := a) h₂
  | error flaw => exact h.bind_error

/-- **A well-formed document is read as its value is judged**, if it is not nested too deep. -/
theorem readsLike_judge {schema : Schema τ} {layout : Layout τ} (d : Document)
    (hdepth : d.tree.depth ≤ depthLimit) :
    ReadsLike (judge schema layout d.tree) (parseBody schema layout d.bytes) := by
  have hstart : (Cursor.start d.bytes .complete).At d.bytes := ⟨rfl, rfl⟩
  have hbound : d.tree.bytes.length ≤ d.bytes.length := by
    simp only [Document.bytes, List.length_append]
    omega
  have hbehind : EndsNumber d.behind.bytes := by
    simpa using endsNumber_nil.append_blanks d.behind
  have hvalue : Meets d.behind.bytes (judge schema layout d.tree)
      (readAt schema ⟨d.bytes.length, true⟩ depthLimit layout (.start d.bytes .complete)) :=
    meets_readAt rfl hdepth hbound hbehind hstart
  exact hvalue.finish.readsLike

end ErrorContract.Json
