/-
  ErrorContract.Proofs.Accepted
  ─────────────────────────────
  **ONLY JSON IS ACCEPTED.**

  Whatever layout a body is read as, what has been read is the text of a
  value: typed, ignored, kept aside or used as a name.  Brackets and
  separators come first, then the loops between brackets, and the layouts
  last.  Main statement `accepted_is_json`: a body that is accepted is a
  document of the grammar.
-/
import ErrorContract.Json.Body
import ErrorContract.Proofs.Skipped
import ErrorContract.Proofs.Written
import ErrorContract.Sample.Bodies

namespace ErrorContract.Json

open ErrorContract

/-! ## §1. Brackets and separators. -/

section Brackets

variable {α : Type} {c c₁ c₂ c₃ c' : Cursor} {u : Unit} {first : Bool} {ctx : Context}

/-- Behind the brackets their end has been taken. -/
theorem bracketed_ok {close : Read Unit} {inside : Read α} {a : α}
    (h : bracketed close inside c = .ok a c') :
    ∃ c₁, inside c.advance = .ok a c₁ ∧ close c₁ = .ok () c' := by
  have h := ok_of_fixing_ok h
  cases hinside : inside c.advance with
  | ok x c₁ =>
      rw [hinside] at h
      cases hclose : close c₁ with
      | ok u c₂ =>
          simp only [hclose] at h
          obtain ⟨rfl, rfl⟩ := EStateM.Result.ok.inj h
          exact ⟨c₁, rfl, hclose⟩
      | error e c₂ =>
          simp only [hclose] at h
          cases h
  | error e c₁ =>
      rw [hinside] at h
      cases hclose : close c₁ <;> simp only [hclose] at h <;> cases h

theorem opening_ok {inner : Inner τ} {read : (Layout τ → Read Value) → Read α} {a : α}
    (h : opening inner read c = .ok a c') :
    ∃ inside, inner = some inside ∧ read inside c = .ok a c' := by
  cases inner with
  | none => cases h
  | some inside => exact ⟨inside, rfl, h⟩

theorem closeList_ok (h : closeList c = .ok u c') :
    ∃ w : Blanks, c.rest = w.bytes ++ 0x5d :: c'.rest := by
  obtain ⟨o, c₁, hlook, h₁⟩ := exists_of_bind_ok h
  split at h₁
  · exact look_advance_ok hlook h₁
  · obtain ⟨u₂, c₂, -, h₂⟩ := exists_of_bind_ok h₁
    obtain ⟨o, c₃, -, h₃⟩ := exists_of_bind_ok h₂
    split at h₃ <;> cases h₃
  · cases h₁
  · cases h₁

theorem closeObject_ok (h : closeObject c = .ok u c') :
    ∃ w : Blanks, c.rest = w.bytes ++ 0x7d :: c'.rest := by
  obtain ⟨o, c₁, hlook, h₁⟩ := exists_of_bind_ok h
  split at h₁
  · exact look_advance_ok hlook h₁
  · cases h₁
  · cases h₁
  · cases h₁

/-- Nothing is passed over in front of a byte that is no blank. -/
theorem look_of_not_blank {b : UInt8} {rest : List UInt8} {o : Option UInt8}
    (hb : isBlank b = false) (hc : c.rest = b :: rest) (h : look c = .ok o c') :
    o = some b ∧ c'.rest = c.rest := by
  obtain ⟨w, hw, ho⟩ := look_ok h
  cases hbytes : w.bytes with
  | nil =>
      rw [hbytes, List.nil_append] at hw
      rw [ho, ← hw, hc]
      exact ⟨rfl, rfl⟩
  | cons d ds =>
      rw [hbytes, hc] at hw
      have hblank := w.isBlank_of_mem d (by rw [hbytes]; exact List.mem_cons_self)
      rw [← (List.cons.inj hw).1, hb] at hblank
      cases hblank

/-- **Either an element was announced, or the list ends.** -/
theorem hasItem_ok {more : Bool} (h : hasItem first c = .ok more c') :
    match more with
    | true => ∃ leading before : Blanks,
        c.rest = leading.bytes ++ (separator first ++ (before.bytes ++ c'.rest))
    | false => ∃ (w : Blanks) (rest : List UInt8),
        c.rest = w.bytes ++ c'.rest ∧ c'.rest = 0x5d :: rest := by
  obtain ⟨o, c₁, hlook, h₁⟩ := exists_of_bind_ok h
  split at h₁
  · cases h₁
  · obtain ⟨rfl, rfl⟩ := eq_of_pure_ok h₁
    obtain ⟨w, rest, hw, hrest⟩ := look_some hlook
    exact ⟨w, rest, hrest ▸ hw, hrest⟩
  · next b hb =>
      obtain ⟨w, rest, hw, hrest⟩ := look_some hlook
      cases first with
      | true =>
          obtain ⟨rfl, rfl⟩ := eq_of_pure_ok h₁
          exact ⟨w, .empty, by rw [hw, hrest]; rfl⟩
      | false =>
          by_cases hcomma : b = 0x2c
          · simp only [Bool.false_eq_true, if_false, if_pos hcomma] at h₁
            obtain ⟨u₂, c₂, hadvance, h₂⟩ := exists_of_bind_ok h₁
            obtain ⟨o, c₃, hlook', h₃⟩ := exists_of_bind_ok h₂
            obtain ⟨v, hv, -⟩ := look_ok hlook'
            -- behind a comma neither the end of the list nor that of the body
            split at h₃
            · cases h₃
            · cases h₃
            · obtain ⟨rfl, rfl⟩ := eq_of_pure_ok h₃
              refine ⟨w, v, ?_⟩
              rw [hw, hcomma, ← advance_ok hadvance hrest, hv]
              rfl
          · simp only [Bool.false_eq_true, if_false, if_neg hcomma] at h₁
            cases h₁

/-- At the end of the list no element is announced. -/
theorem hasItem_at_end {more : Bool} {rest : List UInt8} (hc : c.rest = 0x5d :: rest)
    (h : hasItem first c = .ok more c') : more = false ∧ c'.rest = c.rest := by
  obtain ⟨o, c₁, hlook, h₁⟩ := exists_of_bind_ok h
  obtain ⟨rfl, hrest⟩ := look_of_not_blank rfl hc hlook
  obtain ⟨rfl, rfl⟩ := eq_of_pure_ok h₁
  exact ⟨rfl, hrest⟩

/-- **Either a member was announced, and the cursor is before its name, or the object ends.** -/
theorem hasMember_ok {more : Bool} (h : hasMember first c = .ok more c') :
    match more with
    | true => ∃ (leading before : Blanks) (rest : List UInt8),
        c.rest = leading.bytes ++ (separator first ++ (before.bytes ++ c'.rest))
          ∧ c'.rest = 0x22 :: rest
    | false => ∃ w : Blanks, c.rest = w.bytes ++ c'.rest := by
  obtain ⟨o, c₁, hlook, h₁⟩ := exists_of_bind_ok h
  split at h₁
  · cases h₁
  · obtain ⟨rfl, rfl⟩ := eq_of_pure_ok h₁
    obtain ⟨w, hw, -⟩ := look_ok hlook
    exact ⟨w, hw⟩
  · next b hb =>
      obtain ⟨w, rest, hw, hrest⟩ := look_some hlook
      cases first with
      | true =>
          by_cases hquote : b = 0x22
          · simp only [if_true, if_pos hquote] at h₁
            obtain ⟨rfl, rfl⟩ := eq_of_pure_ok h₁
            exact ⟨w, .empty, rest, by rw [hw, hrest]; rfl, hquote ▸ hrest⟩
          · simp only [if_true, if_neg hquote] at h₁
            cases h₁
      | false =>
          by_cases hcomma : b = 0x2c
          · simp only [Bool.false_eq_true, if_false, if_pos hcomma] at h₁
            obtain ⟨u₂, c₂, hadvance, h₂⟩ := exists_of_bind_ok h₁
            obtain ⟨o, c₃, hlook', h₃⟩ := exists_of_bind_ok h₂
            split at h₃
            · cases h₃
            · obtain ⟨rfl, rfl⟩ := eq_of_pure_ok h₃
              obtain ⟨v, rest', hv, hrest'⟩ := look_some hlook'
              refine ⟨w, v, rest', ?_, hrest'⟩
              rw [hw, hcomma, ← advance_ok hadvance hrest, hv, hrest']
              rfl
            · cases h₃
            · cases h₃
          · simp only [Bool.false_eq_true, if_false, if_neg hcomma] at h₁
            cases h₁

/-- The blanks, the comma and the name before the colon of a member have been taken. -/
def TakesName (first : Bool) (c c' : Cursor) : Prop :=
  ∃ (leading before : Blanks) (name : StringToken), c.rest = leading.bytes
    ++ (separator first ++ (before.bytes ++ 0x22 :: (StringToken.bytes name ++ c'.rest)))

/-- **Either the name of a member has been taken, or the object ends.** -/
theorem memberName_ok {name : Option String} (h : memberName ctx first c = .ok name c') :
    match name with
    | some _ => TakesName first c c'
    | none => ∃ w : Blanks, c.rest = w.bytes ++ c'.rest := by
  obtain ⟨more, c₁, hmore, h₁⟩ := exists_of_bind_ok (step_ok h)
  have hmember := hasMember_ok hmore
  cases more with
  | false =>
      obtain ⟨rfl, rfl⟩ := eq_of_pure_ok h₁
      exact hmember
  | true =>
      obtain ⟨leading, before, rest, hc, hrest⟩ := hmember
      obtain ⟨u₂, c₂, hadvance, h₂⟩ := exists_of_bind_ok h₁
      obtain ⟨s, c₃, hstring, h₃⟩ := exists_of_bind_ok h₂
      obtain ⟨rfl, rfl⟩ := eq_of_pure_ok h₃
      obtain ⟨token, htoken⟩ := string_ok hstring
      refine ⟨leading, before, token, ?_⟩
      rw [hc, hrest, ← advance_ok hadvance hrest, htoken]

/-! ## §2. Elements and members. -/

/-- Elements of a list have been taken, and blanks behind them. -/
def TakesItems (first : Bool) (c c' : Cursor) : Prop :=
  ∃ items : Items, c.rest = items.bytes first ++ c'.rest

/-- Members of an object have been taken, and blanks behind them. -/
def TakesMembers (first : Bool) (c c' : Cursor) : Prop :=
  ∃ members : Members, c.rest = members.bytes first ++ c'.rest

theorem TakesItems.nil {w : Blanks} (hc : c.rest = w.bytes ++ c'.rest) : TakesItems first c c' :=
  ⟨.nil w, hc⟩

theorem TakesMembers.nil {w : Blanks} (hc : c.rest = w.bytes ++ c'.rest) :
    TakesMembers first c c' := ⟨.nil w, hc⟩

/-- **An element and those behind it.** -/
theorem TakesItems.cons (hitem : hasItem first c = .ok true c₁) (hvalue : TakesTree c₁ c₂)
    (hrest : TakesItems false c₂ c') : TakesItems first c c' := by
  obtain ⟨leading, before, hc⟩ := hasItem_ok hitem
  obtain ⟨w, t, ht⟩ := hvalue
  obtain ⟨items, hitems⟩ := hrest
  refine ⟨.cons leading (before.append w) t items, ?_⟩
  rw [hc, ht, hitems]
  simp [Items.bytes, Blanks.append]

/-- **A member and those behind it.** -/
theorem TakesMembers.cons (hname : TakesName first c c₁) (hcolon : colon c₁ = .ok u c₂)
    (hvalue : TakesTree c₂ c₃) (hrest : TakesMembers false c₃ c') : TakesMembers first c c' := by
  obtain ⟨leading, before, name, hc⟩ := hname
  obtain ⟨beforeColon, hbefore⟩ := colon_ok hcolon
  obtain ⟨w, t, ht⟩ := hvalue
  obtain ⟨members, hmembers⟩ := hrest
  refine ⟨.cons leading before name beforeColon w t members, ?_⟩
  rw [hc, hbefore, ht, hmembers]
  simp [Members.bytes]

/-- More blanks behind the elements of a list. -/
theorem Items.exists_append_blanks (v : Blanks) (first : Bool) : ∀ items : Items,
    ∃ items' : Items, items'.bytes first = items.bytes first ++ v.bytes
  | .nil before => ⟨.nil (before.append v), rfl⟩
  | .cons leading before value rest => by
      obtain ⟨rest', hrest⟩ := rest.exists_append_blanks v false
      exact ⟨.cons leading before value rest', by simp [Items.bytes, hrest]⟩

/-- More blanks behind the members of an object. -/
theorem Members.exists_append_blanks (v : Blanks) (first : Bool) : ∀ members : Members,
    ∃ members' : Members, members'.bytes first = members.bytes first ++ v.bytes
  | .nil before => ⟨.nil (before.append v), rfl⟩
  | .cons leading before name beforeColon behindColon value rest => by
      obtain ⟨rest', hrest⟩ := rest.exists_append_blanks v false
      exact ⟨.cons leading before name beforeColon behindColon value rest',
        by simp [Members.bytes, hrest]⟩

theorem rest_advance {b : UInt8} {rest : List UInt8} (hc : c.rest = b :: rest) :
    c.rest = b :: c.advance.rest := by
  unfold Cursor.advance
  rw [hc]

/-- **A list has been taken**, if its elements have. -/
theorem TakesTree.list {inside : Read α} {a : α} (hfirst : firstByte c = .ok 0x5b c₁)
    (h : bracketed closeList inside c₁ = .ok a c')
    (hinside : ∀ c₂, inside c₁.advance = .ok a c₂ → TakesItems true c₁.advance c₂) :
    TakesTree c c' := by
  obtain ⟨w, rest, hw, hrest⟩ := firstByte_ok hfirst
  obtain ⟨c₂, hrun, hclose⟩ := bracketed_ok h
  obtain ⟨items, hitems⟩ := hinside c₂ hrun
  obtain ⟨v, hv⟩ := closeList_ok hclose
  -- The blanks in front of the closing bracket belong to what it closes.
  obtain ⟨items', hitems'⟩ := items.exists_append_blanks v true
  refine ⟨w, .list items', ?_⟩
  rw [hw, rest_advance hrest, hitems, hv, Tree.bytes_list, hitems', List.append_assoc]

/-- **An object has been taken**, if its members have. -/
theorem TakesTree.object {inside : Read α} {a : α} (hfirst : firstByte c = .ok 0x7b c₁)
    (h : bracketed closeObject inside c₁ = .ok a c')
    (hinside : ∀ c₂, inside c₁.advance = .ok a c₂ → TakesMembers true c₁.advance c₂) :
    TakesTree c c' := by
  obtain ⟨w, rest, hw, hrest⟩ := firstByte_ok hfirst
  obtain ⟨c₂, hrun, hclose⟩ := bracketed_ok h
  obtain ⟨members, hmembers⟩ := hinside c₂ hrun
  obtain ⟨v, hv⟩ := closeObject_ok hclose
  obtain ⟨members', hmembers'⟩ := members.exists_append_blanks v true
  refine ⟨w, .object members', ?_⟩
  rw [hw, rest_advance hrest, hmembers, hv, Tree.bytes_object, hmembers', List.append_assoc]

end Brackets

/-! ## §3. What stands between brackets. -/

section Loops

variable {schema : Schema τ} {ctx : Context} {c c₁ c' : Cursor} {first : Bool}

theorem items_ok {read : Read Value} (hread : TakesValue read) {rounds position : Nat}
    {before vs : List Value} (h : items ctx read rounds position before c = .ok vs c') :
    TakesItems (position == 0) c c' := by
  induction rounds generalizing c position before with
  | zero => cases h
  | succ rounds ih =>
      obtain ⟨more, c₁, hmore, h₁⟩ := exists_of_bind_ok h
      cases more with
      | true =>
          obtain ⟨v, c₂, hvalue, h₂⟩ := exists_of_bind_ok h₁
          exact .cons hmore (hread _ _ _ (step_ok hvalue)) (ih h₂)
      | false =>
          obtain ⟨-, rfl⟩ := eq_of_pure_ok h₁
          obtain ⟨w, rest, hw, -⟩ := hasItem_ok hmore
          exact .nil hw

theorem fixedItems_ok {read : Layout τ → Read Value} (hread : ∀ layout, TakesValue (read layout))
    {title : String} {position : Nat} {types : List τ} {vs : List Value}
    (h : fixedItems schema ctx read title position types c = .ok vs c') :
    TakesItems (position == 0) c c' := by
  induction types generalizing c position vs with
  | nil =>
      obtain ⟨-, rfl⟩ := eq_of_pure_ok h
      exact .nil (w := .empty) rfl
  | cons type types ih =>
      obtain ⟨more, c₁, hmore, h₁⟩ := exists_of_bind_ok h
      cases more with
      | true =>
          obtain ⟨v, c₂, hvalue, h₂⟩ := exists_of_bind_ok h₁
          obtain ⟨vs, c₃, hrest, h₃⟩ := exists_of_bind_ok h₂
          obtain ⟨-, rfl⟩ := eq_of_pure_ok h₃
          exact .cons hmore (hread _ _ _ _ (step_ok hvalue)) (ih hrest)
      | false => cases h₁

theorem takesValue_readField {read : Layout τ → Read Value}
    (hread : ∀ layout, TakesValue (read layout)) (field : Field τ) :
    TakesValue (readField schema read field) := by
  obtain ⟨name, type, presence⟩ := field
  have hnull : TakesValue (readField schema read ⟨name, type, .nullable⟩) := by
    intro c v c' h
    obtain ⟨o, c₁, hlook, h₁⟩ := exists_of_bind_ok h
    split at h₁
    · obtain ⟨u₂, c₂, u₃, hadvance, hword, -⟩ := advance_read_ok h₁
      obtain ⟨w, hw⟩ := look_advance_ok hlook hadvance
      exact .null hw hword
    · obtain ⟨w, hw, -⟩ := look_ok hlook
      exact .of_blanks hw (hread _ _ _ _ h₁)
  cases presence with
  | required => exact hread _
  | defaulted v => exact hread _
  | nullable => exact hnull
  | optional => exact hnull

section Positional

variable {read : Layout τ → Read Value} {title : String} {position : Nat} {field : Field τ}
  {fields : List (Field τ)} {vs : List (String × Value)}

/-- A field is read from the next element, or does without one. -/
theorem positional_cons_ok
    (h : positional schema ctx read title position (field :: fields) c = .ok vs c') :
    (∃ c₁ v c₂ rest, hasItem (position == 0) c = .ok true c₁
      ∧ readField schema read field c₁ = .ok v c₂
      ∧ positional schema ctx read title (position + 1) fields c₂ = .ok rest c')
    ∨ ∃ c₁ rest, hasItem (position == 0) c = .ok false c₁
      ∧ positional schema ctx read title (position + 1) fields c₁ = .ok rest c' := by
  obtain ⟨more, c₁, hmore, h₁⟩ := exists_of_bind_ok h
  cases more with
  | true =>
      obtain ⟨v, c₂, hvalue, h₂⟩ := exists_of_bind_ok h₁
      obtain ⟨rest, c₃, hrest, h₃⟩ := exists_of_bind_ok h₂
      obtain ⟨-, rfl⟩ := eq_of_pure_ok h₃
      exact .inl ⟨c₁, v, c₂, rest, hmore, step_ok hvalue, hrest⟩
  | false =>
      have hwithout : ∀ v : Value, (do
          let v ← pure v
          let rest ← positional schema ctx read title (position + 1) fields
          return (field.name, v) :: rest : Read (List (String × Value))) c₁ = .ok vs c' →
          ∃ rest, positional schema ctx read title (position + 1) fields c₁ = .ok rest c' := by
        intro v h
        obtain ⟨w, c₂, hpure, h₂⟩ := exists_of_bind_ok h
        obtain ⟨-, rfl⟩ := eq_of_pure_ok hpure
        obtain ⟨rest, c₃, hrest, h₃⟩ := exists_of_bind_ok h₂
        obtain ⟨-, rfl⟩ := eq_of_pure_ok h₃
        exact ⟨rest, hrest⟩
      simp only [Bool.false_eq_true, if_false] at h₁
      cases hpresence : field.presence with
      | optional =>
          rw [hpresence] at h₁
          obtain ⟨rest, hrest⟩ := hwithout _ h₁
          exact .inr ⟨c₁, rest, hmore, hrest⟩
      | defaulted v =>
          rw [hpresence] at h₁
          obtain ⟨rest, hrest⟩ := hwithout v h₁
          exact .inr ⟨c₁, rest, hmore, hrest⟩
      | required =>
          rw [hpresence] at h₁
          cases h₁
      | nullable =>
          rw [hpresence] at h₁
          cases h₁

/-- At the end of a list no field takes anything any more. -/
theorem positional_at_end {rest : List UInt8} (hc : c.rest = 0x5d :: rest)
    (h : positional schema ctx read title position fields c = .ok vs c') : c'.rest = c.rest := by
  induction fields generalizing c position vs with
  | nil =>
      obtain ⟨-, rfl⟩ := eq_of_pure_ok h
      rfl
  | cons field fields ih =>
      rcases positional_cons_ok h with ⟨c₁, v, c₂, vs', hmore, -⟩ | ⟨c₁, vs', hmore, hrest⟩
      · cases (hasItem_at_end hc hmore).1
      · have hsame := (hasItem_at_end hc hmore).2
        rw [← hsame]
        exact ih (hsame.trans hc) hrest

theorem positional_ok (hread : ∀ layout, TakesValue (read layout))
    (h : positional schema ctx read title position fields c = .ok vs c') :
    TakesItems (position == 0) c c' := by
  induction fields generalizing c position vs with
  | nil =>
      obtain ⟨-, rfl⟩ := eq_of_pure_ok h
      exact .nil (w := .empty) rfl
  | cons field fields ih =>
      rcases positional_cons_ok h with
        ⟨c₁, v, c₂, vs', hmore, hvalue, hrest⟩ | ⟨c₁, vs', hmore, hrest⟩
      · exact .cons hmore (takesValue_readField hread field _ _ _ hvalue) (ih hrest)
      · -- the list has ended, whatever fields are left
        obtain ⟨w, rest, hw, hend⟩ := hasItem_ok hmore
        exact .nil (w := w) (by rw [hw, positional_at_end hend hrest])

end Positional

theorem namedFields_ok {read : Layout τ → Read Value} (hread : ∀ layout, TakesValue (read layout))
    {fields : List (Field τ)} {closed : Bool} {rounds : Nat}
    {before found : List (String × Value)}
    (h : namedFields schema ctx read fields closed rounds first before c = .ok found c') :
    TakesMembers first c c' := by
  induction rounds generalizing c first before with
  | zero => cases h
  | succ rounds ih =>
      obtain ⟨o, c₁, hname, h₁⟩ := exists_of_bind_ok h
      have hmember := memberName_ok hname
      cases o with
      | none =>
          obtain ⟨-, rfl⟩ := eq_of_pure_ok h₁
          obtain ⟨w, hw⟩ := hmember
          exact .nil hw
      | some name =>
          dsimp only at h₁
          cases hfield : fields.find? (·.name == name) with
          | some field =>
              by_cases hduplicate : (before.lookup name).isSome = true
              · simp only [hfield, hduplicate, if_true] at h₁
                obtain ⟨u, c₂, hmismatch, -⟩ := exists_of_bind_ok h₁
                cases hmismatch
              · simp only [hfield, hduplicate, Bool.false_eq_true, if_false] at h₁
                obtain ⟨u, c₂, hcolon, h₂⟩ := exists_of_bind_ok h₁
                obtain ⟨v, c₃, hvalue, h₃⟩ := exists_of_bind_ok h₂
                exact .cons hmember hcolon
                  (takesValue_readField hread field _ _ _ (step_ok hvalue)) (ih h₃)
          | none =>
              cases closed with
              | true =>
                  simp only [hfield, if_true] at h₁
                  obtain ⟨u, c₂, hmismatch, -⟩ := exists_of_bind_ok h₁
                  cases step_ok hmismatch
              | false =>
                  -- nobody asked for the value, but a value it is
                  simp only [hfield, Bool.false_eq_true, if_false] at h₁
                  obtain ⟨u, c₂, hcolon, h₂⟩ := exists_of_bind_ok h₁
                  obtain ⟨v, c₃, hvalue, h₃⟩ := exists_of_bind_ok h₂
                  exact .cons hmember hcolon (takesValue_skipValue _ _ _ _ (step_ok hvalue))
                    (ih h₃)

theorem complete_ok {found : List (String × Value)} {fields : List (Field τ)}
    {vs : List (String × Value)} (h : complete found fields c = .ok vs c') : c' = c := by
  induction fields generalizing c vs with
  | nil => exact (eq_of_pure_ok h).2.symm
  | cons field fields ih =>
      -- Wherever the value comes from, nothing is read for it.
      have hwith : ∀ v : Value, (do
          let v ← pure v
          let rest ← complete found fields
          return (field.name, v) :: rest : Read (List (String × Value))) c = .ok vs c' →
          c' = c := by
        intro v h
        obtain ⟨w, c₁, hpure, h₁⟩ := exists_of_bind_ok h
        obtain ⟨-, rfl⟩ := eq_of_pure_ok hpure
        obtain ⟨rest, c₂, hrest, h₂⟩ := exists_of_bind_ok h₁
        obtain ⟨-, rfl⟩ := eq_of_pure_ok h₂
        exact ih hrest
      unfold complete at h
      cases hlookup : found.lookup field.name with
      | some v =>
          rw [hlookup] at h
          exact hwith v h
      | none =>
          rw [hlookup] at h
          cases hpresence : field.presence with
          | required =>
              rw [hpresence] at h
              cases h
          | nullable =>
              rw [hpresence] at h
              exact hwith .null h
          | optional =>
              rw [hpresence] at h
              exact hwith .null h
          | defaulted v =>
              rw [hpresence] at h
              exact hwith v h

theorem freeMembers_ok {read : Read Value} (hread : TakesValue read) {rounds : Nat}
    {before found : List (String × Value)}
    (h : freeMembers ctx read rounds first before c = .ok found c') : TakesMembers first c c' := by
  induction rounds generalizing c first before with
  | zero => cases h
  | succ rounds ih =>
      obtain ⟨o, c₁, hname, h₁⟩ := exists_of_bind_ok h
      have hmember := memberName_ok hname
      cases o with
      | none =>
          obtain ⟨-, rfl⟩ := eq_of_pure_ok h₁
          obtain ⟨w, hw⟩ := hmember
          exact .nil hw
      | some name =>
          obtain ⟨u, c₂, hcolon, h₂⟩ := exists_of_bind_ok h₁
          obtain ⟨v, c₃, hvalue, h₃⟩ := exists_of_bind_ok h₂
          exact .cons hmember hcolon (hread _ _ _ (step_ok hvalue)) (ih h₃)

/-! ### Numbers as names. -/

/-- The bytes of a number stand for themselves. -/
theorem NumberToken.standsForItself (n : NumberToken) : ∀ b ∈ n.bytes, StandsForItself b := by
  have hdigit : ∀ b, isDigit b = true → StandsForItself b := by
    intro b hb
    rcases isDigit_cases hb with rfl | rfl | rfl | rfl | rfl | rfl | rfl | rfl | rfl | rfl <;>
      exact ⟨by decide, by decide, by decide⟩
  have hsign : ∀ s, (s = 0x2b ∨ s = 0x2d) → StandsForItself s := by
    rintro s (rfl | rfl) <;> exact ⟨by decide, by decide, by decide⟩
  have hletter : ∀ l, (l = 0x65 ∨ l = 0x45) → StandsForItself l := by
    rintro l (rfl | rfl) <;> exact ⟨by decide, by decide, by decide⟩
  have hexponent : ∀ b ∈ n.exponentBytes, StandsForItself b := by
    unfold NumberToken.exponentBytes
    cases n.exponent with
    | none => simp
    | some e =>
        intro b hb
        simp only [Option.map_some, Option.getD_some, Exponent.bytes, List.mem_cons,
          List.mem_append, Option.mem_toList] at hb
        rcases hb with rfl | hb | rfl | hb
        · exact hletter _ e.letter_eq
        · exact hsign b (e.sign_eq b hb)
        · exact hdigit _ e.isDigit_first
        · exact hdigit b (e.isDigit_more b hb)
  have hfraction : ∀ b ∈ n.fractionBytes, StandsForItself b := by
    unfold NumberToken.fractionBytes
    split
    · simp
    · intro b hb
      rcases List.mem_cons.mp hb with rfl | hb
      · exact ⟨by decide, by decide, by decide⟩
      · exact hdigit b (n.isDigit_fraction b hb)
  intro b hb
  simp only [NumberToken.bytes, NumberToken.behindFirst, List.mem_append, List.mem_cons] at hb
  rcases hb with hb | rfl | hb | hb | hb
  · split at hb
    · rw [List.mem_singleton.mp hb]
      exact hsign _ (.inr rfl)
    · cases hb
  · exact hdigit _ n.isDigit_first
  · exact hdigit b (n.isDigit_more b hb)
  · exact hfraction b hb
  · exact hexponent b hb

/-- **A number between quotes is a string.** -/
theorem takesString_of_number (negative : Bool) {c₂ : Cursor}
    (hc : c.rest = (if negative then [0x2d] else []) ++ c₁.rest)
    (hnumber : TakesNumber negative c₁ c₂) (hquote : c₂.rest = 0x22 :: c'.rest) :
    TakesString c c' := by
  obtain ⟨n, rfl, hn⟩ := hnumber
  refine ⟨verbatim n.bytes n.standsForItself, ?_⟩
  rw [hc, hn, hquote, StringToken.bytes, bytes_verbatim, NumberToken.bytes]
  simp

theorem numericName_ok {kind : IntegerKind} {i : Int} {rest : List UInt8}
    (hc : c.rest = 0x22 :: rest) (h : numericName ctx kind c = .ok i c') :
    ∃ name : StringToken, c.rest = 0x22 :: (StringToken.bytes name ++ c'.rest) := by
  obtain ⟨v, c₁, hvalue, h₁⟩ := exists_of_bind_ok h
  obtain ⟨u₂, c₂, hadvance, h₂⟩ := exists_of_bind_ok (step_ok hvalue)
  rw [← advance_ok hadvance hc] at hc
  obtain ⟨o, c₃, hpeek, h₃⟩ := exists_of_bind_ok h₂
  obtain ⟨hsame, -⟩ := peek_ok hpeek
  -- Behind the number stands the closing quote.
  have hquote : c₁.rest = 0x22 :: c'.rest := by
    cases v with
    | int j =>
        obtain ⟨k, c₄, hfit, h₄⟩ := exists_of_bind_ok (step_ok h₁)
        rw [fitInteger_ok (ok_of_fixing_ok hfit)] at h₄
        obtain ⟨o, c₅, hpeek', h₅⟩ := exists_of_bind_ok h₄
        split at h₅
        · obtain ⟨u₆, c₆, hadvance', h₆⟩ := exists_of_bind_ok h₅
          obtain ⟨-, rfl⟩ := eq_of_pure_ok h₆
          exact peek_advance_ok hpeek' hadvance'
        · cases h₅
    | _ => cases ok_of_fixing_ok (step_ok h₁)
  have hstring : TakesString c₂ c' := by
    split at h₃
    · obtain ⟨u₄, c₄, hadvance', h₄⟩ := exists_of_bind_ok h₃
      have hminus := peek_advance_ok hpeek hadvance'
      exact takesString_of_number true hminus (number_ok h₄) hquote
    · split at h₃
      · rw [hsame] at h₃
        exact takesString_of_number false rfl (number_ok h₃) hquote
      · cases h₃
    · cases h₃
  obtain ⟨name, hname⟩ := hstring
  exact ⟨name, by rw [hc, hname]⟩

theorem numberedMembers_ok {kind : IntegerKind} {read : Read Value} (hread : TakesValue read)
    {rounds : Nat} {before found : List (Int × Value)}
    (h : numberedMembers ctx kind read rounds first before c = .ok found c') :
    TakesMembers first c c' := by
  induction rounds generalizing c first before with
  | zero => cases h
  | succ rounds ih =>
      obtain ⟨more, c₁, hmore, h₁⟩ := exists_of_bind_ok h
      have hmember := hasMember_ok (step_ok hmore)
      cases more with
      | false =>
          obtain ⟨-, rfl⟩ := eq_of_pure_ok h₁
          obtain ⟨w, hw⟩ := hmember
          exact .nil hw
      | true =>
          obtain ⟨leading, blanks, rest, hc, hrest⟩ := hmember
          obtain ⟨i, c₂, hname, h₂⟩ := exists_of_bind_ok h₁
          obtain ⟨u, c₃, hcolon, h₃⟩ := exists_of_bind_ok h₂
          obtain ⟨v, c₄, hvalue, h₄⟩ := exists_of_bind_ok h₃
          obtain ⟨name, hname⟩ := numericName_ok hrest hname
          exact .cons ⟨leading, blanks, name, by rw [hc, hname]⟩ hcolon
            (hread _ _ _ (step_ok hvalue)) (ih h₄)

/-! ### Names of variants. -/

/-- The name of a variant is a string. -/
theorem variantName_ok {names : List String} {name : String}
    (h : variantName names c = .ok name c') :
    ∃ (w : Blanks) (token : StringToken),
      c.rest = w.bytes ++ 0x22 :: (StringToken.bytes token ++ c'.rest) := by
  obtain ⟨b, c₁, hfirst, h₁⟩ := exists_of_bind_ok h
  split at h₁
  · obtain ⟨u, c₂, hadvance, h₂⟩ := exists_of_bind_ok (ok_of_fixing_ok h₁)
    obtain ⟨s, c₃, hstring, h₃⟩ := exists_of_bind_ok h₂
    obtain ⟨w, hw⟩ := firstByte_advance_ok hfirst hadvance
    obtain ⟨token, htoken⟩ := string_ok hstring
    by_cases hknown : names.contains s = true
    · rw [if_pos hknown] at h₃
      obtain ⟨-, rfl⟩ := eq_of_pure_ok h₃
      exact ⟨w, token, by rw [hw, htoken]⟩
    · rw [if_neg hknown] at h₃
      cases h₃
  · exact absurd h₁ wrongKind_ne_ok

theorem takesValue_variantName (names : List String) : TakesValue (variantName names) := by
  intro c name c' h
  obtain ⟨w, token, htoken⟩ := variantName_ok h
  exact ⟨w, .string token, htoken⟩

theorem taggedMembers_ok {read : Read Value} (hread : TakesValue read) {tag : String}
    {names : List String} {rounds : Nat} {variant : Option String}
    {before : List (String × Value)} {found : String × List (String × Value)}
    (h : taggedMembers ctx read tag names rounds first variant before c = .ok found c') :
    TakesMembers first c c' := by
  induction rounds generalizing c first variant before with
  | zero => cases h
  | succ rounds ih =>
      obtain ⟨o, c₁, hname, h₁⟩ := exists_of_bind_ok h
      have hmember := memberName_ok hname
      cases o with
      | none =>
          obtain ⟨w, hw⟩ := hmember
          cases variant with
          | none => cases h₁
          | some name =>
              obtain ⟨-, rfl⟩ := eq_of_pure_ok h₁
              exact .nil hw
      | some name =>
          by_cases htag : (name == tag) = true
          · cases variant with
            | some name' =>
                simp only [htag, Option.isSome_some, if_true] at h₁
                obtain ⟨u, c₂, hmismatch, -⟩ := exists_of_bind_ok h₁
                cases hmismatch
            | none =>
                simp only [htag, Option.isSome_none, Bool.false_eq_true, if_true, if_false] at h₁
                obtain ⟨u, c₂, hcolon, h₂⟩ := exists_of_bind_ok h₁
                obtain ⟨v, c₃, hvalue, h₃⟩ := exists_of_bind_ok h₂
                exact .cons hmember hcolon (takesValue_variantName _ _ _ _ (step_ok hvalue))
                  (ih h₃)
          · simp only [htag, Bool.false_eq_true, if_false] at h₁
            obtain ⟨u, c₂, hcolon, h₂⟩ := exists_of_bind_ok h₁
            obtain ⟨v, c₃, hvalue, h₃⟩ := exists_of_bind_ok h₂
            exact .cons hmember hcolon (hread _ _ _ (step_ok hvalue)) (ih h₃)

end Loops

/-! ## §4. Layouts. -/

section Layouts

variable {schema : Schema τ} {ctx : Context} {inner : Inner τ}

/-- Whatever is read inside brackets is a value. -/
def TakesInside (inner : Inner τ) : Prop :=
  ∀ read, inner = some read → ∀ layout, TakesValue (read layout)

theorem takesValue_readRecord (hinner : TakesInside inner) (title : String)
    (fields : List (Field τ)) (closed : Bool) :
    TakesValue (readRecord schema ctx inner title fields closed) := by
  intro c v c' h
  obtain ⟨b, c₁, hfirst, h₁⟩ := exists_of_bind_ok h
  split at h₁
  · obtain ⟨read, hread, hrun⟩ := opening_ok h₁
    refine .list hfirst hrun fun c₂ hinside => ?_
    obtain ⟨vs, c₃, hfields, h₃⟩ := exists_of_bind_ok hinside
    obtain ⟨-, rfl⟩ := eq_of_pure_ok h₃
    exact positional_ok (hinner read hread) hfields
  · obtain ⟨read, hread, hrun⟩ := opening_ok h₁
    refine .object hfirst hrun fun c₂ hinside => ?_
    obtain ⟨found, c₃, hmembers, h₃⟩ := exists_of_bind_ok hinside
    obtain ⟨vs, c₄, hcomplete, h₄⟩ := exists_of_bind_ok h₃
    obtain ⟨-, rfl⟩ := eq_of_pure_ok h₄
    rw [complete_ok hcomplete]
    exact namedFields_ok (hinner read hread) hmembers
  · exact absurd h₁ wrongKind_ne_ok

theorem takesValue_readTuple (hinner : TakesInside inner) (title whole : String)
    (types : List τ) : TakesValue (readTuple schema ctx inner title whole types) := by
  intro c v c' h
  obtain ⟨b, c₁, hfirst, h₁⟩ := exists_of_bind_ok h
  split at h₁
  · obtain ⟨read, hread, hrun⟩ := opening_ok h₁
    refine .list hfirst hrun fun c₂ hinside => ?_
    obtain ⟨vs, c₃, hitems, h₃⟩ := exists_of_bind_ok hinside
    obtain ⟨-, rfl⟩ := eq_of_pure_ok h₃
    exact fixedItems_ok (hinner read hread) hitems
  · exact absurd h₁ wrongKind_ne_ok

theorem takesValue_readList (hinner : TakesInside inner) (element : Layout τ) :
    TakesValue (readList ctx inner element) := by
  intro c v c' h
  obtain ⟨b, c₁, hfirst, h₁⟩ := exists_of_bind_ok h
  split at h₁
  · obtain ⟨read, hread, hrun⟩ := opening_ok h₁
    refine .list hfirst hrun fun c₂ hinside => ?_
    obtain ⟨vs, c₃, hitems, h₃⟩ := exists_of_bind_ok hinside
    obtain ⟨-, rfl⟩ := eq_of_pure_ok h₃
    exact items_ok (hinner read hread element) hitems
  · exact absurd h₁ wrongKind_ne_ok

theorem takesValue_readFree (hinner : TakesInside inner) (layout : Layout τ)
    (finished : List (String × Value) → List (String × Value)) :
    TakesValue (readFree ctx inner layout finished) := by
  intro c v c' h
  obtain ⟨b, c₁, hfirst, h₁⟩ := exists_of_bind_ok h
  split at h₁
  · obtain ⟨read, hread, hrun⟩ := opening_ok h₁
    refine .list hfirst hrun fun c₂ hinside => ?_
    obtain ⟨vs, c₃, hitems, h₃⟩ := exists_of_bind_ok hinside
    obtain ⟨-, rfl⟩ := eq_of_pure_ok h₃
    exact items_ok (hinner read hread layout) hitems
  · obtain ⟨read, hread, hrun⟩ := opening_ok h₁
    refine .object hfirst hrun fun c₂ hinside => ?_
    obtain ⟨found, c₃, hmembers, h₃⟩ := exists_of_bind_ok hinside
    obtain ⟨-, rfl⟩ := eq_of_pure_ok h₃
    exact freeMembers_ok (hinner read hread layout) hmembers
  · exact leaf_ok hfirst h₁

theorem takesValue_readTable (hinner : TakesInside inner) (key : Key) (element : Layout τ) :
    TakesValue (readTable ctx inner key element) := by
  intro c v c' h
  obtain ⟨b, c₁, hfirst, h₁⟩ := exists_of_bind_ok h
  split at h₁
  · obtain ⟨read, hread, hrun⟩ := opening_ok h₁
    refine .object hfirst hrun fun c₂ hinside => ?_
    cases key with
    | text =>
        obtain ⟨found, c₃, hmembers, h₃⟩ := exists_of_bind_ok hinside
        obtain ⟨-, rfl⟩ := eq_of_pure_ok h₃
        exact freeMembers_ok (hinner read hread element) hmembers
    | number kind =>
        obtain ⟨found, c₃, hmembers, h₃⟩ := exists_of_bind_ok hinside
        obtain ⟨-, rfl⟩ := eq_of_pure_ok h₃
        exact numberedMembers_ok (hinner read hread element) hmembers
  · exact absurd h₁ wrongKind_ne_ok

/-- The variant of a choice is named by a string. -/
theorem named_ok {variants : List (Variant τ)} {variant : Variant τ} {c c' : Cursor}
    (h : readChoice.named variants c = .ok variant c') :
    ∃ (w : Blanks) (token : StringToken),
      c.rest = w.bytes ++ 0x22 :: (StringToken.bytes token ++ c'.rest) := by
  obtain ⟨name, c₁, hname, h₁⟩ := exists_of_bind_ok h
  cases hfind : variants.find? (·.name == name) with
  | some variant' =>
      simp only [hfind] at h₁
      obtain ⟨-, rfl⟩ := eq_of_pure_ok h₁
      exact variantName_ok hname
  | none =>
      simp only [hfind] at h₁
      cases h₁

theorem missing_ne_ok {variant : Variant τ} {expected : String} {v : Value} {c c' : Cursor} :
    bareVariant.missing ctx variant expected c ≠ .ok v c' := by
  intro h
  unfold bareVariant.missing at h
  cases step_ok h

theorem bareVariant_ok {variant : Variant τ} {v : Value} {c c' : Cursor}
    (h : bareVariant ctx variant c = .ok v c') : c' = c := by
  unfold bareVariant at h
  cases hpayload : variant.payload with
  | bare =>
      rw [hpayload] at h
      exact (eq_of_pure_ok h).2.symm
  | _ =>
      rw [hpayload] at h
      exact absurd h missing_ne_ok

/-- Behind the only member an object is closed; what is made of it takes nothing. -/
theorem closeChoice_ok {o : Option UInt8} {final : Read Value} {v : Value} {c c₁ c' : Cursor}
    (hfinal : ∀ c v c', final c = .ok v c' → c' = c) (hlook : look c = .ok o c₁)
    (h : (match o with
      | some 0x7d => advance >>= fun _ => final
      | some _ => fail .expectedValue >>= fun _ : Unit => final
      | none => fail .endInObject >>= fun _ : Unit => final) c₁ = .ok v c') :
    ∃ w : Blanks, c.rest = w.bytes ++ 0x7d :: c'.rest := by
  split at h
  · obtain ⟨u, c₂, hadvance, h₁⟩ := exists_of_bind_ok h
    rw [hfinal _ _ _ h₁]
    exact look_advance_ok hlook hadvance
  · cases h
  · cases h

theorem takesValue_readChoice (hinner : TakesInside inner) (variants : List (Variant τ)) :
    TakesValue (readChoice schema ctx inner variants) := by
  intro c v c' h
  obtain ⟨b, c₁, hfirst, h₁⟩ := exists_of_bind_ok h
  split at h₁
  · -- an object with one member
    obtain ⟨read, hread, h₂⟩ := opening_ok h₁
    obtain ⟨u, c₂, hadvance, h₃⟩ := exists_of_bind_ok h₂
    obtain ⟨variant, c₃, hnamed, h₄⟩ := exists_of_bind_ok h₃
    obtain ⟨u₄, c₄, hcolon, h₅⟩ := exists_of_bind_ok h₄
    obtain ⟨payload, c₅, hvalue, h₆⟩ := exists_of_bind_ok h₅
    obtain ⟨o, c₆, hlook, h₇⟩ := exists_of_bind_ok h₆
    obtain ⟨w, hw⟩ := firstByte_advance_ok hfirst hadvance
    obtain ⟨before, name, hname⟩ := named_ok hnamed
    obtain ⟨beforeColon, hbefore⟩ := colon_ok hcolon
    obtain ⟨behindColon, t, ht⟩ := hinner read hread _ _ _ _ (step_ok hvalue)
    obtain ⟨behind, hbehind⟩ := closeChoice_ok (fun c v c' hfinal => by
      cases hpayload : variant.payload <;> rw [hpayload] at hfinal <;>
        exact (eq_of_pure_ok hfinal).2.symm) hlook h₇
    refine ⟨w, .object (.cons .empty before name beforeColon behindColon t (.nil behind)), ?_⟩
    rw [hw, hname, hbefore, ht, hbehind, Tree.bytes_object]
    simp [Members.bytes, separator, Blanks.empty]
  · obtain ⟨variant, c₂, hnamed, h₂⟩ := exists_of_bind_ok h₁
    obtain ⟨w, rest, hw, -⟩ := firstByte_ok hfirst
    obtain ⟨before, name, hname⟩ := named_ok hnamed
    rw [bareVariant_ok h₂]
    exact .of_blanks hw ⟨before, .string name, hname⟩
  · cases h₁

theorem takesValue_readTagged (hinner : TakesInside inner) (title tag : String)
    (variants : List (String × Kept)) : TakesValue (readTagged ctx inner title tag variants) := by
  intro c v c' h
  obtain ⟨b, c₁, hfirst, h₁⟩ := exists_of_bind_ok h
  extract_lets fitting at h₁
  -- Fitting what was kept takes nothing.
  have hfitting : ∀ {x : String × Value} {c₂ : Cursor}, fitting x c₂ = .ok v c' → c' = c₂ := by
    rintro ⟨name, content⟩ c₂ h₂
    cases hlookup : variants.lookup name with
    | none =>
        simp only [fitting, hlookup] at h₂
        cases h₂
    | some kept =>
        simp only [fitting, hlookup] at h₂
        cases hkept : fit content kept with
        | error m =>
            simp only [hkept] at h₂
            cases h₂
        | ok w =>
            simp only [hkept] at h₂
            cases w <;> exact (eq_of_pure_ok h₂).2.symm
  split at h₁
  · obtain ⟨x, c₂, hopening, h₂⟩ := exists_of_bind_ok h₁
    obtain ⟨read, hread, hrun⟩ := opening_ok hopening
    rw [hfitting h₂]
    refine .list hfirst hrun fun c₃ hinside => ?_
    obtain ⟨more, c₄, hmore, h₄⟩ := exists_of_bind_ok hinside
    cases more with
    | false => cases h₄
    | true =>
        obtain ⟨variant, c₅, hvariant, h₅⟩ := exists_of_bind_ok h₄
        obtain ⟨vs, c₆, hitems, h₆⟩ := exists_of_bind_ok h₅
        obtain ⟨-, rfl⟩ := eq_of_pure_ok h₆
        exact .cons hmore (takesValue_variantName _ _ _ _ (step_ok hvariant))
          (items_ok (hinner read hread .raw) hitems)
  · obtain ⟨x, c₂, hopening, h₂⟩ := exists_of_bind_ok h₁
    obtain ⟨read, hread, hrun⟩ := opening_ok hopening
    rw [hfitting h₂]
    refine .object hfirst hrun fun c₃ hinside => ?_
    obtain ⟨⟨variant, members⟩, c₄, hmembers, h₄⟩ := exists_of_bind_ok hinside
    obtain ⟨-, rfl⟩ := eq_of_pure_ok h₄
    exact taggedMembers_ok (hinner read hread .raw) hmembers
  · obtain ⟨x, c₂, hwrong, -⟩ := exists_of_bind_ok h₁
    exact absurd hwrong wrongKind_ne_ok

/-- **Whatever the layout, a value has been taken**, if the values inside brackets are. -/
theorem takesValue_readLayout (hinner : TakesInside inner) (layout : Layout τ) :
    TakesValue (readLayout schema ctx inner layout) := by
  cases layout with
  | any => exact takesValue_readFree hinner .any sortMembers
  | raw => exact takesValue_readFree hinner .raw id
  | text =>
      intro c v c' h
      obtain ⟨s, c₁, htext, h₁⟩ := exists_of_bind_ok h
      obtain ⟨-, rfl⟩ := eq_of_pure_ok h₁
      exact takesValue_readText "a string" _ _ _ htext
  | truth => exact takesValue_readTruth
  | unit => exact takesValue_readUnit
  | integer kind =>
      intro c v c' h
      obtain ⟨i, c₁, hinteger, h₁⟩ := exists_of_bind_ok h
      obtain ⟨-, rfl⟩ := eq_of_pure_ok h₁
      exact takesValue_readInteger kind _ _ _ hinteger
  | list element => exact takesValue_readList hinner (schema element)
  | tuple title whole elements => exact takesValue_readTuple hinner title whole elements
  | record title fields closed => exact takesValue_readRecord hinner title fields closed
  | table key element => exact takesValue_readTable hinner key (schema element)
  | choice variants => exact takesValue_readChoice hinner variants
  | tagged title tag variants => exact takesValue_readTagged hinner title tag variants

/-- The induction is on the brackets that may be opened. -/
theorem takesValue_readAt (depth : Nat) (layout : Layout τ) :
    TakesValue (readAt schema ctx depth layout) := by
  induction depth generalizing layout with
  | zero => exact takesValue_readLayout (fun read hread => by cases hread) layout
  | succ depth ih =>
      refine takesValue_readLayout (fun read hread layout => ?_) layout
      cases hread
      exact ih layout

end Layouts

/-- **Only JSON is accepted.**  Whatever a body is read as, if it is accepted then the whole of it
is a well-formed document: one value, and nothing but blanks around it. -/
theorem accepted_is_json (schema : Schema τ) (layout : Layout τ) (body : List UInt8) (v : Value)
    (h : parseBody schema layout body = .ok v) : ∃ d : Document, d.bytes = body := by
  have hread : ∃ c', (do
      let v ← readAt schema ⟨body.length, true⟩ depthLimit layout
      finish
      return v : Read Value) (.start body .complete) = .ok v c' := by
    unfold parseBody readWhole run at h
    revert h
    generalize hrun : (do
      let v ← readAt schema ⟨body.length, true⟩ depthLimit layout
      finish
      return v : Read Value) (.start body .complete) = result
    intro h
    cases result with
    | ok w c' =>
        cases h
        exact ⟨c', rfl⟩
    | error e c' => cases h
  -- The value takes its bytes, and the end finds nothing but blanks in what is left.
  obtain ⟨c', hrun⟩ := hread
  obtain ⟨w, c₁, hvalue, h₁⟩ := exists_of_bind_ok hrun
  obtain ⟨u, c₂, hfinish, -⟩ := exists_of_bind_ok h₁
  obtain ⟨before, tree, htree⟩ := takesValue_readAt _ _ _ _ _ hvalue
  obtain ⟨behind, hbehind⟩ := finish_ok hfinish
  refine ⟨⟨before, tree, behind⟩, ?_⟩
  rw [Document.bytes, ← hbehind, ← htree]
  rfl

/-- A command whose members are kept aside until its tag is known, one of them for nothing. -/
def taggedCommand : List UInt8 :=
  " \x7b\"row\":[7],\"note\":[\"\\ud83d\\ude00\" , null],\"type\":\"put\"\x7d\n".toUTF8.toList

theorem accepted_is_json_tagged :
    (∃ v, parseBody Sample.schema (Sample.schema .tagged) taggedCommand = .ok v)
      ∧ ∃ d : Document, d.bytes = taggedCommand := by
  have hread : (parseBody Sample.schema (Sample.schema .tagged) taggedCommand).isOk = true := by
    decide +kernel
  cases hresult : parseBody Sample.schema (Sample.schema .tagged) taggedCommand with
  | error e =>
      rw [hresult] at hread
      cases hread
  | ok v =>
      exact ⟨⟨v, rfl⟩,
        accepted_is_json Sample.schema (Sample.schema .tagged) taggedCommand v hresult⟩

end ErrorContract.Json
