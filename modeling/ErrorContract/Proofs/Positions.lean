/-
  ErrorContract.Proofs.Positions
  ──────────────────────────────
  **NO POSITION REACHES THE SIZE OF THE BODY.**

  A list has a byte in front of every element: its opening bracket, or a
  comma.  So the position of an element is at most the number of bytes that
  lie before it, and because the element itself begins with a byte, it is
  smaller than the size of the body.  Whatever the body looks like, an error
  is met on a way with no larger positions.

  `Keeps size behind read` carries this through the readers: `behind` is how
  many bytes must lie before the cursor for the positions that the reader
  goes on with.  Main statement `positions_below_size`.
-/
import ErrorContract.Proofs.Locality
import ErrorContract.Proofs.Misread
import ErrorContract.Proofs.Tracking

namespace ErrorContract.Json

open ErrorContract

/-! ## §1. Cursors and runs. -/

/-- The cursor stands in a complete body of this size, behind so many bytes or more. -/
structure Cursor.Stands (size behind : Nat) (c : Cursor) : Prop where
  size_eq : c.offset + c.rest.length = size
  ending_eq : c.ending = .complete
  behind_le : behind ≤ c.offset

/-- Every position on the way is smaller than the size. -/
def Trail.Below (size : Nat) (trail : Trail) : Prop :=
  ∀ i, some (.index i) ∈ trail → i < size

/-- **A run that stays within a body**: it does not go back, and where it fails, it was on the way
to no position that the body has no byte for. -/
def Within (size behind : Nat) : EStateM.Result Error Cursor α → Prop
  | .ok _ c => c.Stands size behind
  | .error e _ => e.trail.Below size

/-- **A reader whose runs stay within a body** of this size, from wherever so many bytes lie
behind. -/
def Keeps (size behind : Nat) (read : Read α) : Prop :=
  ∀ c least, behind ≤ least → c.Stands size least → Within size least (read c)

section Keeps

variable {α β : Type} {size behind least : Nat} {c c' : Cursor}

theorem Trail.below_nil : Trail.Below size [] := by
  intro i hi
  cases hi

/-- Bytes that were read lie behind. -/
theorem Cursor.Stands.reaches (h : c.Stands size least) (hreach : c.Reaches c') :
    c'.Stands size least := by
  obtain ⟨taken, hrest, hoffset, hending⟩ := hreach
  obtain ⟨hsize, hcomplete, hbehind⟩ := h
  rw [hrest, List.length_append] at hsize
  exact ⟨by omega, hending.trans hcomplete, by omega⟩

/-- How far behind a byte that lies ahead is stepped over. -/
theorem Cursor.Stands.advance (h : c.Stands size least) (hrest : c.rest ≠ []) :
    c.advance.Stands size (least + 1) := by
  obtain ⟨rest, offset, ending⟩ := c
  obtain ⟨hsize, hcomplete, hbehind⟩ := h
  cases rest with
  | nil => exact absurd rfl hrest
  | cons b rest =>
      simp only [List.length_cons] at hsize hbehind
      show Cursor.Stands size (least + 1) ⟨rest, offset + 1, ending⟩
      refine ⟨?_, hcomplete, Nat.succ_le_succ hbehind⟩
      show offset + 1 + rest.length = size
      omega

theorem Cursor.Stands.mono {least' : Nat} (h : c.Stands size least) (hle : least' ≤ least) :
    c.Stands size least' := ⟨h.size_eq, h.ending_eq, by have := h.behind_le; omega⟩

theorem Within.mono {least' : Nat} {r : EStateM.Result Error Cursor α} (h : Within size least r)
    (hle : least' ≤ least) : Within size least' r := by
  cases r with
  | ok a c => exact Cursor.Stands.mono h hle
  | error e c => exact h

theorem Keeps.mono {behind' : Nat} {read : Read α} (h : Keeps size behind read)
    (hle : behind ≤ behind') : Keeps size behind' read := by
  intro c least hleast hc
  exact h c least (by omega) hc

theorem Keeps.within {read : Read α} (h : Keeps size 0 read) (hc : c.Stands size least) :
    Within size least (read c) := h c least (Nat.zero_le least) hc

/-- **A run goes on within the body.** -/
theorem Within.bind {read : Read α} {next : α → Read β} (h : Within size least (read c))
    (hnext : ∀ a c', read c = .ok a c' → c'.Stands size least → Within size least (next a c')) :
    Within size least ((read >>= next) c) := by
  show Within size least (EStateM.bind read next c)
  unfold EStateM.bind
  cases hread : read c with
  | ok a c' =>
      rw [hread] at h
      exact hnext a c' hread h
  | error e c' =>
      rw [hread] at h
      exact h

theorem Keeps.bind {read : Read α} {next : α → Read β} (h : Keeps size behind read)
    (hnext : ∀ a, Keeps size behind (next a)) : Keeps size behind (read >>= next) := by
  intro c least hleast hc
  apply (h c least hleast hc).bind
  intro a c' _ hc'
  exact hnext a c' least hleast hc'

theorem keeps_pure (a : α) : Keeps size behind (pure a) := by
  intro c least _ hc
  exact hc

theorem keeps_ite {p : Prop} [Decidable p] {yes no : Read α} (hyes : Keeps size behind yes)
    (hno : Keeps size behind no) : Keeps size behind (if p then yes else no) := by
  by_cases hp : p
  · rw [if_pos hp]
    exact hyes
  · rw [if_neg hp]
    exact hno

theorem keeps_failing (fault : Fault) (place : Cursor → Option Nat) :
    Keeps size behind (fun c => .error ⟨fault, place c, []⟩ c : Read α) := by
  intro c least _ _
  exact Trail.below_nil

theorem keeps_fail (fault : Fault) : Keeps size behind (fail fault : Read α) :=
  keeps_failing fault fun c => some c.offset

theorem keeps_failNext (fault : Fault) : Keeps size behind (failNext fault : Read α) :=
  keeps_failing fault fun c => some (if c.rest.isEmpty then c.offset else c.offset + 1)

theorem keeps_mismatch (m : Mismatch) : Keeps size behind (mismatch m : Read α) :=
  keeps_failing (.mismatch m) fun _ => none

/-- **A step stays within the body** if its position does, and names do. -/
theorem Within.step {ctx : Context} {s : Option PathSegment} {read : Read α}
    (hs : ∀ i, s = some (.index i) → i < size) (h : Within size least (read c)) :
    Within size least (ctx.step s read c) := by
  unfold Context.step
  cases hread : read c with
  | ok a c' =>
      rw [hread] at h
      exact h
  | error e c' =>
      rw [hread] at h
      show Trail.Below size (if ctx.tracked then { e with trail := s :: e.trail } else e).trail
      by_cases htracked : ctx.tracked = true
      · rw [if_pos htracked]
        intro i hi
        rcases List.mem_cons.mp hi with hhere | hi
        · exact hs i hhere.symm
        · exact h i hi
      · rw [if_neg htracked]
        exact h

theorem Keeps.atField {ctx : Context} {read : Read α} (h : Keeps size behind read)
    (name : String) : Keeps size behind (ctx.atField name read) := by
  intro c least hleast hc
  exact (h c least hleast hc).step nofun

theorem Keeps.step_none {ctx : Context} {read : Read α} (h : Keeps size behind read) :
    Keeps size behind (ctx.step none read) := by
  intro c least hleast hc
  exact (h c least hleast hc).step nofun

theorem Within.fixing {read : Read α} (h : Within size least (read c)) :
    Within size least (fixing read c) := by
  unfold Json.fixing
  cases hread : read c with
  | ok a c' =>
      rw [hread] at h
      exact h
  | error e c' =>
      rw [hread] at h
      exact h

theorem Keeps.fixing {read : Read α} (h : Keeps size behind read) :
    Keeps size behind (fixing read) := by
  intro c least hleast hc
  exact (h c least hleast hc).fixing

/-- **Behind an opening bracket lies one byte more.** -/
theorem Within.bracketed {close : Read Unit} {inside : Read α} (hclose : Keeps size 0 close)
    (hinside : Keeps size 1 inside) (hc : c.Stands size least) (hrest : c.rest ≠ []) :
    Within size least (bracketed close inside c) := by
  show Within size least (Json.fixing _ c)
  apply Within.fixing
  have hrun := hinside c.advance (least + 1) (by omega) (hc.advance hrest)
  cases hread : inside c.advance with
  | ok a c' =>
      rw [hread] at hrun
      have hend := hclose c' (least + 1) (by omega) hrun
      cases hclosed : close c' with
      | ok u c'' =>
          rw [hclosed] at hend
          simp only [hclosed]
          exact Cursor.Stands.mono hend (by omega)
      | error e c'' =>
          rw [hclosed] at hend
          simp only [hclosed]
          exact hend
  | error e c' =>
      rw [hread] at hrun
      -- The first failure counts, however the search for the end goes.
      cases hclosed : close c' with
      | ok u c'' =>
          simp only [hclosed]
          exact hrun
      | error e' c'' =>
          simp only [hclosed]
          exact hrun

end Keeps

/-! ## §2. Readers that go no way. -/

section Plain

variable {α : Type} {size behind : Nat}

/-- Of two runs that end alike the second is on no way. -/
theorem trail_of_endsAlike {r : EStateM.Result Error Cursor α} {e : Error} {c : Cursor}
    (h : EndsAlike r (.error e c)) : e.trail = [] := by
  cases h with
  | error e' c' hc he => rfl

/-- A reader that keeps no track and moves forward only stays within every body. -/
theorem keeps_of_steady {read : Read α} (hsteady : Steady read) (hforward : Carries [] read read) :
    Keeps size behind read := by
  intro c least _ hc
  have hrun := hsteady c hc.ending_eq
  cases hread : read c with
  | ok a c' => exact hc.reaches (hforward c a c' hread).1
  | error e c' =>
      rw [hread] at hrun
      -- Without track being kept the trail is empty.
      have hempty : e.trail = [] := trail_of_endsAlike hrun
      show Trail.Below size e.trail
      rw [hempty]
      exact Trail.below_nil

/-- **A reader that compares with itself stays within every body.** -/
theorem keeps_of_compares {read : Read α} (h : ∀ K : Comparison, K.Holds read read) :
    Keeps size behind read :=
  keeps_of_steady (h (alike 0)) (h (longer [] (Nat.le_refl 0)))

theorem keeps_skipValue (bound : Nat) : Keeps size behind (skipValue bound) :=
  keeps_of_steady (compares_skipValue (alike bound))
    (compares_skipValue (longer [] (Nat.le_refl bound)))

theorem keeps_colon : Keeps size behind colon := keeps_of_compares compares_colon

theorem keeps_look : Keeps size behind look := keeps_of_compares Comparison.look

theorem keeps_peek : Keeps size behind peek := keeps_of_compares Comparison.peek

theorem keeps_advance : Keeps size behind advance := keeps_of_compares Comparison.advance

theorem keeps_firstByte : Keeps size behind firstByte := keeps_of_compares compares_firstByte

theorem keeps_wrongKind (expected : String) (b : UInt8) :
    Keeps size behind (wrongKind expected b : Read α) :=
  keeps_of_compares fun K => compares_wrongKind K expected b

theorem keeps_variantName (names : List String) : Keeps size behind (variantName names) :=
  keeps_of_compares fun K => compares_variantName K names

theorem keeps_named (variants : List (Variant τ)) :
    Keeps size behind (readChoice.named variants) :=
  keeps_of_compares fun K => compares_named K variants

theorem keeps_fitInteger (kind : IntegerKind) (v : Value) : Keeps size behind (fitInteger kind v) :=
  keeps_of_compares fun K => compares_fitInteger K kind v

theorem keeps_memberName (ctx : Context) (first : Bool) :
    Keeps size behind (memberName ctx first) := by
  apply Keeps.step_none
  apply keeps_of_compares
  intro K
  refine K.bind (compares_hasMember K first) fun more => compares_ite K ?_ (K.pure none)
  exact K.bind K.advance fun _ => K.bind K.string fun name => K.pure (some name)

theorem keeps_bareVariant (ctx : Context) (variant : Variant τ) :
    Keeps size behind (bareVariant ctx variant) := by
  unfold bareVariant
  cases variant.payload with
  | bare => exact keeps_pure _
  | single | several | fields => exact (keeps_mismatch _).atField variant.name

theorem keeps_numericName (ctx : Context) (kind : IntegerKind) :
    Keeps size behind (numericName ctx kind) := by
  have hnumber : ∀ positive, Keeps size behind (number positive) :=
    fun positive => keeps_of_compares fun K => compares_number K positive
  unfold numericName
  apply Keeps.bind
  · apply Keeps.step_none
    refine keeps_advance.bind fun _ => keeps_peek.bind fun o => ?_
    split
    · exact keeps_advance.bind fun _ => hnumber false
    · exact keeps_ite (hnumber true) (keeps_fail _)
    · exact keeps_fail _
  · intro v
    split
    · apply Keeps.atField
      refine (keeps_fitInteger kind _).fixing.bind fun i => keeps_peek.bind fun o => ?_
      split
      · exact keeps_advance.bind fun _ => keeps_pure i
      · exact keeps_failNext _
    · exact (keeps_fitInteger kind _).fixing.step_none

theorem keeps_readField {schema : Schema τ} {read : Layout τ → Read Value}
    (h : ∀ layout, Keeps size 0 (read layout)) (field : Field τ) :
    Keeps size 0 (readField schema read field) := by
  unfold readField
  cases field.presence with
  | required | defaulted => exact h _
  | nullable | optional =>
      refine keeps_look.bind fun o => ?_
      split
      · exact keeps_of_compares fun K => compares_word K nullTail Value.null
      · exact h _

end Plain

/-! ## §3. Elements. -/

section Elements

variable {α : Type} {size least : Nat} {c c' : Cursor} {ctx : Context}

/-- The end of the list is the next byte. -/
def Cursor.AtListEnd (c : Cursor) : Prop := ∃ rest, c.rest = 0x5d :: rest

/-- An element that is announced has a byte. -/
theorem rest_ne_nil_of_hasItem {first : Bool} (h : hasItem first c = .ok true c') :
    c'.rest ≠ [] := by
  have hseen : ∀ {c₁ c₂ : Cursor} {b : UInt8}, look c₁ = .ok (some b) c₂ → c₂.rest ≠ [] := by
    intro c₁ c₂ b hlook
    obtain ⟨w, rest, -, hrest⟩ := look_some hlook
    rw [hrest]
    exact List.cons_ne_nil b rest
  obtain ⟨o, c₁, hlook, h₁⟩ := exists_of_bind_ok h
  split at h₁
  · cases h₁
  · cases (eq_of_pure_ok h₁).1
  · next b hb =>
      cases first with
      | true =>
          obtain ⟨-, rfl⟩ := eq_of_pure_ok h₁
          exact hseen hlook
      | false =>
          by_cases hcomma : b = 0x2c
          · simp only [Bool.false_eq_true, if_false, if_pos hcomma] at h₁
            obtain ⟨u₂, c₂, -, h₂⟩ := exists_of_bind_ok h₁
            obtain ⟨o, c₃, hlook', h₃⟩ := exists_of_bind_ok h₂
            split at h₃
            · cases h₃
            · cases h₃
            · obtain ⟨-, rfl⟩ := eq_of_pure_ok h₃
              exact hseen hlook'
          · simp only [Bool.false_eq_true, if_false, if_neg hcomma] at h₁
            cases h₁

/-- **An element that is announced has a byte, and behind an earlier one there is a comma.** -/
theorem stands_of_hasItem {position : Nat} {more : Bool} (hc : c.Stands size least)
    (hleast : max 1 position ≤ least) (h : hasItem (position == 0) c = .ok more c') :
    match more with
    | true => position < size ∧ c'.Stands size (max least (position + 1))
    | false => c'.AtListEnd ∧ c'.Stands size least := by
  have hreach : c.Reaches c' :=
    (compares_hasItem (longer [] (Nat.le_refl 0)) (position == 0) c more c' h).1
  have hstands : c'.Stands size least := hc.reaches hreach
  cases more with
  | false =>
      obtain ⟨w, rest, -, hend⟩ := hasItem_ok h
      exact ⟨⟨rest, hend⟩, hstands⟩
  | true =>
      -- A byte lies ahead, so whatever lies behind is smaller than the size.
      have hsize := hstands.size_eq
      have hbyte : 0 < c'.rest.length := List.length_pos_iff.mpr (rest_ne_nil_of_hasItem h)
      have hbehind := hstands.behind_le
      have hnext : max least (position + 1) ≤ c'.offset := by
        by_cases hfirst : position = 0
        · omega
        · -- A comma was taken.
          obtain ⟨leading, before, hrest⟩ := hasItem_ok h
          have hlater : (position == 0) = false := beq_false_of_ne hfirst
          have hlength := congrArg List.length hrest
          simp only [hlater, separator, Bool.false_eq_true, if_false, List.length_append,
            List.length_cons, List.length_nil] at hlength
          have hstart := hc.size_eq
          have hstarted := hc.behind_le
          omega
      exact ⟨by omega, hsize, hstands.ending_eq, hnext⟩

/-- **The element at a position is read within the body**, and so is what follows it, if one more
byte lies behind that. -/
theorem keeps_item {β : Type} {position : Nat} {read : Read α} {next : α → Read β} {other : Read β}
    (hread : Keeps size 0 read) (hnext : ∀ a, Keeps size (max 1 (position + 1)) (next a))
    (hother : ∀ c' least, c'.AtListEnd → c'.Stands size least → Within size least (other c')) :
    Keeps size (max 1 position) (do
      if ← hasItem (position == 0) then
        let a ← ctx.atIndex position read
        next a
      else other : Read β) := by
  intro c least hleast hc
  have hkept : Keeps size 0 (hasItem (position == 0)) :=
    keeps_of_compares fun K => compares_hasItem K (position == 0)
  apply (hkept c least (by omega) hc).bind
  intro more c₁ hmore _
  have hstands := stands_of_hasItem hc hleast hmore
  cases more with
  | false => exact hother c₁ least hstands.1 hstands.2
  | true =>
      obtain ⟨hposition, hc₁⟩ := hstands
      -- From here on so many bytes lie behind that the next position is smaller, too.
      have hvalue : Within size (max least (position + 1)) (ctx.atIndex position read c₁) := by
        apply (hread c₁ _ (by omega) hc₁).step
        intro i hi
        cases hi
        exact hposition
      have hrest : Within size (max least (position + 1))
          ((ctx.atIndex position read >>= next) c₁) := by
        apply hvalue.bind
        intro a c₂ _ hc₂
        exact hnext a c₂ _ (by omega) hc₂
      exact hrest.mono (by omega)

/-- **The elements of a list.** The induction is on the rounds; the position goes up with every
element, and so does the number of bytes behind it. -/
theorem keeps_items {read : Read Value} (hread : Keeps size 0 read) (rounds position : Nat)
    (before : List Value) :
    Keeps size (max 1 position) (items ctx read rounds position before) := by
  induction rounds generalizing position before with
  | zero => exact keeps_failNext _
  | succ rounds ih =>
      unfold items
      apply keeps_item hread
      · intro v
        exact ih (position + 1) (v :: before)
      · intro c' least _ hc'
        exact hc'

theorem keeps_fixedItems {schema : Schema τ} {read : Layout τ → Read Value}
    (hread : ∀ layout, Keeps size 0 (read layout)) (title : String) (position : Nat)
    (types : List τ) :
    Keeps size (max 1 position) (fixedItems schema ctx read title position types) := by
  induction types generalizing position with
  | nil => exact keeps_pure []
  | cons type types ih =>
      unfold fixedItems
      apply keeps_item (hread (schema type))
      · intro v
        exact (ih (position + 1)).bind fun vs => keeps_pure (v :: vs)
      · intro c' least _ hc'
        exact (keeps_mismatch _).within hc'

section Positional

variable {schema : Schema τ} {read : Layout τ → Read Value} {title : String}

/-- What stands for a field that a list is too short for, and the fields behind it. -/
theorem within_absent {field : Field τ} {fields : List (Field τ)} {position : Nat}
    (hrest : Within size least (positional schema ctx read title (position + 1) fields c)) :
    Within size least ((do
      let v ← match field.presence with
        | .optional => pure .null
        | .defaulted v => pure v
        | _ => mismatch (.wrongLength position title)
      return (field.name, v) :: (← positional schema ctx read title (position + 1) fields)
        : Read (List (String × Value))) c) := by
  have hvalue : ∀ v : Value, Within size least ((positional schema ctx read title (position + 1)
      fields >>= fun rest => pure ((field.name, v) :: rest)) c) := by
    intro v
    apply hrest.bind
    intro rest c' _ hc'
    exact hc'
  cases field.presence with
  | optional => exact hvalue .null
  | defaulted v => exact hvalue v
  | required | nullable => exact Trail.below_nil

/-- **At the end of a list no position is gone to any more**, though the fields are counted on. -/
theorem within_positional_at_end (position : Nat) (fields : List (Field τ)) (hend : c.AtListEnd)
    (hc : c.Stands size least) :
    Within size least (positional schema ctx read title position fields c) := by
  induction fields generalizing position c with
  | nil => exact hc
  | cons field fields ih =>
      have hkept : Keeps size 0 (hasItem (position == 0)) :=
        keeps_of_compares fun K => compares_hasItem K (position == 0)
      unfold positional
      apply (hkept c least (Nat.zero_le least) hc).bind
      intro more c₁ hmore hc₁
      obtain ⟨rest, hrest⟩ := hend
      obtain ⟨rfl, hsame⟩ := hasItem_at_end hrest hmore
      exact within_absent (ih (position + 1) ⟨rest, hsame.trans hrest⟩ hc₁)

theorem keeps_positional (hread : ∀ layout, Keeps size 0 (read layout)) (position : Nat)
    (fields : List (Field τ)) :
    Keeps size (max 1 position) (positional schema ctx read title position fields) := by
  induction fields generalizing position with
  | nil => exact keeps_pure []
  | cons field fields ih =>
      unfold positional
      apply keeps_item (keeps_readField hread field)
      · intro v
        exact (ih (position + 1)).bind fun rest => keeps_pure ((field.name, v) :: rest)
      · intro c' least hend hc'
        exact within_absent (within_positional_at_end (position + 1) fields hend hc')

end Positional

end Elements

/-! ## §4. Members. -/

section Members

variable {size : Nat} {ctx : Context}

theorem keeps_namedFields {schema : Schema τ} {read : Layout τ → Read Value}
    (hread : ∀ layout, Keeps size 0 (read layout)) (fields : List (Field τ)) (closed : Bool)
    (rounds : Nat) (first : Bool) (before : List (String × Value)) :
    Keeps size 0 (namedFields schema ctx read fields closed rounds first before) := by
  induction rounds generalizing first before with
  | zero => exact keeps_failNext _
  | succ rounds ih =>
      unfold namedFields
      refine (keeps_memberName ctx first).bind fun o => ?_
      cases o with
      | none => exact keeps_pure before
      | some name =>
          dsimp only
          split
          · next field _ =>
              -- a field, perhaps for the second time
              have hfield : Keeps size 0 (ctx.atField name (readField schema read field)) :=
                (keeps_readField hread field).atField name
              have hvalue := keeps_colon.bind fun _ => hfield.bind fun v =>
                ih false ((name, v) :: before)
              exact keeps_ite ((keeps_mismatch _).bind fun _ => hvalue) hvalue
          · -- no field: it is refused or skipped
            have hvalue : Keeps size 0 (ctx.atField name (skipValue ctx.bound)) :=
              (keeps_skipValue ctx.bound).atField name
            have hskipped := keeps_colon.bind fun _ => hvalue.bind fun _ => ih false before
            exact keeps_ite (((keeps_mismatch _).atField name).bind fun _ => hskipped) hskipped

theorem keeps_freeMembers {read : Read Value} (hread : Keeps size 0 read) (rounds : Nat)
    (first : Bool) (before : List (String × Value)) :
    Keeps size 0 (freeMembers ctx read rounds first before) := by
  induction rounds generalizing first before with
  | zero => exact keeps_failNext _
  | succ rounds ih =>
      unfold freeMembers
      refine (keeps_memberName ctx first).bind fun o => ?_
      cases o with
      | none => exact keeps_pure before.reverse
      | some name =>
          exact keeps_colon.bind fun _ => (hread.atField name).bind fun v =>
            ih false ((name, v) :: before)

theorem keeps_numberedMembers {read : Read Value} (hread : Keeps size 0 read)
    (kind : IntegerKind) (rounds : Nat) (first : Bool) (before : List (Int × Value)) :
    Keeps size 0 (numberedMembers ctx kind read rounds first before) := by
  induction rounds generalizing first before with
  | zero => exact keeps_failNext _
  | succ rounds ih =>
      have hmore : Keeps size 0 (hasMember first) :=
        keeps_of_compares fun K => compares_hasMember K first
      unfold numberedMembers
      refine hmore.step_none.bind fun more => keeps_ite ?_ (keeps_pure before)
      exact (keeps_numericName ctx kind).bind fun i => keeps_colon.bind fun _ =>
        (hread.atField _).bind fun v => ih false (insertEntry i v before)

theorem keeps_taggedMembers {read : Read Value} (hread : Keeps size 0 read) (tag : String)
    (names : List String) (rounds : Nat) (first : Bool) (variant : Option String)
    (before : List (String × Value)) :
    Keeps size 0 (taggedMembers ctx read tag names rounds first variant before) := by
  induction rounds generalizing first variant before with
  | zero => exact keeps_failNext _
  | succ rounds ih =>
      unfold taggedMembers
      refine (keeps_memberName ctx first).bind fun o => ?_
      cases o with
      | none =>
          cases variant with
          | none => exact keeps_mismatch _
          | some name => exact keeps_pure (name, before.reverse)
      | some name =>
          refine keeps_ite ?_ ?_
          · -- the tag, perhaps for the second time
            have hchosen : Keeps size 0 (ctx.atField name (variantName names)) :=
              (keeps_variantName names).atField name
            have hvariant := keeps_colon.bind fun _ => hchosen.bind fun chosen =>
              ih false (some chosen) before
            exact keeps_ite ((keeps_mismatch _).bind fun _ => hvariant) hvariant
          · exact keeps_colon.bind fun _ => (hread.atField name).bind fun v =>
              ih false variant ((name, v) :: before)

end Members

/-! ## §5. Every layout. -/

section Layouts

variable {α : Type} {size : Nat} {schema : Schema τ} {ctx : Context} {inner : Inner τ}

/-- The reader of the values inside brackets stays within the body, if there is one. -/
def KeepsInside (size : Nat) (inner : Inner τ) : Prop :=
  ∀ read, inner = some read → ∀ layout, Keeps size 0 (read layout)

/-- Whoever looks at the first byte of a value goes on before that byte. -/
theorem keeps_firstByte_bind {next : UInt8 → Read α}
    (h : ∀ b c least, c.Stands size least → c.rest ≠ [] → Within size least (next b c)) :
    Keeps size 0 (firstByte >>= next) := by
  intro c least hleast hc
  apply (keeps_firstByte c least hleast hc).bind
  intro b c₁ hfirst hc₁
  obtain ⟨w, rest, -, hrest⟩ := firstByte_ok hfirst
  have hbyte : c₁.rest ≠ [] := by
    rw [hrest]
    exact List.cons_ne_nil b rest
  exact h b c₁ least hc₁ hbyte

/-- **What stands in brackets is read within the body**, if they may be opened. -/
theorem within_brackets {close : Read Unit} {inside : (Layout τ → Read Value) → Read α}
    {c : Cursor} {least : Nat} (hinner : KeepsInside size inner) (hclose : Keeps size 0 close)
    (hinside : ∀ read, (∀ layout, Keeps size 0 (read layout)) → Keeps size 1 (inside read))
    (hc : c.Stands size least) (hrest : c.rest ≠ []) :
    Within size least (opening inner (fun read => bracketed close (inside read)) c) := by
  cases inner with
  | none => exact Trail.below_nil
  | some read => exact Within.bracketed hclose (hinside read (hinner read rfl)) hc hrest

theorem keeps_closeList : Keeps size 0 closeList := keeps_of_compares compares_closeList

theorem keeps_closeObject : Keeps size 0 closeObject := keeps_of_compares compares_closeObject

theorem keeps_readRecord (hinner : KeepsInside size inner) (title : String)
    (fields : List (Field τ)) (closed : Bool) :
    Keeps size 0 (readRecord schema ctx inner title fields closed) := by
  apply keeps_firstByte_bind
  intro b c least hc hrest
  split
  · apply within_brackets hinner keeps_closeList ?_ hc hrest
    intro read hread
    exact (keeps_positional hread 0 fields).bind fun members => keeps_pure _
  · apply within_brackets hinner keeps_closeObject ?_ hc hrest
    intro read hread
    apply Keeps.mono ?_ (Nat.zero_le 1)
    refine (keeps_namedFields hread fields closed _ _ _).bind fun members => ?_
    have hcomplete : Keeps size 0 (complete members fields) :=
      keeps_of_compares fun K => compares_complete K members fields
    exact hcomplete.bind fun members => keeps_pure _
  · exact (keeps_wrongKind title _).within hc

theorem keeps_readTuple (hinner : KeepsInside size inner) (title whole : String)
    (types : List τ) : Keeps size 0 (readTuple schema ctx inner title whole types) := by
  apply keeps_firstByte_bind
  intro b c least hc hrest
  split
  · apply within_brackets hinner keeps_closeList ?_ hc hrest
    intro read hread
    exact (keeps_fixedItems hread whole 0 types).bind fun vs => keeps_pure _
  · exact (keeps_wrongKind title _).within hc

theorem keeps_readList (hinner : KeepsInside size inner) (element : Layout τ) :
    Keeps size 0 (readList ctx inner element) := by
  apply keeps_firstByte_bind
  intro b c least hc hrest
  split
  · apply within_brackets hinner keeps_closeList ?_ hc hrest
    intro read hread
    exact (keeps_items (hread element) _ 0 []).bind fun vs => keeps_pure _
  · exact (keeps_wrongKind "a sequence" _).within hc

theorem keeps_readFree (hinner : KeepsInside size inner) (layout : Layout τ)
    (finished : List (String × Value) → List (String × Value)) :
    Keeps size 0 (readFree ctx inner layout finished) := by
  have hleaf : ∀ b, Keeps size 0 (leaf b) := fun b => keeps_of_compares fun K => compares_leaf K b
  apply keeps_firstByte_bind
  intro b c least hc hrest
  split
  · apply within_brackets hinner keeps_closeList ?_ hc hrest
    intro read hread
    exact (keeps_items (hread layout) _ 0 []).bind fun vs => keeps_pure _
  · apply within_brackets hinner keeps_closeObject ?_ hc hrest
    intro read hread
    apply Keeps.mono ?_ (Nat.zero_le 1)
    exact (keeps_freeMembers (hread layout) _ true []).bind fun members =>
      keeps_pure _
  · exact (hleaf _).within hc

theorem keeps_readTable (hinner : KeepsInside size inner) (key : Key) (element : Layout τ) :
    Keeps size 0 (readTable ctx inner key element) := by
  apply keeps_firstByte_bind
  intro b c least hc hrest
  split
  · apply within_brackets hinner keeps_closeObject ?_ hc hrest
    intro read hread
    apply Keeps.mono ?_ (Nat.zero_le 1)
    cases key with
    | text =>
        exact (keeps_freeMembers (hread element) _ true []).bind fun members =>
          keeps_pure _
    | number kind =>
        exact (keeps_numberedMembers (hread element) kind _ true []).bind fun entries =>
          keeps_pure _
  · exact (keeps_wrongKind "a map" _).within hc

theorem keeps_readChoice (hinner : KeepsInside size inner) (variants : List (Variant τ)) :
    Keeps size 0 (readChoice schema ctx inner variants) := by
  apply keeps_firstByte_bind
  intro b c least hc _
  split
  · cases inner with
    | none => exact Trail.below_nil
    | some read =>
        have hread : ∀ layout, Keeps size 0 (read layout) := hinner read rfl
        apply Keeps.within ?_ hc
        refine keeps_advance.bind fun _ => (keeps_named variants).bind fun variant =>
          keeps_colon.bind fun _ => ((hread _).atField variant.name).bind fun v =>
            keeps_look.bind fun o => ?_
        -- Whatever stands where the object should end, nothing is read behind it.
        dsimp only
        split
        · refine keeps_advance.bind fun _ => ?_
          split <;> exact keeps_pure _
        · refine (keeps_fail _).bind fun _ => ?_
          split <;> exact keeps_pure _
        · refine (keeps_fail _).bind fun _ => ?_
          split <;> exact keeps_pure _
  · exact ((keeps_named variants).bind fun variant => keeps_bareVariant ctx variant).within hc
  · exact (keeps_failNext _).within hc

/-- The elements of a tagged choice that is written as a list: its tag comes first. -/
theorem keeps_taggedItems {read : Layout τ → Read Value}
    (hread : ∀ layout, Keeps size 0 (read layout)) (tag : String) (names : List String)
    (rounds : Nat) : Keeps size 1 (do
      if ← hasItem true then
        let name ← ctx.atIndex 0 (variantName names)
        return (name, .list (← items ctx (read .raw) rounds 1 []))
      else mismatch (.missingField tag) : Read (String × Value)) := by
  have hnext : ∀ name : String, Keeps size (max 1 (0 + 1))
      (items ctx (read .raw) rounds 1 [] >>= fun vs => pure (name, Value.list vs)) :=
    fun name => (keeps_items (hread .raw) rounds 1 []).bind fun vs => keeps_pure _
  apply keeps_item (keeps_variantName names) hnext
  intro c' least _ hc'
  exact (keeps_mismatch _).within hc'

/-- What was kept aside is fitted without reading on. -/
theorem keeps_kept (tag : String) (variants : List (String × Kept)) (name : String)
    (content : Value) : Keeps size 0 (match variants.lookup name with
      | none => mismatch (.unknownVariant name (variants.map (·.1)))
      | some kept =>
        match fit content kept with
        | .error m => mismatch m
        | .ok (.object members) => return .object ((tag, .text name) :: members)
        | .ok v => return v : Read Value) := by
  cases variants.lookup name with
  | none => exact keeps_mismatch _
  | some kept =>
      cases hfit : fit content kept with
      | error m =>
          simp only [hfit]
          exact keeps_mismatch m
      | ok v =>
          simp only [hfit]
          cases v <;> exact keeps_pure _

theorem keeps_readTagged (hinner : KeepsInside size inner) (title tag : String)
    (variants : List (String × Kept)) :
    Keeps size 0 (readTagged ctx inner title tag variants) := by
  apply keeps_firstByte_bind
  intro b c least hc hrest
  dsimp only
  split
  · apply Within.bind
    · apply within_brackets hinner keeps_closeList ?_ hc hrest
      intro read hread
      exact keeps_taggedItems hread tag _ _
    · intro found c' _ hc'
      exact (keeps_kept tag variants found.1 found.2).within hc'
  · apply Within.bind
    · apply within_brackets hinner keeps_closeObject ?_ hc hrest
      intro read hread
      apply Keeps.mono ?_ (Nat.zero_le 1)
      exact (keeps_taggedMembers (hread .raw) tag _ _ true none []).bind fun found =>
        keeps_pure _
    · intro found c' _ hc'
      exact (keeps_kept tag variants found.1 found.2).within hc'
  · apply Within.bind ((keeps_wrongKind title _).within hc)
    intro found c' _ hc'
    exact (keeps_kept tag variants found.1 found.2).within hc'

theorem keeps_readLayout (hinner : KeepsInside size inner) (layout : Layout τ) :
    Keeps size 0 (readLayout schema ctx inner layout) := by
  cases layout with
  | any => exact keeps_readFree hinner _ _
  | raw => exact keeps_readFree hinner _ _
  | text =>
      have htext : Keeps size 0 (readText "a string") :=
        keeps_of_compares fun K => compares_readText K "a string"
      exact htext.bind fun s => keeps_pure _
  | truth => exact keeps_of_compares compares_readTruth
  | unit => exact keeps_of_compares compares_readUnit
  | integer kind =>
      have hinteger : Keeps size 0 (readInteger kind) :=
        keeps_of_compares fun K => compares_readInteger K kind
      exact hinteger.bind fun i => keeps_pure _
  | list element => exact keeps_readList hinner _
  | tuple title whole elements => exact keeps_readTuple hinner title whole elements
  | record title fields closed => exact keeps_readRecord hinner title fields closed
  | table key element => exact keeps_readTable hinner key _
  | choice variants => exact keeps_readChoice hinner variants
  | tagged title tag variants => exact keeps_readTagged hinner title tag variants

/-- **A value of any layout is read within the body**, at any depth. -/
theorem keeps_readAt (schema : Schema τ) (ctx : Context) (depth : Nat) (layout : Layout τ) :
    Keeps size 0 (readAt schema ctx depth layout) := by
  induction depth generalizing layout with
  | zero =>
      apply keeps_readLayout
      intro read hread
      cases hread
  | succ depth ih =>
      apply keeps_readLayout
      intro read hread
      obtain rfl : readAt schema ctx depth = read := Option.some.inj hread
      exact ih

end Layouts

/-! ## §6. Bodies. -/

/-- A reader that stays within every body fails with no position that a body has no byte for. -/
theorem below_of_run {read : Read Value} {body : List UInt8} {e : Error}
    (hread : Keeps body.length 0 read) (h : run read body .complete = .error e) :
    e.trail.Below body.length := by
  have hstart : (Cursor.start body .complete).Stands body.length 0 :=
    ⟨Nat.zero_add body.length, rfl, Nat.le_refl 0⟩
  have hrun := hread.within hstart
  unfold run at h
  cases hresult : read (.start body .complete) with
  | ok v c =>
      rw [hresult] at h
      cases h
  | error e' c =>
      rw [hresult] at h hrun
      obtain rfl : e' = e := Except.error.inj h
      exact hrun

/-- The steps of a path are steps of the trail. -/
theorem below_of_mapping {body : List UInt8} {e : Error} {outer message : String} {path : Path}
    (h : e.unreadable body = ⟨outer, .mapping path message⟩) (hbelow : e.trail.Below body.length) :
    ∀ i, .index i ∈ path → i < body.length := by
  have hpath : e.path = path := by
    unfold Error.unreadable at h
    cases hkind : e.fault.kind with
    | mismatch =>
        rw [hkind] at h
        injection h with _ hcause
        injection hcause
    | malformed | ended | brokenOff =>
        rw [hkind] at h
        injection h with _ hcause
        cases hcause
  intro i hi
  rw [← hpath] at hi
  obtain ⟨s, hs, hsome⟩ := List.mem_filterMap.mp hi
  apply hbelow i
  rw [← hsome]
  exact hs

/-- **No position in the path of a mapping failure reaches the size of the body**, whatever the
layout and the bytes.  So if the body fits the address space, the position counted from one, which
callers read, is the next machine word and does not wrap. -/
theorem positions_below_size (schema : Schema τ) (layout : Layout τ) (body : List UInt8)
    (outer message : String) (path : Path)
    (h : parseBody schema layout body = .error ⟨outer, .mapping path message⟩) :
    ∀ i, .index i ∈ path → i < body.length
      ∧ (body.length < USize.size → (USize.ofNat i + 1).toNat = i + 1) := by
  have hread : Keeps body.length 0 (do
      let v ← readAt schema ⟨body.length, true⟩ depthLimit layout
      finish
      return v : Read Value) := by
    have hfinish : Keeps body.length 0 finish := by
      refine keeps_look.bind fun o => ?_
      split
      · exact keeps_pure ()
      · exact keeps_failNext _
    exact (keeps_readAt schema _ depthLimit layout).bind fun v =>
      hfinish.bind fun _ => keeps_pure v
  cases hwhole : readWhole schema layout true body .complete with
  | ok v =>
      unfold parseBody at h
      rw [hwhole] at h
      cases h
  | error e =>
      unfold parseBody at h
      rw [hwhole] at h
      have hbelow := below_of_mapping (Except.error.inj h) (below_of_run hread hwhole)
      intro i hi
      have hlt := hbelow i hi
      refine ⟨hlt, ?_⟩
      -- The next number is at most the size of the body, so it is a machine word, too.
      intro hspace
      have hnext : USize.ofNat i + 1 = USize.ofNat (i + 1) := (USize.ofNat_add i 1).symm
      rw [hnext]
      exact USize.toNat_ofNat_of_lt' (by omega)

/-- Cells, of which the second has no number, in a body that ends too early. -/
def brokenCells : List UInt8 := "\x7b\"name\":[\x7b\"value\":1\x7d,\x7b\"value\":true".toUTF8.toList

theorem positions_below_size_broken_cells : ∃ outer message,
    parseBody Sample.schema (Sample.schema .cells) brokenCells
        = .error ⟨outer, .mapping [.field "name", .index 1, .field "value"] message⟩
      ∧ 1 < brokenCells.length ∧ (USize.ofNat 1 + 1).toNat = 2 := by
  have hread : parseBody Sample.schema (Sample.schema .cells) brokenCells
      = .error ⟨"invalid type: boolean `true`, expected i64 at line 1 column 34",
          .mapping [.field "name", .index 1, .field "value"]
            "invalid type: boolean `true`, expected i64 at line 1 column 34"⟩ :=
    eq_error_of_isError (by decide +kernel)
  obtain ⟨hlt, hnext⟩ := positions_below_size _ _ _ _ _ _ hread 1 (by decide)
  refine ⟨_, _, hread, hlt, hnext ?_⟩
  have hword : 2 ^ 32 ≤ USize.size := USize.le_size
  have hlength : brokenCells.length = 34 := by decide +kernel
  omega

end ErrorContract.Json
