/-
  ErrorContract.Proofs.Continuation
  ─────────────────────────────────
  **WHAT FOLLOWS A VALUE DOES NOT MATTER TO IT.**

  A run that leaves no byte ends alike when the body goes on, too, if what it
  has read ends by itself: brackets and strings end with a byte of their
  own, words after a fixed number of bytes.  Only a number may go on.
  Inside brackets a byte is always left, so that only the outermost layer of
  the reader is gone through here.

  Main statement `reading_ends_with_the_value`: behind a body that is
  accepted blanks change nothing, and anything else is refused as trailing
  characters.
-/
import ErrorContract.Proofs.Locality

namespace ErrorContract.Json

open ErrorContract

/-! ## §1. Values that end by themselves. -/

/-- The value is a bare number. -/
def Value.IsNumber : Value → Prop
  | .int _ | .float _ => True
  | _ => False

instance : DecidablePred Value.IsNumber
  | .int _ | .float _ => isTrue trivial
  | .null | .bool _ | .text _ | .list _ | .object _ => isFalse id

section Settles

variable {α β : Type} {P : α → Prop} {Q : β → Prop} {s : List UInt8} {c c' : Cursor}

/-- **A second reader ends where a first one does, when the body goes on**, even if the first one
leaves nothing. -/
def Settles (P : α → Prop) (s : List UInt8) (read read' : Read α) : Prop :=
  ∀ c a c', read c = .ok a c' → P a → read' (c.goOn s) = .ok a (c'.goOn s)

/-- A reader that does not succeed at the end of a body. -/
def Needy (read : Read α) : Prop := ∀ c a c', read c = .ok a c' → c.rest ≠ []

theorem settles_pure (a : α) : Settles P s (pure a) (pure a) := by
  intro c b c' h _
  obtain ⟨rfl, rfl⟩ := eq_of_pure_ok h
  rfl

theorem settles_of_ne_ok {read read' : Read α} (h : ∀ c a c', read c ≠ .ok a c') :
    Settles P s read read' := fun c a c' hrun => absurd hrun (h c a c')

theorem Settles.bind {read read' : Read α} {next next' : α → Read β}
    (h : Settles (fun _ => True) s read read') (hnext : ∀ a, Settles Q s (next a) (next' a)) :
    Settles Q s (read >>= next) (read' >>= next') := by
  intro c b c' hrun hb
  obtain ⟨a, c₁, hread, hrest⟩ := exists_of_bind_ok hrun
  exact bind_eq_of_ok (h _ _ _ hread trivial) (hnext a _ _ _ hrest hb)

/-- What is left for a reader that needs bytes is not the end. -/
theorem Carries.bind_settles {read read' : Read α} {next next' : α → Read β}
    (h : Carries s read read') (hneedy : ∀ a, Needy (next a))
    (hnext : ∀ a, Settles Q s (next a) (next' a)) :
    Settles Q s (read >>= next) (read' >>= next') := by
  intro c b c' hrun hb
  obtain ⟨a, c₁, hread, hrest⟩ := exists_of_bind_ok hrun
  exact bind_eq_of_ok ((h _ _ _ hread).2 (hneedy a _ _ _ hrest)) (hnext a _ _ _ hrest hb)

theorem Settles.fixing {read read' : Read α} (h : Settles P s read read') :
    Settles P s (fixing read) (fixing read') :=
  fun _ _ _ hrun ha => fixing_eq_of_ok (h _ _ _ (ok_of_fixing_ok hrun) ha)

theorem Needy.bind {read : Read α} (h : Needy read) (next : α → Read β) :
    Needy (read >>= next) := by
  intro c b c' hrun
  obtain ⟨a, c₁, hread, -⟩ := exists_of_bind_ok hrun
  exact h _ _ _ hread

/-- A reader that leaves bytes for a needy one is needy itself. -/
theorem Carries.bind_needy {read read' : Read α} {next : α → Read β} (h : Carries s read read')
    (hnext : ∀ a, Needy (next a)) : Needy (read >>= next) := by
  intro c b c' hrun
  obtain ⟨a, c₁, hread, hrest⟩ := exists_of_bind_ok hrun
  exact (h _ _ _ hread).1.rest_ne_nil (hnext a _ _ _ hrest)

/-! ### Bytes. -/

theorem look_some_goOn {b : UInt8} (h : look c = .ok (some b) c') :
    look (c.goOn s) = .ok (some b) (c'.goOn s) := by
  obtain ⟨w, rest, -, hrest⟩ := look_some h
  exact (carries_look _ _ _ h).2 (by simp [hrest])

theorem next_some_goOn {b : UInt8} (h : next c = .ok (some b) c') :
    next (c.goOn s) = .ok (some b) (c'.goOn s) := by
  obtain ⟨o, c₁, hpeek, h₁⟩ := exists_of_bind_ok h
  obtain ⟨u, c₂, hadvance, h₂⟩ := exists_of_bind_ok h₁
  obtain ⟨rfl, rfl⟩ := eq_of_pure_ok h₂
  have hc := peek_advance_ok hpeek hadvance
  obtain ⟨rfl, hlong⟩ := peek_goOn (s := s) hpeek
  cases hadvance
  have hstep : advance (c₁.goOn s) = .ok () (c₁.advance.goOn s) := by
    show EStateM.Result.ok () (c₁.goOn s).advance = _
    rw [advance_goOn (by simp [hc])]
  exact bind_eq_of_ok hlong (bind_eq_of_ok hstep rfl)

theorem settles_literal {P : Unit → Prop} (word : List UInt8) :
    Settles P s (literal word) (literal word) := by
  induction word with
  | nil => exact settles_pure ()
  | cons b word ih =>
      intro c u c' h hu
      obtain ⟨o, c₁, hnext, h₁⟩ := exists_of_bind_ok h
      cases o with
      | none => cases h₁
      | some a =>
          refine bind_eq_of_ok (next_some_goOn hnext) ?_
          dsimp only at h₁ ⊢
          by_cases hab : a = b
          · rw [if_pos hab] at h₁ ⊢
            exact ih _ _ _ h₁ hu
          · rw [if_neg hab] at h₁
            cases h₁

theorem needy_literal (b : UInt8) (word : List UInt8) : Needy (literal (b :: word)) := by
  intro c u c' h
  simp [literal_ok h]

theorem needy_string : Needy string := by
  intro c a c' h
  obtain ⟨token, htoken⟩ := string_ok h
  simp [htoken, StringToken.bytes]

theorem settles_string {P : String → Prop} : Settles P s string string :=
  fun _ _ _ h _ => (string_goOn h).2

theorem settles_word (b : UInt8) (word : List UInt8) (a : α) :
    Settles P s (advance >>= fun _ => literal (b :: word) >>= fun _ => pure a)
      (advance >>= fun _ => literal (b :: word) >>= fun _ => pure a) :=
  carries_advance.bind_settles (fun _ => (needy_literal b word).bind _) fun _ =>
    (settles_literal _).bind fun _ => settles_pure a

theorem settles_firstByte {P : UInt8 → Prop} : Settles P s firstByte firstByte := by
  intro c b c' h _
  obtain ⟨o, c₁, hlook, h₁⟩ := exists_of_bind_ok h
  cases o with
  | none => cases h₁
  | some d =>
      obtain ⟨rfl, rfl⟩ := eq_of_pure_ok h₁
      exact bind_eq_of_ok (look_some_goOn hlook) rfl

/-- The closing of brackets that was seen is taken. -/
theorem advance_goOn_of_look {b : UInt8} {u : Unit} {c₁ : Cursor} (hlook : look c = .ok (some b) c₁)
    (hadvance : advance c₁ = .ok u c') : advance (c₁.goOn s) = .ok u (c'.goOn s) := by
  obtain ⟨w, rest, -, hrest⟩ := look_some hlook
  cases hadvance
  show EStateM.Result.ok () (c₁.goOn s).advance = _
  rw [advance_goOn (by simp [hrest])]

theorem settles_closeList {P : Unit → Prop} : Settles P s closeList closeList := by
  intro c u c' h _
  obtain ⟨o, c₁, hlook, h₁⟩ := exists_of_bind_ok h
  split at h₁
  · exact bind_eq_of_ok (look_some_goOn hlook) (advance_goOn_of_look hlook h₁)
  · obtain ⟨u₂, c₂, -, h₂⟩ := exists_of_bind_ok h₁
    obtain ⟨o, c₃, -, h₃⟩ := exists_of_bind_ok h₂
    split at h₃ <;> cases h₃
  · cases h₁
  · cases h₁

theorem settles_closeObject {P : Unit → Prop} : Settles P s closeObject closeObject := by
  intro c u c' h _
  obtain ⟨o, c₁, hlook, h₁⟩ := exists_of_bind_ok h
  split at h₁
  · exact bind_eq_of_ok (look_some_goOn hlook) (advance_goOn_of_look hlook h₁)
  · cases h₁
  · cases h₁
  · cases h₁

theorem needy_closeList : Needy closeList := by
  intro c u c' h
  obtain ⟨w, hw⟩ := closeList_ok h
  simp [hw]

theorem needy_closeObject : Needy closeObject := by
  intro c u c' h
  obtain ⟨w, hw⟩ := closeObject_ok h
  simp [hw]

/-- **What stands between brackets ends by itself**, as its end does. -/
theorem settles_bracketed {close : Read Unit} {inside inside' : Read α} (hneedy : Needy close)
    (hclose : Settles (fun _ => True) s close close) (h : Carries s inside inside') :
    Settles P s (bracketed close inside) (bracketed close inside') := by
  intro c a c' hrun _
  obtain ⟨c₁, hinside, hend⟩ := bracketed_ok hrun
  obtain ⟨hreach, hlong⟩ := h _ _ _ hinside
  -- The closing bracket is still there when the inside has been read.
  have hc₁ : c₁.rest ≠ [] := hneedy _ _ _ hend
  refine bracketed_eq_of_ok ?_ (hclose _ _ _ hend trivial)
  rw [advance_goOn (((reaches_advance c).trans hreach).rest_ne_nil hc₁)]
  exact hlong hc₁

/-! ### Numbers. -/

/-- Whatever a reader yields has this property. -/
def Yields (P : α → Prop) (read : Read α) : Prop := ∀ c a c', read c = .ok a c' → P a

theorem yields_pure {a : α} (h : P a) : Yields P (pure a) := by
  intro c b c' hrun
  obtain ⟨rfl, -⟩ := eq_of_pure_ok hrun
  exact h

theorem yields_bind {read : Read α} {next : α → Read β} (h : ∀ a, Yields Q (next a)) :
    Yields Q (read >>= next) := by
  intro c b c' hrun
  obtain ⟨a, c₁, -, hrest⟩ := exists_of_bind_ok hrun
  exact h a _ _ _ hrest

theorem yields_ite {p : Prop} [Decidable p] {yes no : Read α} (hyes : Yields P yes)
    (hno : Yields P no) : Yields P (if p then yes else no) := by
  by_cases hp : p
  · rw [if_pos hp]
    exact hyes
  · rw [if_neg hp]
    exact hno

theorem yields_failAt (place : Nat) (f : Fault) : Yields P (failAt place f) := nofun

theorem yields_fail (f : Fault) : Yields P (fail f) := nofun

theorem yields_failNext (f : Fault) : Yields P (failNext f) := nofun

end Settles

theorem isNumber_whole (positive : Bool) (n : Nat) : (whole positive n).IsNumber := by
  unfold whole
  split
  · trivial
  · split <;> trivial

theorem yields_floating (positive : Bool) (significand : Nat) (power : Int) :
    Yields Value.IsNumber (floating positive significand power) := by
  unfold floating
  split
  · exact yields_pure trivial
  · exact yields_bind fun c => yields_failAt _ _

theorem yields_exponentDigits (positive negative : Bool) (significand : Nat) (power : Int) :
    Yields Value.IsNumber (exponentDigits positive negative significand power) := by
  refine yields_bind fun o => ?_
  split
  · exact yields_fail _
  · refine yields_ite (yields_fail _) (yields_bind fun ds => ?_)
    refine yields_ite (yields_bind fun _ => yields_floating _ _ _) (yields_ite ?_ ?_)
    · exact yields_bind fun c => yields_failAt _ _
    · exact yields_bind fun _ => yields_pure trivial

theorem yields_exponent (positive : Bool) (significand : Nat) (power : Int) :
    Yields Value.IsNumber (exponent positive significand power) := by
  refine yields_bind fun _ => yields_bind fun o => yields_bind fun o' => ?_
  exact yields_ite (yields_bind fun _ => yields_exponentDigits _ _ _ _)
    (yields_exponentDigits _ _ _ _)

theorem yields_behindWhole (positive : Bool) (significand : Nat) (excess : List UInt8) :
    Yields Value.IsNumber (behindWhole positive significand excess) := by
  refine yields_bind fun o => ?_
  split
  · -- a fraction
    refine yields_bind fun _ => yields_bind fun ds => yields_ite ?_ ?_
    · refine yields_bind fun o => ?_
      split <;> exact yields_failNext _
    · refine yields_bind fun o => ?_
      split
      · exact yields_exponent _ _ _
      · exact yields_exponent _ _ _
      · exact yields_floating _ _ _
  · exact yields_exponent _ _ _
  · exact yields_exponent _ _ _
  · exact yields_ite (yields_pure (isNumber_whole _ _)) (yields_floating _ _ _)

/-- **A number is read as a number.** -/
theorem yields_number (positive : Bool) : Yields Value.IsNumber (number positive) := by
  refine yields_bind fun o => ?_
  split
  · exact yields_fail _
  · exact yields_bind fun o => yields_ite (yields_failNext _) (yields_behindWhole _ _ _)
  · exact yields_ite (yields_fail _) (yields_bind fun ds => yields_behindWhole _ _ _)

/-! ## §2. Every layout. -/

section Layouts

variable {s : List UInt8} {bound bound' : Nat} {schema : Schema τ} {inner inner' : Inner τ}

/-- A value, but for a bare number. -/
abbrev Value.IsOther (v : Value) : Prop := ¬ v.IsNumber

theorem settles_of_number {read read' : Read Value} (h : Yields Value.IsNumber read) :
    Settles Value.IsOther s read read' := fun _ _ _ hrun hv => absurd (h _ _ _ hrun) hv

theorem settles_leaf (b : UInt8) : Settles Value.IsOther s (leaf b) (leaf b) := by
  unfold leaf
  split
  · exact settles_word _ _ _
  · exact settles_word _ _ _
  · exact settles_word _ _ _
  · exact carries_advance.bind_settles (fun _ => needy_string.bind _) fun _ =>
      settles_string.bind fun _ => settles_pure _
  · exact settles_of_number (yields_bind fun _ => yields_number _)
  · exact settles_of_number (yields_ite (yields_number _) (yields_failNext _))

theorem settles_wrongKind {α : Type} {P : α → Prop} (expected : String) (b : UInt8) :
    Settles P s (wrongKind expected b) (wrongKind expected b) :=
  settles_of_ne_ok fun _ _ _ => wrongKind_ne_ok

theorem settles_readText {P : String → Prop} (expected : String) :
    Settles P s (readText expected) (readText expected) := by
  refine settles_firstByte.bind fun b => ?_
  split
  · exact carries_advance.bind_settles (fun _ => needy_string) fun _ => settles_string
  · exact settles_wrongKind _ _

theorem settles_readUnit {P : Value → Prop} : Settles P s readUnit readUnit := by
  refine settles_firstByte.bind fun b => ?_
  split
  · exact settles_word _ _ _
  · exact settles_wrongKind _ _

theorem settles_readTruth {P : Value → Prop} : Settles P s readTruth readTruth := by
  refine settles_firstByte.bind fun b => ?_
  split
  · exact settles_word _ _ _
  · exact settles_word _ _ _
  · exact settles_wrongKind _ _

theorem settles_variantName {P : String → Prop} (names : List String) :
    Settles P s (variantName names) (variantName names) := by
  refine settles_firstByte.bind fun b => ?_
  split
  · refine Settles.fixing (carries_advance.bind_settles (fun _ => needy_string.bind _) fun _ =>
      settles_string.bind fun name => ?_)
    split
    · exact settles_pure _
    · exact settles_of_ne_ok nofun
  · exact settles_wrongKind _ _

theorem settles_named {P : Variant τ → Prop} (variants : List (Variant τ)) :
    Settles P s (readChoice.named variants) (readChoice.named variants) := by
  refine (settles_variantName _).bind fun name => ?_
  split
  · exact settles_pure _
  · exact settles_of_ne_ok nofun

theorem settles_bareVariant {P : Value → Prop} (ctx ctx' : Context) (variant : Variant τ) :
    Settles P s (bareVariant ctx variant) (bareVariant ctx' variant) := by
  unfold bareVariant
  split
  · exact settles_pure _
  all_goals exact settles_of_ne_ok fun _ _ _ => missing_ne_ok

theorem needy_look {α : Type} {next : Option UInt8 → Read α}
    (h : ∀ c a c', next none c ≠ .ok a c') : Needy (look >>= next) := by
  intro c a c' hrun
  obtain ⟨o, c₁, hlook, hnext⟩ := exists_of_bind_ok hrun
  cases o with
  | none => exact absurd hnext (h _ _ _)
  | some b =>
      obtain ⟨w, rest, hw, -⟩ := look_some hlook
      simp [hw]

theorem needy_named (variants : List (Variant τ)) : Needy (readChoice.named variants) := by
  intro c variant c' h
  obtain ⟨w, token, hw⟩ := named_ok h
  simp [hw]

/-- Behind its only member an object is closed. -/
theorem settles_closeChoice {P : Value → Prop} {final : Read Value} (h : Settles P s final final) :
    Settles P s
      (look >>= fun o => match o with
        | some 0x7d => advance >>= fun _ => final
        | some _ => fail .expectedValue >>= fun _ : Unit => final
        | none => fail .endInObject >>= fun _ : Unit => final)
      (look >>= fun o => match o with
        | some 0x7d => advance >>= fun _ => final
        | some _ => fail .expectedValue >>= fun _ : Unit => final
        | none => fail .endInObject >>= fun _ : Unit => final) := by
  intro c v c' hrun hv
  obtain ⟨o, c₁, hlook, h₁⟩ := exists_of_bind_ok hrun
  split at h₁
  · obtain ⟨u, c₂, hadvance, h₂⟩ := exists_of_bind_ok h₁
    exact bind_eq_of_ok (look_some_goOn hlook)
      (bind_eq_of_ok (advance_goOn_of_look hlook hadvance) (h _ _ _ h₂ hv))
  · cases h₁
  · cases h₁

section Brackets

variable (hbound : bound ≤ bound') (hinner : (longer s hbound).Inside inner inner')

include hinner

theorem settles_opening {α : Type} {P : α → Prop}
    {read read' : (Layout τ → Read Value) → Read α}
    (h : ∀ inside inside', (∀ layout, Carries s (inside layout) (inside' layout)) →
      Settles P s (read inside) (read' inside')) :
    Settles P s (opening inner read) (opening inner' read') := by
  cases hinner with
  | none => exact settles_of_ne_ok nofun
  | some hinside => exact h _ _ hinside

theorem settles_list {α : Type} {P : α → Prop} {read read' : (Layout τ → Read Value) → Read α}
    (h : ∀ inside inside', (∀ layout, Carries s (inside layout) (inside' layout)) →
      Carries s (read inside) (read' inside')) :
    Settles P s (opening inner fun inside => bracketed closeList (read inside))
      (opening inner' fun inside => bracketed closeList (read' inside)) :=
  settles_opening hbound hinner fun _ _ hinside =>
    settles_bracketed needy_closeList settles_closeList (h _ _ hinside)

theorem settles_object {α : Type} {P : α → Prop} {read read' : (Layout τ → Read Value) → Read α}
    (h : ∀ inside inside', (∀ layout, Carries s (inside layout) (inside' layout)) →
      Carries s (read inside) (read' inside')) :
    Settles P s (opening inner fun inside => bracketed closeObject (read inside))
      (opening inner' fun inside => bracketed closeObject (read' inside)) :=
  settles_opening hbound hinner fun _ _ hinside =>
    settles_bracketed needy_closeObject settles_closeObject (h _ _ hinside)

theorem settles_readFree (layout : Layout τ)
    (finished : List (String × Value) → List (String × Value)) :
    Settles Value.IsOther s (readFree ⟨bound, true⟩ inner layout finished)
      (readFree ⟨bound', true⟩ inner' layout finished) := by
  let K := longer s hbound
  refine settles_firstByte.bind fun b => ?_
  split
  · exact settles_list hbound hinner fun read read' h =>
      K.bind (compares_items K (h layout) K.rounds_bound _ _) fun vs => K.pure _
  · exact settles_object hbound hinner fun read read' h =>
      K.bind (compares_freeMembers K (h layout) K.rounds_bound _ _) fun members => K.pure _
  · exact settles_leaf b

variable {P : Value → Prop}

theorem settles_readList (element : Layout τ) :
    Settles P s (readList ⟨bound, true⟩ inner element)
      (readList ⟨bound', true⟩ inner' element) := by
  let K := longer s hbound
  refine settles_firstByte.bind fun b => ?_
  split
  · exact settles_list hbound hinner fun read read' h =>
      K.bind (compares_items K (h element) K.rounds_bound _ _) fun vs => K.pure _
  · exact settles_wrongKind _ _

theorem settles_readTuple (title whole : String) (types : List τ) :
    Settles P s (readTuple schema ⟨bound, true⟩ inner title whole types)
      (readTuple schema ⟨bound', true⟩ inner' title whole types) := by
  let K := longer s hbound
  refine settles_firstByte.bind fun b => ?_
  split
  · exact settles_list hbound hinner fun read read' h =>
      K.bind (compares_fixedItems K h _ _ _) fun vs => K.pure _
  · exact settles_wrongKind _ _

theorem settles_readRecord (title : String) (fields : List (Field τ)) (closed : Bool) :
    Settles P s (readRecord schema ⟨bound, true⟩ inner title fields closed)
      (readRecord schema ⟨bound', true⟩ inner' title fields closed) := by
  let K := longer s hbound
  refine settles_firstByte.bind fun b => ?_
  split
  · exact settles_list hbound hinner fun read read' h =>
      K.bind (compares_positional K h _ _ _) fun members => K.pure _
  · exact settles_object hbound hinner fun read read' h =>
      K.bind (compares_namedFields K h _ _ K.rounds_bound _ _) fun members =>
        K.bind (compares_complete K members fields) fun read => K.pure _
  · exact settles_wrongKind _ _

theorem settles_readTable (key : Key) (element : Layout τ) :
    Settles P s (readTable ⟨bound, true⟩ inner key element)
      (readTable ⟨bound', true⟩ inner' key element) := by
  let K := longer s hbound
  refine settles_firstByte.bind fun b => ?_
  split
  · refine settles_object hbound hinner fun read read' h => ?_
    cases key with
    | text =>
        exact K.bind (compares_freeMembers K (h element) K.rounds_bound _ _) fun members => K.pure _
    | number kind =>
        exact K.bind (compares_numberedMembers K (h element) kind K.rounds_bound _ _) fun entries =>
          K.pure _
  · exact settles_wrongKind _ _

theorem settles_readChoice (variants : List (Variant τ)) :
    Settles P s (readChoice schema ⟨bound, true⟩ inner variants)
      (readChoice schema ⟨bound', true⟩ inner' variants) := by
  let K := longer s hbound
  refine settles_firstByte.bind fun b => ?_
  split
  · refine settles_opening hbound hinner fun read read' h => ?_
    refine carries_advance.bind_settles (fun _ => (needy_named variants).bind _) fun _ =>
      (settles_named variants).bind fun variant => ?_
    -- The value must leave a byte for what closes the object, and the colon one for the value.
    have hvalue : Carries s _ _ := K.step (some (.field variant.name))
      (h (variant.payload.layout schema))
    have hcolon : Carries s colon colon := compares_colon K
    refine hcolon.bind_settles (fun _ => hvalue.bind_needy fun v => needy_look nofun) fun _ => ?_
    refine hvalue.bind_settles (fun v => needy_look nofun) fun v => settles_closeChoice ?_
    -- What is made of the only member takes nothing more.
    split <;> exact settles_pure _
  · exact (settles_named variants).bind fun variant => settles_bareVariant _ _ variant
  · exact settles_of_ne_ok nofun

theorem settles_readTagged (title tag : String) (variants : List (String × Kept)) :
    Settles P s (readTagged ⟨bound, true⟩ inner title tag variants)
      (readTagged ⟨bound', true⟩ inner' title tag variants) := by
  let K := longer s hbound
  refine settles_firstByte.bind fun b => ?_
  dsimp only
  split
  case' h_1 => refine Settles.bind ?list fun x => ?_
  case' h_2 => refine Settles.bind ?object fun x => ?_
  case' h_3 => refine Settles.bind ?other fun x => ?_
  case list =>
    refine settles_list hbound hinner fun read read' h => ?_
    refine K.bind (compares_hasItem K true) fun more =>
      compares_ite K ?_ (compares_mismatch K _)
    exact K.bind (K.step _ (compares_variantName K _)) fun name =>
      K.bind (compares_items K (h .raw) K.rounds_bound _ _) fun vs => K.pure _
  case object =>
    refine settles_object hbound hinner fun read read' h => ?_
    exact K.bind (compares_taggedMembers K (h .raw) tag _ K.rounds_bound _ _ _) fun members =>
      K.pure _
  case other => exact settles_wrongKind _ _
  -- Whatever the brackets, what they hold is fitted without reading on.
  all_goals
    split
    · exact settles_of_ne_ok nofun
    · split
      · exact settles_of_ne_ok nofun
      · exact settles_pure _
      · exact settles_pure _

/-- **Everything but a number ends by itself**, if what is inside brackets is carried on. -/
theorem settles_readLayout (layout : Layout τ) :
    Settles Value.IsOther s (readLayout schema ⟨bound, true⟩ inner layout)
      (readLayout schema ⟨bound', true⟩ inner' layout) := by
  cases layout with
  | any => exact settles_readFree hbound hinner _ _
  | raw => exact settles_readFree hbound hinner _ _
  | text => exact (settles_readText _).bind fun s => settles_pure _
  | truth => exact settles_readTruth
  | unit => exact settles_readUnit
  | integer kind => exact settles_of_number (yields_bind fun i => yields_pure trivial)
  | list element => exact settles_readList hbound hinner _
  | tuple title whole elements => exact settles_readTuple hbound hinner title whole elements
  | record title fields closed => exact settles_readRecord hbound hinner title fields closed
  | table key element => exact settles_readTable hbound hinner key _
  | choice variants => exact settles_readChoice hbound hinner variants
  | tagged title tag variants => exact settles_readTagged hbound hinner title tag variants

end Brackets

/-- The induction of the insides is that of the comparison; the outermost brackets end by
themselves. -/
theorem settles_readAt (hbound : bound ≤ bound') (depth : Nat) (layout : Layout τ) :
    Settles Value.IsOther s (readAt schema ⟨bound, true⟩ depth layout)
      (readAt schema ⟨bound', true⟩ depth layout) := by
  cases depth with
  | zero => exact settles_readLayout hbound .none layout
  | succ depth =>
      have hinside : (longer s hbound).Inside (some (readAt schema ⟨bound, true⟩ depth))
          (some (readAt schema ⟨bound', true⟩ depth)) :=
        .some fun layout => compares_readAt (longer s hbound) schema depth layout
      exact settles_readLayout hbound hinside layout

end Layouts

/-! ## §3. Bodies. -/

section Bodies

variable {schema : Schema τ} {layout : Layout τ} {body s : List UInt8} {v : Value} {c c' : Cursor}

/-- Of a body that is accepted a value was read, and then nothing but blanks was left. -/
theorem exists_of_parseBody_ok (h : parseBody schema layout body = .ok v) :
    ∃ c c', readAt schema ⟨body.length, true⟩ depthLimit layout (.start body .complete) = .ok v c
      ∧ finish c = .ok () c' := by
  unfold parseBody readWhole run at h
  generalize hrun : (do
    let v ← readAt schema ⟨body.length, true⟩ depthLimit layout
    finish
    return v : Read Value) (.start body .complete) = result at h
  cases result with
  | ok w c' =>
      cases h
      obtain ⟨a, c₁, hread, h₁⟩ := exists_of_bind_ok hrun
      obtain ⟨u, c₂, hfinish, h₂⟩ := exists_of_bind_ok h₁
      obtain ⟨rfl, -⟩ := eq_of_pure_ok h₂
      exact ⟨c₁, c₂, hread, hfinish⟩
  | error e c' => cases h

/-- Once a value has been read, the end of the body decides. -/
theorem parseBody_of_read
    (h : readAt schema ⟨body.length, true⟩ depthLimit layout (.start body .complete) = .ok v c) :
    parseBody schema layout body
      = match finish c with
        | .ok _ _ => .ok v
        | .error e _ => .error (e.unreadable body) := by
  have hrun : (do
      let v ← readAt schema ⟨body.length, true⟩ depthLimit layout
      finish
      return v : Read Value) (.start body .complete)
        = match finish c with
          | .ok _ c' => .ok v c'
          | .error e c' => .error e c' := by
    refine bind_eq_of_ok h ?_
    show EStateM.bind finish (fun _ => pure v) c = _
    unfold EStateM.bind
    cases finish c <;> rfl
  unfold parseBody readWhole run
  rw [hrun]
  cases finish c <;> rfl

/-- Blanks behind blanks are the end of a body. -/
theorem finish_goOn_blanks (hc : c.ending = .complete) (w : Blanks) (hrest : c.rest = w.bytes)
    (hs : ∀ b ∈ s, isBlank b = true) : ∃ c', finish (c.goOn s) = .ok () c' := by
  have hat : (c.goOn s).At (w.append ⟨s, hs⟩).bytes := ⟨congrArg (· ++ s) hrest, hc⟩
  obtain ⟨c', hfinish, -⟩ := meets_finish hat
  exact ⟨c', hfinish⟩

/-- Behind blanks, the first byte that is none is a trailing one. -/
theorem finish_goOn_other (w : Blanks) (hrest : c.rest = w.bytes)
    (hs : ∃ b ∈ s, isBlank b = false) :
    ∃ c', finish (c.goOn s) = .error ⟨.trailingCharacters,
      some (c.offset + c.rest.length + (s.takeWhile isBlank).length + 1), []⟩ c' := by
  have hother : s.dropWhile isBlank ≠ [] := by
    rw [Ne, List.dropWhile_eq_nil_iff]
    intro hall
    obtain ⟨b, hb, hblank⟩ := hs
    rw [hall b hb] at hblank
    cases hblank
  obtain ⟨b, rest, hdrop⟩ := List.exists_cons_of_ne_nil hother
  have hb : isBlank b = false := by
    have hhead := List.head_dropWhile_not isBlank hother
    simpa [hdrop] using hhead
  -- The blanks of the body and those behind it are passed over together.
  let u : Blanks := w.append ⟨s.takeWhile isBlank, fun d hd => List.mem_takeWhile_imp hd⟩
  have hbytes : (c.goOn s).rest = u.bytes ++ b :: rest := by
    show c.rest ++ s = (w.bytes ++ s.takeWhile isBlank) ++ b :: rest
    rw [hrest, ← hdrop, List.append_assoc, List.takeWhile_append_dropWhile]
  have hskip : (c.goOn s).skipBlanks = ⟨b :: rest, c.offset + u.bytes.length, c.ending⟩ := by
    rw [Cursor.skipBlanks, hbytes, skipBlanks_go, Cursor.skipBlanks.go, hb]
    rfl
  have hlook : look (c.goOn s) = .ok (some b) ⟨b :: rest, c.offset + u.bytes.length, c.ending⟩ := by
    show peek (c.goOn s).skipBlanks = _
    rw [hskip]
    rfl
  have hlength : u.bytes.length = c.rest.length + (s.takeWhile isBlank).length := by
    rw [hrest]
    exact List.length_append
  refine ⟨⟨b :: rest, c.offset + u.bytes.length, c.ending⟩, bind_eq_of_ok hlook ?_⟩
  show EStateM.Result.error
    (⟨.trailingCharacters, some (c.offset + u.bytes.length + 1), []⟩ : Error) _ = _
  rw [hlength, ← Nat.add_assoc]

end Bodies

/-- **Reading a body ends with its value.**  Whatever layout a body is accepted as, unless its value
is a bare number: with blanks behind it, it is accepted with the same value; with anything else
behind it, it is refused for trailing characters, where the first byte stands that is no blank. -/
theorem reading_ends_with_the_value (schema : Schema τ) (layout : Layout τ) (body s : List UInt8)
    (v : Value) (h : parseBody schema layout body = .ok v) (hv : ¬ v.IsNumber) :
    ((∀ b ∈ s, isBlank b = true) → parseBody schema layout (body ++ s) = .ok v)
    ∧ ((∃ b ∈ s, isBlank b = false) → parseBody schema layout (body ++ s)
        = .error (.ofMalformed (Error.message (body ++ s) ⟨.trailingCharacters,
            some (body.length + (s.takeWhile isBlank).length + 1), []⟩))) := by
  obtain ⟨c, c', hread, hfinish⟩ := exists_of_parseBody_ok h
  -- The longer body is read up to the same place.
  have hbound : body.length ≤ (body ++ s).length := by
    rw [List.length_append]
    exact Nat.le_add_right _ _
  have hlonger : readAt schema ⟨(body ++ s).length, true⟩ depthLimit layout
      (.start (body ++ s) .complete) = .ok v (c.goOn s) :=
    settles_readAt hbound depthLimit layout _ _ _ hread hv
  obtain ⟨taken, hrest, hoffset, hending⟩ :=
    (compares_readAt (longer s hbound) schema depthLimit layout _ _ _ hread).1
  have hplace : c.offset + c.rest.length = body.length := by
    have hlength := congrArg List.length hrest
    rw [List.length_append] at hlength
    rw [hoffset]
    show 0 + taken.length + c.rest.length = body.length
    rw [Nat.zero_add]
    exact hlength.symm
  -- Of the body blanks are left, so that the first other byte behind it decides.
  obtain ⟨w, hw⟩ := finish_ok hfinish
  rw [parseBody_of_read hlonger]
  constructor
  · intro hs
    obtain ⟨c₁, hend⟩ := finish_goOn_blanks hending w hw hs
    rw [hend]
  · intro hs
    obtain ⟨c₁, hend⟩ := finish_goOn_other w hw hs
    rw [hend, hplace]
    rfl

/-- A list of two numbers. -/
def twoNumbers : List UInt8 := "[1, 2]".toUTF8.toList

theorem reading_ends_with_the_value_two_numbers :
    ∃ v, parseBody Sample.schema (Sample.schema .numbers) twoNumbers = .ok v ∧ ¬ v.IsNumber
      ∧ parseBody Sample.schema (Sample.schema .numbers) (twoNumbers ++ [0x20, 0x0a]) = .ok v
      ∧ parseBody Sample.schema (Sample.schema .numbers) (twoNumbers ++ [0x20, 0x0a, 0x5d])
        = .error (.ofMalformed "trailing characters at line 2 column 1") := by
  have hread : (match parseBody Sample.schema (Sample.schema .numbers) twoNumbers with
      | .ok v => decide (¬ v.IsNumber)
      | .error _ => false) = true := by decide +kernel
  cases hresult : parseBody Sample.schema (Sample.schema .numbers) twoNumbers with
  | error e =>
      rw [hresult] at hread
      cases hread
  | ok v =>
      rw [hresult] at hread
      have hother : ¬ v.IsNumber := of_decide_eq_true hread
      have hends := fun s => reading_ends_with_the_value Sample.schema (Sample.schema .numbers)
        twoNumbers s v hresult hother
      have hmessage : Error.message (twoNumbers ++ [0x20, 0x0a, 0x5d]) ⟨.trailingCharacters,
          some (twoNumbers.length + ([0x20, 0x0a, 0x5d].takeWhile isBlank).length + 1), []⟩
            = "trailing characters at line 2 column 1" := by decide +kernel
      refine ⟨v, rfl, hother, (hends _).1 (List.all_eq_true.mp rfl), ?_⟩
      rw [(hends _).2 ⟨0x5d, by decide, rfl⟩, hmessage]

end ErrorContract.Json
