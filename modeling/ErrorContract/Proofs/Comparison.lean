/-
  ErrorContract.Proofs.Comparison
  ───────────────────────────────
  **TWO READERS COMPARED, PIECE BY PIECE.**

  Two runs of the reader of a layout differ in what they are told or in the
  body that they are given.  A `Comparison` is a relation between readers
  that is kept where readers are put together and that holds of the few
  readers that touch a body themselves.  It then holds of every reader.

  The lemmas follow the reader.  Main statement `compares_readAt`: the
  readers of any layout compare, at any depth.
-/
import ErrorContract.Json.Body

namespace ErrorContract.Json

open ErrorContract

/-! ## §1. Comparisons. -/

/-- **A relation between readers that goes through the readers that are made of others.** -/
structure Comparison where
  /-- What the first reader is told. -/
  first : Context
  /-- What the second reader is told. -/
  second : Context
  Holds : ∀ {α : Type}, Read α → Read α → Prop
  pure : ∀ {α : Type} (a : α), Holds (Pure.pure a) (Pure.pure a)
  bind : ∀ {α β : Type} {read read' : Read α} {next next' : α → Read β},
    Holds read read' → (∀ a, Holds (next a) (next' a)) → Holds (read >>= next) (read' >>= next')
  fixing : ∀ {α : Type} {read read' : Read α},
    Holds read read' → Holds (Json.fixing read) (Json.fixing read')
  step : ∀ {α : Type} {read read' : Read α} (s : Option PathSegment),
    Holds read read' → Holds (first.step s read) (second.step s read')
  bracketed : ∀ {α : Type} {close close' : Read Unit} {inside inside' : Read α},
    Holds close close' → Holds inside inside' →
      Holds (Json.bracketed close inside) (Json.bracketed close' inside')
  /-- Readers that fail alike, wherever they find the fault. -/
  failing : ∀ {α : Type} {fault : Fault} (place : Cursor → Option Nat), fault.kind ≠ .brokenOff →
    Holds (fun c => .error ⟨fault, place c, []⟩ c : Read α) (fun c => .error ⟨fault, place c, []⟩ c)
  peek : Holds Json.peek Json.peek
  advance : Holds Json.advance Json.advance
  look : Holds Json.look Json.look
  digitRun : Holds Json.digitRun Json.digitRun
  string : Holds Json.string Json.string
  skipString : Holds Json.skipString Json.skipString
  /-- The loops of both go round equally often, or the first may stop earlier. -/
  rounds : first.bound = second.bound ∨ first.bound ≤ second.bound
    ∧ ∀ {α : Type} (fault : Fault) (read : Read α), Holds (failNext fault) read

namespace Comparison

/-- The second reader has as many rounds left as the first, or more if that may stop earlier. -/
def Rounds (K : Comparison) (n n' : Nat) : Prop :=
  n = n' ∨ n ≤ n' ∧ ∀ {α : Type} (fault : Fault) (read : Read α), K.Holds (failNext fault) read

end Comparison

section Compares

variable (K : Comparison)

theorem compares_ite {p : Prop} [Decidable p] {α : Type} {yes yes' no no' : Read α}
    (hyes : K.Holds yes yes') (hno : K.Holds no no') :
    K.Holds (if p then yes else no) (if p then yes' else no') := by
  by_cases hp : p
  · rw [if_pos hp, if_pos hp]
    exact hyes
  · rw [if_neg hp, if_neg hp]
    exact hno

theorem compares_fail {α : Type} {fault : Fault} (h : fault.kind ≠ .brokenOff) :
    K.Holds (fail fault : Read α) (fail fault) := K.failing (fun c => some c.offset) h

theorem compares_failNext {α : Type} {fault : Fault} (h : fault.kind ≠ .brokenOff) :
    K.Holds (failNext fault : Read α) (failNext fault) :=
  K.failing (fun c => some (if c.rest.isEmpty then c.offset else c.offset + 1)) h

theorem compares_mismatch {α : Type} (m : Mismatch) :
    K.Holds (mismatch m : Read α) (mismatch m) := K.failing (fun _ => none) nofun

/-- A place that is worked out from where the reader stands. -/
theorem compares_failFrom {α : Type} {fault : Fault} (place : Cursor → Nat)
    (h : fault.kind ≠ .brokenOff) :
    K.Holds (get >>= fun c => failAt (place c) fault : Read α)
      (get >>= fun c => failAt (place c) fault) := K.failing (fun c => some (place c)) h

variable {K}

theorem Comparison.Rounds.pred {n n' : Nat} (h : K.Rounds (n + 1) n') :
    ∃ m, n' = m + 1 ∧ K.Rounds n m := by
  rcases h with rfl | ⟨hle, hfail⟩
  · exact ⟨n, rfl, .inl rfl⟩
  · obtain ⟨m, rfl⟩ := Nat.exists_eq_add_one.mpr (Nat.lt_of_lt_of_le n.succ_pos hle)
    exact ⟨m, rfl, .inr ⟨Nat.le_of_succ_le_succ hle, hfail⟩⟩

/-- A first reader that has no rounds left has failed, and so has the second, unless it has more. -/
theorem Comparison.Rounds.zero {α : Type} {n : Nat} (h : K.Rounds 0 n) (fault : Fault)
    (hfault : fault.kind ≠ .brokenOff) (second : Nat → Read α)
    (hsecond : second 0 = failNext fault) : K.Holds (failNext fault) (second n) := by
  rcases h with rfl | ⟨-, hfail⟩
  · rw [hsecond]
    exact compares_failNext K hfault
  · exact hfail fault _

variable (K)

theorem Comparison.rounds_bound : K.Rounds (K.first.bound + 1) (K.second.bound + 1) := by
  rcases K.rounds with h | ⟨hle, hfail⟩
  · exact .inl (by rw [h])
  · exact .inr ⟨Nat.succ_le_succ hle, hfail⟩

theorem Comparison.rounds_steps : K.Rounds (2 * K.first.bound + 2) (2 * K.second.bound + 2) := by
  rcases K.rounds with h | ⟨hle, hfail⟩
  · exact .inl (by rw [h])
  · exact .inr ⟨by omega, hfail⟩

/-! ## §2. Bytes and numbers. -/

theorem compares_next : K.Holds next next :=
  K.bind K.peek fun o => K.bind K.advance fun _ => K.pure o

theorem compares_literal (word : List UInt8) : K.Holds (literal word) (literal word) := by
  induction word with
  | nil => exact K.pure ()
  | cons b word ih =>
      unfold literal
      refine K.bind (compares_next K) fun o => ?_
      cases o with
      | none => exact compares_fail K nofun
      | some a => exact compares_ite K ih (compares_fail K nofun)

/-- A word, and what it stands for. -/
theorem compares_word {α : Type} (word : List UInt8) (a : α) :
    K.Holds (advance >>= fun _ => literal word >>= fun _ => Pure.pure a)
      (advance >>= fun _ => literal word >>= fun _ => Pure.pure a) :=
  K.bind K.advance fun _ => K.bind (compares_literal K word) fun _ => K.pure a

theorem compares_colon : K.Holds colon colon := by
  refine K.bind K.look fun o => ?_
  split
  · exact K.advance
  · exact compares_failNext K nofun
  · exact compares_failNext K nofun

theorem compares_floating (positive : Bool) (significand : Nat) (power : Int) :
    K.Holds (floating positive significand power) (floating positive significand power) := by
  unfold floating
  cases combine significand power with
  | some x => exact K.pure _
  | none => exact compares_failFrom K _ nofun

theorem compares_exponentDigits (positive negative : Bool) (significand : Nat) (power : Int) :
    K.Holds (exponentDigits positive negative significand power)
      (exponentDigits positive negative significand power) := by
  refine K.bind (compares_next K) fun o => ?_
  cases o with
  | none => exact compares_fail K nofun
  | some d =>
      refine compares_ite K (compares_fail K nofun) (K.bind K.digitRun fun ds => ?_)
      dsimp only
      refine compares_ite K (K.bind K.peek fun _ => compares_floating K _ _ _)
        (compares_ite K ?_ ?_)
      · exact compares_failFrom K _ nofun
      · exact K.bind K.peek fun _ => K.pure _

theorem compares_exponent (positive : Bool) (significand : Nat) (power : Int) :
    K.Holds (exponent positive significand power) (exponent positive significand power) := by
  refine K.bind K.advance fun _ => K.bind K.peek fun o => K.bind K.peek fun o' => ?_
  exact compares_ite K (K.bind K.advance fun _ => compares_exponentDigits K _ _ _ _)
    (compares_exponentDigits K _ _ _ _)

theorem compares_fraction (positive : Bool) (significand : Nat) (power : Int) :
    K.Holds (fraction positive significand power) (fraction positive significand power) := by
  refine K.bind K.advance fun _ => K.bind K.digitRun fun ds => compares_ite K ?_ ?_
  · refine K.bind K.peek fun o => ?_
    cases o <;> exact compares_failNext K nofun
  · refine K.bind K.peek fun o => ?_
    split
    · exact compares_exponent K _ _ _
    · exact compares_exponent K _ _ _
    · exact compares_floating K _ _ _

theorem compares_behindWhole (positive : Bool) (significand : Nat) (excess : List UInt8) :
    K.Holds (behindWhole positive significand excess)
      (behindWhole positive significand excess) := by
  refine K.bind K.peek fun o => ?_
  split
  · exact compares_fraction K _ _ _
  · exact compares_exponent K _ _ _
  · exact compares_exponent K _ _ _
  · exact compares_ite K (K.pure _) (compares_floating K _ _ _)

theorem compares_number (positive : Bool) : K.Holds (number positive) (number positive) := by
  refine K.bind (compares_next K) fun o => ?_
  split
  · exact compares_fail K nofun
  · exact K.bind K.peek fun o =>
      compares_ite K (compares_failNext K nofun) (compares_behindWhole K _ _ _)
  · exact compares_ite K (compares_fail K nofun)
      (K.bind K.digitRun fun ds => compares_behindWhole K _ _ _)

/-! ## §3. Values that are skipped. -/

theorem compares_skipExponentDigits : K.Holds skipExponentDigits skipExponentDigits := by
  refine K.bind (compares_next K) fun o => ?_
  cases o with
  | none => exact compares_fail K nofun
  | some d => exact compares_ite K (K.bind K.digitRun fun _ => K.pure _) (compares_fail K nofun)

theorem compares_skipExponent : K.Holds skipExponent skipExponent := by
  refine K.bind K.advance fun _ => K.bind K.peek fun o => ?_
  exact compares_ite K (K.bind K.advance fun _ => compares_skipExponentDigits K)
    (compares_skipExponentDigits K)

theorem compares_skipNumberTail : K.Holds skipNumberTail skipNumberTail := by
  refine K.bind K.peek fun o => ?_
  split
  · refine K.bind K.advance fun _ => K.bind K.digitRun fun ds =>
      compares_ite K (compares_failNext K nofun) (K.bind K.peek fun o => ?_)
    split
    · exact compares_skipExponent K
    · exact compares_skipExponent K
    · exact K.pure _
  · exact compares_skipExponent K
  · exact compares_skipExponent K
  · exact K.pure _

theorem compares_skipNumber : K.Holds skipNumber skipNumber := by
  refine K.bind (compares_next K) fun o => ?_
  split
  · exact compares_fail K nofun
  · refine K.bind K.peek fun o => ?_
    cases o with
    | none => exact K.pure _
    | some d => exact compares_ite K (compares_failNext K nofun) (compares_skipNumberTail K)
  · exact compares_ite K (K.bind K.digitRun fun _ => compares_skipNumberTail K)
      (compares_fail K nofun)

theorem Bracket.compares_skipName (b : Bracket) : K.Holds b.skipName b.skipName := by
  cases b with
  | list => exact K.pure _
  | object =>
      refine K.bind K.look fun o => ?_
      split
      · exact K.bind K.advance fun _ => K.bind K.skipString fun _ => compares_colon K
      · exact compares_failNext K nofun
      · exact compares_failNext K nofun

theorem compares_skipLeaf : K.Holds skipLeaf skipLeaf := by
  refine K.bind K.look fun o => ?_
  split
  · exact compares_failNext K nofun
  · exact compares_word K _ _
  · exact compares_word K _ _
  · exact compares_word K _ _
  · exact K.bind K.advance fun _ => K.bind (compares_skipNumber K) fun _ => K.pure _
  · exact K.bind K.advance fun _ => K.bind K.skipString fun _ => K.pure _
  · exact K.bind K.advance fun _ => K.pure _
  · exact K.bind K.advance fun _ => K.pure _
  · exact compares_ite K (K.bind (compares_skipNumber K) fun _ => K.pure _)
      (compares_failNext K nofun)

theorem compares_skipSteps {steps steps' : Nat} (hsteps : K.Rounds steps steps')
    (stage : SkipStage) (outer : List Bracket) :
    K.Holds (skipSteps steps stage outer) (skipSteps steps' stage outer) := by
  -- The induction is on the first reader's rounds: the second has as many, or the first may stop.
  induction steps generalizing steps' stage outer with
  | zero => exact hsteps.zero .endInValue nofun (fun n => skipSteps n stage outer) rfl
  | succ steps ih =>
      obtain ⟨left, rfl, hleft⟩ := hsteps.pred
      cases stage with
      | value =>
          refine K.bind (compares_skipLeaf K) fun o => ?_
          split
          · exact ih hleft _ _
          · exact K.pure _
          · exact ih hleft _ _
      | inside bracket begun =>
          refine K.bind K.look fun o => ?_
          cases o with
          | none => cases bracket <;> exact compares_failNext K nofun
          | some b =>
              have hvalue := K.bind (bracket.compares_skipName K) fun _ =>
                ih hleft .value (bracket :: outer)
              refine compares_ite K (K.bind K.advance fun _ => ?_)
                (compares_ite K (compares_ite K (K.bind K.advance fun _ => hvalue) ?_) hvalue)
              · cases outer with
                | nil => exact K.pure _
                | cons bracket outer => exact ih hleft _ _
              · cases bracket <;> exact compares_failNext K nofun

theorem compares_skipValue : K.Holds (skipValue K.first.bound) (skipValue K.second.bound) :=
  compares_skipSteps K K.rounds_steps _ _

/-! ## §4. Separators and values without brackets. -/

theorem compares_closeList : K.Holds closeList closeList := by
  refine K.bind K.look fun o => ?_
  split
  · exact K.advance
  · refine K.bind K.advance fun _ => K.bind K.look fun o => ?_
    split <;> exact compares_failNext K nofun
  · exact compares_failNext K nofun
  · exact compares_failNext K nofun

theorem compares_closeObject : K.Holds closeObject closeObject := by
  refine K.bind K.look fun o => ?_
  split
  · exact K.advance
  · exact compares_failNext K nofun
  · exact compares_failNext K nofun
  · exact compares_failNext K nofun

theorem compares_hasItem (first : Bool) : K.Holds (hasItem first) (hasItem first) := by
  refine K.bind K.look fun o => ?_
  split
  · exact compares_failNext K nofun
  · exact K.pure _
  · refine compares_ite K (K.pure _) (compares_ite K ?_ (compares_failNext K nofun))
    refine K.bind K.advance fun _ => K.bind K.look fun o => ?_
    split
    · exact compares_failNext K nofun
    · exact compares_failNext K nofun
    · exact K.pure _

theorem compares_hasMember (first : Bool) : K.Holds (hasMember first) (hasMember first) := by
  refine K.bind K.look fun o => ?_
  split
  · exact compares_failNext K nofun
  · exact K.pure _
  · refine compares_ite K (compares_ite K (K.pure _) (compares_failNext K nofun))
      (compares_ite K ?_ (compares_failNext K nofun))
    refine K.bind K.advance fun _ => K.bind K.look fun o => ?_
    split
    · exact compares_failNext K nofun
    · exact K.pure _
    · exact compares_failNext K nofun
    · exact compares_failNext K nofun

theorem compares_memberName (first : Bool) :
    K.Holds (memberName K.first first) (memberName K.second first) := by
  refine K.step none (K.bind (compares_hasMember K first) fun more =>
    compares_ite K ?_ (K.pure _))
  exact K.bind K.advance fun _ => K.bind K.string fun name => K.pure _

theorem compares_leaf (b : UInt8) : K.Holds (leaf b) (leaf b) := by
  unfold leaf
  split
  · exact compares_word K _ _
  · exact compares_word K _ _
  · exact compares_word K _ _
  · exact K.bind K.advance fun _ => K.bind K.string fun _ => K.pure _
  · exact K.bind K.advance fun _ => compares_number K _
  · exact compares_ite K (compares_number K _) (compares_failNext K nofun)

theorem compares_wrongKind {α : Type} (expected : String) (b : UInt8) :
    K.Holds (wrongKind expected b : Read α) (wrongKind expected b) := by
  refine K.fixing ?_
  split
  · exact compares_mismatch K _
  · exact compares_mismatch K _
  · exact K.bind (compares_leaf K b) fun v => compares_mismatch K _

theorem compares_firstByte : K.Holds firstByte firstByte := by
  refine K.bind K.look fun o => ?_
  cases o with
  | none => exact compares_failNext K nofun
  | some b => exact K.pure b

theorem compares_readText (expected : String) :
    K.Holds (readText expected) (readText expected) := by
  refine K.bind (compares_firstByte K) fun b => ?_
  split
  · exact K.bind K.advance fun _ => K.string
  · exact compares_wrongKind K expected b

theorem compares_readUnit : K.Holds readUnit readUnit := by
  refine K.bind (compares_firstByte K) fun b => ?_
  split
  · exact compares_word K _ _
  · exact compares_wrongKind K "unit" b

theorem compares_readTruth : K.Holds readTruth readTruth := by
  refine K.bind (compares_firstByte K) fun b => ?_
  split
  · exact compares_word K _ _
  · exact compares_word K _ _
  · exact compares_wrongKind K "a boolean" b

theorem compares_fitInteger (kind : IntegerKind) (v : Value) :
    K.Holds (fitInteger kind v) (fitInteger kind v) := by
  unfold fitInteger
  split
  · split
    · exact K.pure _
    · exact compares_mismatch K _
  · exact compares_mismatch K _

theorem compares_readInteger (kind : IntegerKind) :
    K.Holds (readInteger kind) (readInteger kind) := by
  refine K.bind (compares_firstByte K) fun b =>
    compares_ite K (K.fixing ?_) (compares_ite K (K.fixing ?_) ?_)
  · exact K.bind K.advance fun _ => K.bind (compares_number K _) fun v =>
      compares_fitInteger K kind v
  · exact K.bind (compares_number K _) fun v => compares_fitInteger K kind v
  · exact compares_wrongKind K kind.name b

theorem compares_complete (read : List (String × Value)) (fields : List (Field τ)) :
    K.Holds (complete read fields) (complete read fields) := by
  induction fields with
  | nil => exact K.pure _
  | cons field fields ih =>
      have hrest : ∀ v : Value,
          K.Holds (complete read fields >>= fun rest => Pure.pure ((field.name, v) :: rest))
            (complete read fields >>= fun rest => Pure.pure ((field.name, v) :: rest)) :=
        fun v => K.bind ih fun rest => K.pure _
      unfold complete
      split
      · exact hrest _
      · exact K.bind (compares_mismatch K _) hrest
      · exact hrest _
      · exact hrest _
      · exact hrest _

theorem compares_variantName (names : List String) :
    K.Holds (variantName names) (variantName names) := by
  refine K.bind (compares_firstByte K) fun b => ?_
  split
  · refine K.fixing (K.bind K.advance fun _ => K.bind K.string fun name => compares_ite K ?_ ?_)
    · exact K.pure _
    · exact compares_mismatch K _
  · exact compares_wrongKind K "variant identifier" b

theorem compares_named (variants : List (Variant τ)) :
    K.Holds (readChoice.named variants) (readChoice.named variants) := by
  refine K.bind (compares_variantName K _) fun name => ?_
  split
  · exact K.pure _
  · exact compares_mismatch K _

theorem compares_bareVariant (variant : Variant τ) :
    K.Holds (bareVariant K.first variant) (bareVariant K.second variant) := by
  unfold bareVariant
  split
  · exact K.pure _
  · exact K.step _ (compares_mismatch K _)
  · exact K.step _ (compares_mismatch K _)
  · exact K.step _ (compares_mismatch K _)

theorem compares_numericName (kind : IntegerKind) :
    K.Holds (numericName K.first kind) (numericName K.second kind) := by
  unfold numericName
  refine K.bind (K.step none (K.bind K.advance fun _ => K.bind K.peek fun o => ?_)) fun v => ?_
  · split
    · exact K.bind K.advance fun _ => compares_number K false
    · exact compares_ite K (compares_number K true) (compares_fail K nofun)
    · exact compares_fail K nofun
  · cases v with
    | int i =>
        refine K.step _ (K.bind (K.fixing (compares_fitInteger K kind _)) fun i => ?_)
        refine K.bind K.peek fun o => ?_
        split
        · exact K.bind K.advance fun _ => K.pure _
        · exact compares_failNext K nofun
    | _ => exact K.step none (K.fixing (compares_fitInteger K kind _))

/-! ## §5. What stands between brackets. -/

section Loops

variable {schema : Schema τ} {rounds rounds' : Nat}

theorem compares_items {read read' : Read Value} (h : K.Holds read read')
    (hrounds : K.Rounds rounds rounds') (position : Nat) (before : List Value) :
    K.Holds (items K.first read rounds position before)
      (items K.second read' rounds' position before) := by
  induction rounds generalizing rounds' position before with
  | zero =>
      exact hrounds.zero .endInList nofun (fun n => items K.second read' n position before) rfl
  | succ rounds ih =>
      obtain ⟨left, rfl, hleft⟩ := hrounds.pred
      refine K.bind (compares_hasItem K _) fun more => compares_ite K ?_ (K.pure _)
      exact K.bind (K.step _ h) fun v => ih hleft _ _

theorem compares_readField {read read' : Layout τ → Read Value}
    (h : ∀ layout, K.Holds (read layout) (read' layout)) (field : Field τ) :
    K.Holds (readField schema read field) (readField schema read' field) := by
  unfold readField
  split
  case h_3 => exact h _
  -- a field that may be null
  all_goals
    refine K.bind K.look fun o => ?_
    split
    · exact compares_word K _ _
    · exact h _

theorem compares_positional {read read' : Layout τ → Read Value}
    (h : ∀ layout, K.Holds (read layout) (read' layout)) (title : String) (position : Nat)
    (fields : List (Field τ)) :
    K.Holds (positional schema K.first read title position fields)
      (positional schema K.second read' title position fields) := by
  induction fields generalizing position with
  | nil => exact K.pure _
  | cons field fields ih =>
      -- Whatever stands for the field, the others follow.
      have hrest : ∀ v : Value,
          K.Holds (positional schema K.first read title (position + 1) fields
              >>= fun rest => Pure.pure ((field.name, v) :: rest))
            (positional schema K.second read' title (position + 1) fields
              >>= fun rest => Pure.pure ((field.name, v) :: rest)) :=
        fun v => K.bind (ih _) fun rest => K.pure _
      refine K.bind (compares_hasItem K _) fun more => compares_ite K ?_ ?_
      · exact K.bind (K.step _ (compares_readField K h field)) hrest
      · split
        · exact hrest _
        · exact hrest _
        · exact K.bind (compares_mismatch K _) hrest

theorem compares_namedFields {read read' : Layout τ → Read Value}
    (h : ∀ layout, K.Holds (read layout) (read' layout)) (fields : List (Field τ))
    (closed : Bool) (hrounds : K.Rounds rounds rounds') (first : Bool)
    (before : List (String × Value)) :
    K.Holds (namedFields schema K.first read fields closed rounds first before)
      (namedFields schema K.second read' fields closed rounds' first before) := by
  induction rounds generalizing rounds' first before with
  | zero =>
      exact hrounds.zero .endInObject nofun
        (fun n => namedFields schema K.second read' fields closed n first before) rfl
  | succ rounds ih =>
      obtain ⟨left, rfl, hleft⟩ := hrounds.pred
      refine K.bind (compares_memberName K first) fun o => ?_
      cases o with
      | none => exact K.pure _
      | some name =>
          dsimp only
          split
          · next field _ =>
              -- a field: its value, and what follows it
              have hfield : K.Holds (readField schema read field) (readField schema read' field) :=
                compares_readField K h field
              have hvalue := K.bind (compares_colon K) fun _ =>
                K.bind (K.step (some (.field name)) hfield)
                  fun v => ih hleft false ((name, v) :: before)
              exact compares_ite K (K.bind (compares_mismatch K _) fun _ => hvalue) hvalue
          · -- no field: it is refused or skipped
            have hskipped := K.bind (compares_colon K) fun _ =>
              K.bind (K.step (some (.field name)) (compares_skipValue K)) fun _ =>
                ih hleft false before
            exact compares_ite K (K.bind (K.step _ (compares_mismatch K _)) fun _ => hskipped)
              hskipped

theorem compares_fixedItems {read read' : Layout τ → Read Value}
    (h : ∀ layout, K.Holds (read layout) (read' layout)) (title : String) (position : Nat)
    (types : List τ) :
    K.Holds (fixedItems schema K.first read title position types)
      (fixedItems schema K.second read' title position types) := by
  induction types generalizing position with
  | nil => exact K.pure _
  | cons type types ih =>
      refine K.bind (compares_hasItem K _) fun more => compares_ite K ?_ (compares_mismatch K _)
      exact K.bind (K.step _ (h _)) fun v => K.bind (ih _) fun rest => K.pure _

theorem compares_freeMembers {read read' : Read Value} (h : K.Holds read read')
    (hrounds : K.Rounds rounds rounds') (first : Bool) (before : List (String × Value)) :
    K.Holds (freeMembers K.first read rounds first before)
      (freeMembers K.second read' rounds' first before) := by
  induction rounds generalizing rounds' first before with
  | zero =>
      exact hrounds.zero .endInObject nofun (fun n => freeMembers K.second read' n first before) rfl
  | succ rounds ih =>
      obtain ⟨left, rfl, hleft⟩ := hrounds.pred
      refine K.bind (compares_memberName K first) fun o => ?_
      cases o with
      | none => exact K.pure _
      | some name =>
          exact K.bind (compares_colon K) fun _ => K.bind (K.step _ h) fun v => ih hleft _ _

theorem compares_numberedMembers {read read' : Read Value} (h : K.Holds read read')
    (kind : IntegerKind) (hrounds : K.Rounds rounds rounds') (first : Bool)
    (before : List (Int × Value)) :
    K.Holds (numberedMembers K.first kind read rounds first before)
      (numberedMembers K.second kind read' rounds' first before) := by
  induction rounds generalizing rounds' first before with
  | zero =>
      exact hrounds.zero .endInObject nofun
        (fun n => numberedMembers K.second kind read' n first before) rfl
  | succ rounds ih =>
      obtain ⟨left, rfl, hleft⟩ := hrounds.pred
      refine K.bind (K.step none (compares_hasMember K first)) fun more =>
        compares_ite K ?_ (K.pure _)
      exact K.bind (compares_numericName K kind) fun i => K.bind (compares_colon K) fun _ =>
        K.bind (K.step _ h) fun v => ih hleft _ _

theorem compares_taggedMembers {read read' : Read Value} (h : K.Holds read read') (tag : String)
    (names : List String) (hrounds : K.Rounds rounds rounds') (first : Bool)
    (variant : Option String) (before : List (String × Value)) :
    K.Holds (taggedMembers K.first read tag names rounds first variant before)
      (taggedMembers K.second read' tag names rounds' first variant before) := by
  induction rounds generalizing rounds' first variant before with
  | zero =>
      exact hrounds.zero .endInObject nofun
        (fun n => taggedMembers K.second read' tag names n first variant before) rfl
  | succ rounds ih =>
      obtain ⟨left, rfl, hleft⟩ := hrounds.pred
      refine K.bind (compares_memberName K first) fun o => ?_
      cases o with
      | none =>
          cases variant with
          | none => exact compares_mismatch K _
          | some name => exact K.pure _
      | some name =>
          refine compares_ite K ?_ ?_
          · have hvariant := K.bind (compares_colon K) fun _ =>
              K.bind (K.step (some (.field name)) (compares_variantName K names)) fun name =>
                ih hleft false (some name) before
            exact compares_ite K (K.bind (compares_mismatch K _) fun _ => hvariant) hvariant
          · exact K.bind (compares_colon K) fun _ => K.bind (K.step _ h) fun v =>
              ih hleft _ _ _

end Loops

/-! ## §6. Every layout. -/

section Layouts

variable {schema : Schema τ} {inner inner' : Inner τ}

/-- The readers of the values inside brackets compare, if any may be opened. -/
inductive Comparison.Inside (K : Comparison) : Inner τ → Inner τ → Prop where
  | none : Comparison.Inside K none none
  | some {read read' : Layout τ → Read Value}
      (h : ∀ layout, K.Holds (read layout) (read' layout)) :
      Comparison.Inside K (some read) (some read')

variable {K}

theorem compares_opening {α : Type} (hinner : K.Inside inner inner')
    {read read' : (Layout τ → Read Value) → Read α}
    (h : ∀ inside inside', (∀ layout, K.Holds (inside layout) (inside' layout)) →
      K.Holds (read inside) (read' inside')) :
    K.Holds (opening inner read) (opening inner' read') := by
  cases hinner with
  | none => exact compares_failNext K nofun
  | some hinside => exact h _ _ hinside

theorem compares_readRecord (hinner : K.Inside inner inner') (title : String)
    (fields : List (Field τ)) (closed : Bool) :
    K.Holds (readRecord schema K.first inner title fields closed)
      (readRecord schema K.second inner' title fields closed) := by
  refine K.bind (compares_firstByte K) fun b => ?_
  split
  · refine compares_opening hinner fun read read' h => K.bracketed (compares_closeList K) ?_
    exact K.bind (compares_positional K h _ _ _) fun members => K.pure _
  · refine compares_opening hinner fun read read' h => K.bracketed (compares_closeObject K) ?_
    exact K.bind (compares_namedFields K h _ _ K.rounds_bound _ _) fun members =>
      K.bind (compares_complete K members fields) fun read => K.pure _
  · exact compares_wrongKind K title b

theorem compares_readTuple (hinner : K.Inside inner inner') (title whole : String)
    (types : List τ) :
    K.Holds (readTuple schema K.first inner title whole types)
      (readTuple schema K.second inner' title whole types) := by
  refine K.bind (compares_firstByte K) fun b => ?_
  split
  · refine compares_opening hinner fun read read' h => K.bracketed (compares_closeList K) ?_
    exact K.bind (compares_fixedItems K h _ _ _) fun vs => K.pure _
  · exact compares_wrongKind K title b

theorem compares_readList (hinner : K.Inside inner inner') (element : Layout τ) :
    K.Holds (readList K.first inner element) (readList K.second inner' element) := by
  refine K.bind (compares_firstByte K) fun b => ?_
  split
  · refine compares_opening hinner fun read read' h => K.bracketed (compares_closeList K) ?_
    exact K.bind (compares_items K (h element) K.rounds_bound _ _) fun vs => K.pure _
  · exact compares_wrongKind K "a sequence" b

theorem compares_readFree (hinner : K.Inside inner inner') (layout : Layout τ)
    (finished : List (String × Value) → List (String × Value)) :
    K.Holds (readFree K.first inner layout finished)
      (readFree K.second inner' layout finished) := by
  refine K.bind (compares_firstByte K) fun b => ?_
  split
  · refine compares_opening hinner fun read read' h => K.bracketed (compares_closeList K) ?_
    exact K.bind (compares_items K (h layout) K.rounds_bound _ _) fun vs => K.pure _
  · refine compares_opening hinner fun read read' h => K.bracketed (compares_closeObject K) ?_
    exact K.bind (compares_freeMembers K (h layout) K.rounds_bound _ _) fun members => K.pure _
  · exact compares_leaf K b

theorem compares_readTable (hinner : K.Inside inner inner') (key : Key) (element : Layout τ) :
    K.Holds (readTable K.first inner key element) (readTable K.second inner' key element) := by
  refine K.bind (compares_firstByte K) fun b => ?_
  split
  · refine compares_opening hinner fun read read' h => K.bracketed (compares_closeObject K) ?_
    cases key with
    | text =>
        exact K.bind (compares_freeMembers K (h element) K.rounds_bound _ _) fun members =>
          K.pure _
    | number kind =>
        exact K.bind (compares_numberedMembers K (h element) kind K.rounds_bound _ _) fun entries =>
          K.pure _
  · exact compares_wrongKind K "a map" b

theorem compares_readChoice (hinner : K.Inside inner inner') (variants : List (Variant τ)) :
    K.Holds (readChoice schema K.first inner variants)
      (readChoice schema K.second inner' variants) := by
  refine K.bind (compares_firstByte K) fun b => ?_
  split
  · refine compares_opening hinner fun read read' h => ?_
    refine K.bind K.advance fun _ => K.bind (compares_named K variants) fun variant => ?_
    refine K.bind (compares_colon K) fun _ => K.bind (K.step _ (h _)) fun v =>
      K.bind K.look fun o => ?_
    dsimp only
    split
    · refine K.bind K.advance fun _ => ?_
      split <;> exact K.pure _
    · refine K.bind (compares_fail K nofun) fun _ => ?_
      split <;> exact K.pure _
    · refine K.bind (compares_fail K nofun) fun _ => ?_
      split <;> exact K.pure _
  · exact K.bind (compares_named K variants) fun variant => compares_bareVariant K variant
  · exact compares_failNext K nofun

theorem compares_readTagged (hinner : K.Inside inner inner') (title tag : String)
    (variants : List (String × Kept)) :
    K.Holds (readTagged K.first inner title tag variants)
      (readTagged K.second inner' title tag variants) := by
  refine K.bind (compares_firstByte K) fun b => ?_
  dsimp only
  split
  case' h_1 => refine K.bind ?list fun x => ?_
  case' h_2 => refine K.bind ?object fun x => ?_
  case' h_3 => refine K.bind ?other fun x => ?_
  case list =>
    refine compares_opening hinner fun read read' h => K.bracketed (compares_closeList K) ?_
    refine K.bind (compares_hasItem K true) fun more =>
      compares_ite K ?_ (compares_mismatch K _)
    exact K.bind (K.step _ (compares_variantName K _)) fun name =>
      K.bind (compares_items K (h .raw) K.rounds_bound _ _) fun vs => K.pure _
  case object =>
    refine compares_opening hinner fun read read' h => K.bracketed (compares_closeObject K) ?_
    exact K.bind (compares_taggedMembers K (h .raw) tag _ K.rounds_bound _ _ _) fun members =>
      K.pure _
  case other => exact compares_wrongKind K title b
  -- Whatever the brackets, what they hold is fitted without reading on.
  all_goals
    split
    · exact compares_mismatch K _
    · split
      · exact compares_mismatch K _
      · exact K.pure _
      · exact K.pure _

theorem compares_readLayout (hinner : K.Inside inner inner') (layout : Layout τ) :
    K.Holds (readLayout schema K.first inner layout)
      (readLayout schema K.second inner' layout) := by
  cases layout with
  | any => exact compares_readFree hinner _ _
  | raw => exact compares_readFree hinner _ _
  | text => exact K.bind (compares_readText K _) fun s => K.pure _
  | truth => exact compares_readTruth K
  | unit => exact compares_readUnit K
  | integer kind => exact K.bind (compares_readInteger K kind) fun i => K.pure _
  | list element => exact compares_readList hinner _
  | tuple title whole elements => exact compares_readTuple hinner title whole elements
  | record title fields closed => exact compares_readRecord hinner title fields closed
  | table key element => exact compares_readTable hinner key _
  | choice variants => exact compares_readChoice hinner variants
  | tagged title tag variants => exact compares_readTagged hinner title tag variants

/-- **The readers of any layout compare**, at any depth. -/
theorem compares_readAt (K : Comparison) (schema : Schema τ) (depth : Nat) (layout : Layout τ) :
    K.Holds (readAt schema K.first depth layout) (readAt schema K.second depth layout) := by
  induction depth generalizing layout with
  | zero => exact compares_readLayout .none layout
  | succ depth ih => exact compares_readLayout (.some ih) layout

end Layouts

end Compares

end ErrorContract.Json
