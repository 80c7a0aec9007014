/-
  ErrorContract.Proofs.Tracking
  ─────────────────────────────
  **KEEPING TRACK OF THE WAY CHANGES NOTHING ELSE.**

  A reader that keeps track of the way to each value and one that does not
  go through a body in step: what the one makes of it the other does too, up
  to the way.  Steps are the only place where track is kept, so that this is
  a comparison of readers (`alike`), and holds of the readers of any layout.
-/
import ErrorContract.Proofs.Comparison

namespace ErrorContract.Json

open ErrorContract

/-! ## §1. Two runs in step. -/

section InStep

variable {α β : Type} {fault : Fault}

/-- **Two runs end alike**: with the same result behind the same byte, or with the same fault at
the same place, of which the second does not say the way.  The body is complete, so that no fault
is that it broke off. -/
inductive EndsAlike : EStateM.Result Error Cursor α → EStateM.Result Error Cursor α → Prop where
  | ok (a : α) (c : Cursor) (hc : c.ending = .complete) : EndsAlike (.ok a c) (.ok a c)
  | error (e : Error) (c : Cursor) (hc : c.ending = .complete) (he : e.fault.kind ≠ .brokenOff) :
      EndsAlike (.error e c) (.error { e with trail := [] } c)

/-- Two readers that go through every complete body in step; the second does not say the way. -/
def InStep (tracked plain : Read α) : Prop :=
  ∀ c : Cursor, c.ending = .complete → EndsAlike (tracked c) (plain c)

/-- A reader that keeps no track at all. -/
abbrev Steady (read : Read α) : Prop := InStep read read

theorem InStep.pure (a : α) : InStep (Pure.pure a : Read α) (Pure.pure a) := fun c hc => .ok a c hc

/-- **Readers that are in step are so one after the other.** -/
theorem InStep.bind {tracked plain : Read α} {next next' : α → Read β}
    (h : InStep tracked plain) (hnext : ∀ a, InStep (next a) (next' a)) :
    InStep (tracked >>= next) (plain >>= next') := by
  intro c hc
  show EndsAlike (EStateM.bind tracked next c) (EStateM.bind plain next' c)
  unfold EStateM.bind
  have hrun := h c hc
  generalize tracked c = r, plain c = r' at hrun
  cases hrun with
  | ok a c' hc' => exact hnext a c' hc'
  | error e c' hc' he => exact .error e c' hc' he

theorem InStep.fixing {tracked plain : Read α} (h : InStep tracked plain) :
    InStep (fixing tracked) (fixing plain) := by
  intro c hc
  unfold Json.fixing
  have hrun := h c hc
  generalize tracked c = r, plain c = r' at hrun
  cases hrun with
  | ok a c' hc' => exact .ok a c' hc'
  | error e c' hc' he => exact .error { e with offset := e.offset <|> some c'.offset } c' hc' he

/-- **The one place where track is kept.** -/
theorem InStep.step {tracked plain : Read α} (h : InStep tracked plain) (bound : Nat)
    (s : Option PathSegment) :
    InStep (Context.step ⟨bound, true⟩ s tracked) (Context.step ⟨bound, false⟩ s plain) := by
  intro c hc
  unfold Context.step
  have hrun := h c hc
  generalize tracked c = r, plain c = r' at hrun
  cases hrun with
  | ok a c' hc' => exact .ok a c' hc'
  | error e c' hc' he => exact .error { e with trail := s :: e.trail } c' hc' he

theorem advance_ending (c : Cursor) : c.advance.ending = c.ending := by
  unfold Cursor.advance
  split <;> rfl

/-- What fails alike wherever it stands does not say a way. -/
theorem steady_failing (place : Cursor → Option Nat) (h : fault.kind ≠ .brokenOff) :
    Steady (fun c => .error ⟨fault, place c, []⟩ c : Read α) :=
  fun c hc => .error ⟨fault, place c, []⟩ c hc h

/-- **The end of the brackets is looked for in either case**, but what was met first counts. -/
theorem InStep.bracketed {close close' : Read Unit} {tracked plain : Read α}
    (hclose : InStep close close') (h : InStep tracked plain) :
    InStep (bracketed close tracked) (bracketed close' plain) := by
  refine .fixing fun c hc => ?_
  have hrun := h c.advance ((advance_ending c).trans hc)
  generalize tracked c.advance = r, plain c.advance = r' at hrun ⊢
  cases hrun with
  | ok a c₁ hc₁ =>
      have hend := hclose c₁ hc₁
      dsimp only
      generalize close c₁ = r, close' c₁ = r' at hend ⊢
      cases hend with
      | ok u c₂ hc₂ => exact .ok a c₂ hc₂
      | error e c₂ hc₂ he => exact .error e c₂ hc₂ he
  | error e c₁ hc₁ he =>
      have hend := hclose c₁ hc₁
      dsimp only
      generalize close c₁ = r, close' c₁ = r' at hend ⊢
      cases hend with
      | ok u c₂ hc₂ => exact .error e c₂ hc₂ he
      | error e' c₂ hc₂ he' => exact .error e c₂ hc₂ he

end InStep

/-! ## §2. The readers that touch a body themselves. -/

section Steady

variable {fault : Fault}

/-- The end of a complete body is found, and not a fault. -/
theorem steady_peek : Steady peek := by
  intro c hc
  obtain ⟨rest, offset, ending⟩ := c
  cases hc
  cases rest with
  | nil => exact .ok none _ rfl
  | cons b rest => exact .ok (some b) _ rfl

theorem steady_advance : Steady advance :=
  fun c hc => .ok () c.advance ((advance_ending c).trans hc)

theorem skipBlanks_ending (c : Cursor) : c.skipBlanks.ending = c.ending := by
  unfold Cursor.skipBlanks
  generalize c.rest = bytes, c.offset = offset
  induction bytes generalizing offset with
  | nil => rfl
  | cons b bytes ih =>
      unfold Cursor.skipBlanks.go
      split
      · exact ih (offset + 1)
      · rfl

theorem steady_look : Steady look := by
  have hskip : Steady (modify Cursor.skipBlanks) :=
    fun c hc => EndsAlike.ok PUnit.unit c.skipBlanks ((skipBlanks_ending c).trans hc)
  exact hskip.bind fun _ => steady_peek

theorem steady_finish : Steady finish := by
  refine .bind steady_look fun o => ?_
  split
  · exact .pure ()
  · exact steady_failing _ nofun

theorem malformed_of_escapeMeaning {high value : Option Nat}
    (h : escapeMeaning high value = .fault fault) : fault.kind = .malformed := by
  unfold escapeMeaning at h
  split at h <;> grind [Fault.kind]

/-- What is wrong within a string is wrong in its form. -/
theorem malformed_of_scan {offset start : Nat} {run : List UInt8} {pieces : List Piece}
    {mode : Mode} {bytes : List UInt8} {place : Nat}
    (h : scan offset start run pieces mode bytes = .fault fault place) :
    fault.kind = .malformed := by
  fun_induction scan offset start run pieces mode bytes with
  | case12 offset start run pieces digits high b rest value howed f hmeaning =>
      cases h
      exact malformed_of_escapeMeaning hmeaning
  | _ => grind [Fault.kind]

theorem malformed_of_skipScan {offset : Nat} {mode : SkipMode} {bytes : List UInt8} {place : Nat}
    (h : skipScan offset mode bytes = .fault fault place) : fault.kind = .malformed := by
  fun_induction skipScan offset mode bytes with
  | _ => grind [Fault.kind]

theorem steady_string : Steady string := by
  intro c hc
  obtain ⟨rest, offset, ending⟩ := c
  cases hc
  unfold string
  dsimp only
  cases hscan : scan offset offset [] [] .plain rest with
  | closed pieces behind place =>
      dsimp only
      cases decodePieces pieces with
      | ok cs => exact .ok _ _ rfl
      | error bad => exact .error ⟨.invalidCodePoint, some bad, []⟩ _ rfl nofun
  | fault f place =>
      have hkind : f.kind ≠ .brokenOff := by rw [malformed_of_scan hscan]; decide
      exact .error ⟨f, some place, []⟩ _ rfl hkind
  | ended place => exact .error ⟨.endInString, some place, []⟩ _ rfl nofun

theorem steady_skipString : Steady skipString := by
  intro c hc
  obtain ⟨rest, offset, ending⟩ := c
  cases hc
  unfold skipString
  dsimp only
  cases hscan : skipScan offset .plain rest with
  | closed pieces behind place => exact .ok _ _ rfl
  | fault f place =>
      have hkind : f.kind ≠ .brokenOff := by rw [malformed_of_skipScan hscan]; decide
      exact .error ⟨f, some place, []⟩ _ rfl hkind
  | ended place => exact .error ⟨.endInString, some place, []⟩ _ rfl nofun

theorem steady_digitRun : Steady digitRun := fun _ hc => .ok _ _ hc

/-- **The comparison of a reader that keeps track and one that does not.** -/
def alike (bound : Nat) : Comparison where
  first := ⟨bound, true⟩
  second := ⟨bound, false⟩
  Holds := InStep
  pure := InStep.pure
  bind := InStep.bind
  fixing := InStep.fixing
  step segment h := h.step bound segment
  bracketed := InStep.bracketed
  failing := steady_failing
  peek := steady_peek
  advance := steady_advance
  look := steady_look
  digitRun := steady_digitRun
  string := steady_string
  skipString := steady_skipString
  rounds := .inl rfl

/-- **A value of any layout is read in step**, at any depth. -/
theorem inStep_readAt (schema : Schema τ) (bound depth : Nat) (layout : Layout τ) :
    InStep (readAt schema ⟨bound, true⟩ depth layout)
      (readAt schema ⟨bound, false⟩ depth layout) :=
  compares_readAt (alike bound) schema depth layout

end Steady

/-! ## §3. Bodies. -/

/-- **What two ways of reading a body make of it**: the same value, or the same failure but for the
way to the offending value.  No failure is of unknown cause. -/
inductive Agree : Except UnreadableBody Value → Except UnreadableBody Value → Prop where
  | value (v : Value) : Agree (.ok v) (.ok v)
  | misfit (path : Path) (message : String) :
      Agree (.error (.ofMapping path message)) (.error (.ofMapping [] message))
  | malformed (message : String) :
      Agree (.error (.ofMalformed message)) (.error (.ofMalformed message))

/-- Readers that are in step make the same of a body. -/
theorem InStep.agree {tracked plain : Read Value} (h : InStep tracked plain) (body : List UInt8) :
    Agree ((run tracked body .complete).mapError (Error.unreadable body))
      ((run plain body .complete).mapError (Error.unreadable body)) := by
  have hrun := h (.start body .complete) rfl
  unfold run
  generalize tracked (.start body .complete) = r, plain (.start body .complete) = r' at hrun ⊢
  cases hrun with
  | ok v c hc => exact .value v
  | error e c hc he =>
      -- What is said of an error does not depend on its trail.
      have hmessage : Error.message body { e with trail := [] } = e.message body := rfl
      dsimp only [Except.mapError, Error.unreadable]
      rw [hmessage]
      cases hkind : e.fault.kind with
      | mismatch => exact .misfit e.path _
      | malformed => exact .malformed _
      | ended => exact .malformed _
      | brokenOff => exact absurd hkind he

/-- **Keeping track of the way changes nothing else.**  Whatever the layout and the bytes, the
reader that keeps track and the one that does not accept the same bodies with the same values, and
refuse the others for the same reason in the same words; all that the second leaves out is the
way to a value of the wrong shape. -/
theorem tracking_changes_nothing_else (schema : Schema τ) (layout : Layout τ)
    (body : List UInt8) :
    Agree (parseBody schema layout body) (parsePlain schema layout body) := by
  have hwhole : InStep
      (readAt schema ⟨body.length, true⟩ depthLimit layout >>= fun v =>
        finish >>= fun _ => Pure.pure v)
      (readAt schema ⟨body.length, false⟩ depthLimit layout >>= fun v =>
        finish >>= fun _ => Pure.pure v) :=
    (inStep_readAt schema body.length depthLimit layout).bind fun v =>
      .bind steady_finish fun _ => .pure v
  exact hwhole.agree body

end ErrorContract.Json
