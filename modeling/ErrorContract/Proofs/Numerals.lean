/-
  ErrorContract.Proofs.Numerals
  ─────────────────────────────
  **A NUMBER AT THE FRONT OF A STRING.**

  The name of a member may have to be a number.  It is read as one from the
  bytes of the string, so that what is found depends on the string alone:
  the reader of numbers never goes beyond the closing quote, and stops
  between two of the string's pieces (`Frontal`).
-/
import ErrorContract.Proofs.AcceptedTokens
import ErrorContract.Proofs.Tokens

namespace ErrorContract.Json

open ErrorContract

/-! ## §1. Readers that stay within a string. -/

/-- The first byte of a string, behind its opening quote. -/
def StringToken.head : StringToken → UInt8
  | [] => 0x22
  | .byte b _ _ _ :: _ => b
  | .short _ _ :: _ | .code _ _ _ _ _ :: _ => 0x5c

/-- **What a reader makes of a string does not depend on what follows the string.** It fails, or it
yields a result and leaves some pieces of the string. -/
def Frontal (s : StringToken) (read : Read α) : Prop :=
  ∃ r : Option (α × StringToken), ∀ tail c, c.At (StringToken.bytes s ++ tail) →
    match r with
    | some (a, s') => Meets (StringToken.bytes s' ++ tail) (.ok a) (read c)
    | none => Meets tail (.error .mistaken : Verdict α) (read c)

section Frontal

variable {α β : Type} {s : StringToken} {fault : Fault}

theorem StringToken.exists_bytes_eq (s : StringToken) :
    ∃ behind, StringToken.bytes s = s.head :: behind := by
  cases s with
  | nil => exact ⟨[], rfl⟩
  | cons item s =>
      rw [bytes_cons]
      cases item with
      | byte b _ _ _ => exact ⟨_, rfl⟩
      | short letter _ => exact ⟨_, rfl⟩
      | code a b c d _ => exact ⟨_, rfl⟩

/-- A byte that is no quote and no backslash is a piece of its own. -/
theorem StringToken.exists_byte (hquote : s.head ≠ 0x22) (hbackslash : s.head ≠ 0x5c) :
    ∃ s', StringToken.bytes s = s.head :: StringToken.bytes s' := by
  cases s with
  | nil => exact absurd rfl hquote
  | cons item s =>
      cases item with
      | byte b _ _ _ => exact ⟨s, bytes_cons _ s⟩
      | short letter _ => exact absurd rfl hbackslash
      | code a b c d _ => exact absurd rfl hbackslash

theorem frontal_pure (a : α) : Frontal s (pure a) := ⟨some (a, s), fun _ _ h => Meets.pure h⟩

theorem frontal_fail (h : fault.kind = .malformed) : Frontal s (fail fault : Read α) :=
  ⟨none, fun _ _ _ => ⟨_, _, rfl, h⟩⟩

theorem frontal_failNext (h : fault.kind = .malformed) : Frontal s (failNext fault : Read α) :=
  ⟨none, fun _ c _ => meets_mistaken h c⟩

theorem frontal_failFrom (place : Cursor → Nat) (h : fault.kind = .malformed) :
    Frontal s (get >>= fun c => failAt (place c) fault : Read α) :=
  ⟨none, fun _ _ _ => ⟨_, _, rfl, h⟩⟩

theorem frontal_ite {p : Prop} [Decidable p] {yes no : Read α} (hyes : Frontal s yes)
    (hno : Frontal s no) : Frontal s (if p then yes else no) := by
  by_cases hp : p
  · rw [if_pos hp]
    exact hyes
  · rw [if_neg hp]
    exact hno

theorem Frontal.bind {read : Read α} {next : α → Read β} (h : Frontal s read)
    (hnext : ∀ a s', Frontal s' (next a)) : Frontal s (read >>= next) := by
  obtain ⟨r, h⟩ := h
  cases r with
  | none => exact ⟨none, fun tail c hc => (h tail c hc).bind_error⟩
  | some x =>
      obtain ⟨r', h'⟩ := hnext x.1 x.2
      refine ⟨r', fun tail c hc => ?_⟩
      have hread := h tail c hc
      cases r' with
      | none => exact hread.bind_ok fun c' hc' => h' tail c' hc'
      | some y => exact hread.bind_ok fun c' hc' => h' tail c' hc'

/-- A byte of the string is seen. -/
theorem frontal_peek {next : Option UInt8 → Read β} (h : Frontal s (next (some s.head))) :
    Frontal s (peek >>= next) := by
  obtain ⟨r, h⟩ := h
  refine ⟨r, fun tail c hc => ?_⟩
  have hpeek : Meets (StringToken.bytes s ++ tail) (.ok (some s.head)) (peek c) := by
    obtain ⟨behind, hbytes⟩ := s.exists_bytes_eq
    rw [hbytes, List.cons_append] at hc ⊢
    exact meets_peek hc
  cases r with
  | none => exact hpeek.bind_ok fun c' hc' => h tail c' hc'
  | some x => exact hpeek.bind_ok fun c' hc' => h tail c' hc'

/-- A byte that is a piece of its own is passed over. -/
theorem frontal_advance {next : Unit → Read β} (hquote : s.head ≠ 0x22) (hbackslash : s.head ≠ 0x5c)
    (h : ∀ s', Frontal s' (next ())) : Frontal s (advance >>= next) := by
  obtain ⟨s', hs'⟩ := StringToken.exists_byte hquote hbackslash
  obtain ⟨r, h⟩ := h s'
  refine ⟨r, fun tail c hc => ?_⟩
  rw [hs', List.cons_append] at hc
  cases r with
  | none => exact (meets_advance hc).bind_ok fun c' hc' => h tail c' hc'
  | some x => exact (meets_advance hc).bind_ok fun c' hc' => h tail c' hc'

/-- A byte that is a piece of its own is taken; at any other the reader fails. -/
theorem frontal_next {next : Option UInt8 → Read β}
    (hbyte : ∀ s', Frontal s' (next (some s.head)))
    (hother : ∀ b, b = 0x22 ∨ b = 0x5c →
      ∀ c, ∃ e c', next (some b) c = .error e c' ∧ e.fault.kind = .malformed) :
    Frontal s (Json.next >>= next) := by
  by_cases h : s.head = 0x22 ∨ s.head = 0x5c
  · refine ⟨none, fun tail c hc => ?_⟩
    obtain ⟨behind, hbytes⟩ := s.exists_bytes_eq
    rw [hbytes, List.cons_append] at hc
    refine (meets_next hc).bind_ok fun c' _ => ?_
    obtain ⟨e, c'', hrun, hkind⟩ := hother _ h c'
    exact ⟨e, c'', hrun, hkind⟩
  · obtain ⟨hquote, hbackslash⟩ := not_or.mp h
    obtain ⟨s', hs'⟩ := StringToken.exists_byte hquote hbackslash
    obtain ⟨r, h⟩ := hbyte s'
    refine ⟨r, fun tail c hc => ?_⟩
    rw [hs', List.cons_append] at hc
    cases r with
    | none => exact (meets_next hc).bind_ok fun c' hc' => h tail c' hc'
    | some x => exact (meets_next hc).bind_ok fun c' hc' => h tail c' hc'

/-- The digits at the front of a string. -/
theorem StringToken.exists_digits (s : StringToken) : ∃ (ds : List UInt8) (s' : StringToken),
    StringToken.bytes s = ds ++ StringToken.bytes s' ∧ (∀ d ∈ ds, isDigit d = true)
      ∧ isDigit s'.head = false := by
  induction s with
  | nil => exact ⟨[], [], rfl, by simp, rfl⟩
  | cons item s ih =>
      cases item with
      | byte b notQuote notBackslash notControl =>
          by_cases hb : isDigit b = true
          · obtain ⟨ds, s', hbytes, hds, hhead⟩ := ih
            refine ⟨b :: ds, s', ?_, ?_, hhead⟩
            · rw [StringToken.bytes_cons, hbytes]
              rfl
            · intro d hd
              rcases List.mem_cons.mp hd with rfl | hd
              · exact hb
              · exact hds d hd
          · have hhead : isDigit b = false := by simpa using hb
            exact ⟨[], .byte b notQuote notBackslash notControl :: s, rfl, by simp, hhead⟩
      | short letter known => exact ⟨[], .short letter known :: s, rfl, by simp, rfl⟩
      | code a b c d isHex => exact ⟨[], .code a b c d isHex :: s, rfl, by simp, rfl⟩

theorem frontal_digitRun : Frontal s digitRun := by
  obtain ⟨ds, s', hbytes, hds, hhead⟩ := StringToken.exists_digits s
  refine ⟨some (ds, s'), fun tail c hc => ?_⟩
  have hstop : NoDigit (StringToken.bytes s' ++ tail) := by
    obtain ⟨behind, hbehind⟩ := s'.exists_bytes_eq
    rw [hbehind]
    intro b hb
    cases hb
    exact hhead
  rw [hbytes, List.append_assoc] at hc
  exact meets_digitRun hds hstop hc

end Frontal

/-! ## §2. Numbers. -/

section Numbers

variable {s : StringToken} {positive negative : Bool} {significand : Nat} {power : Int}

theorem frontal_floating : Frontal s (floating positive significand power) := by
  unfold floating
  cases combine significand power with
  | some x => exact frontal_pure _
  | none => exact frontal_failFrom _ rfl

theorem frontal_exponentDigits :
    Frontal s (exponentDigits positive negative significand power) := by
  refine frontal_next (fun s' => ?_) fun b hb c => ?_
  · refine frontal_ite (frontal_fail rfl) (frontal_digitRun.bind fun ds s₁ => ?_)
    dsimp only
    refine frontal_ite (frontal_peek frontal_floating) (frontal_ite ?_ ?_)
    · exact frontal_failFrom _ rfl
    · exact frontal_peek (frontal_pure _)
  · rcases hb with rfl | rfl <;> exact ⟨_, _, rfl, rfl⟩

theorem frontal_exponent (hquote : s.head ≠ 0x22) (hbackslash : s.head ≠ 0x5c) :
    Frontal s (exponent positive significand power) := by
  refine frontal_advance hquote hbackslash fun s' => frontal_peek (frontal_peek ?_)
  by_cases hsign : (some s'.head == some 0x2d || some s'.head == some 0x2b) = true
  · simp only [hsign, if_true]
    obtain ⟨b, hb, hhead⟩ := exists_sign hsign
    have hhead := Option.some.inj hhead
    have hne : s'.head ≠ 0x22 ∧ s'.head ≠ 0x5c := by
      rw [hhead]
      rcases hb with rfl | rfl <;> decide
    exact frontal_advance hne.1 hne.2 fun s₁ => frontal_exponentDigits
  · simp only [hsign]
    exact frontal_exponentDigits

theorem frontal_fraction (hquote : s.head ≠ 0x22) (hbackslash : s.head ≠ 0x5c) :
    Frontal s (fraction positive significand power) := by
  refine frontal_advance hquote hbackslash fun s' => frontal_digitRun.bind fun ds s₁ => ?_
  refine frontal_ite (frontal_peek (frontal_failNext rfl)) (frontal_peek ?_)
  split
  · next h => exact frontal_exponent (by simp_all) (by simp_all)
  · next h => exact frontal_exponent (by simp_all) (by simp_all)
  · exact frontal_floating

theorem frontal_behindWhole (excess : List UInt8) :
    Frontal s (behindWhole positive significand excess) := by
  refine frontal_peek ?_
  split
  · next h => exact frontal_fraction (by simp_all) (by simp_all)
  · next h => exact frontal_exponent (by simp_all) (by simp_all)
  · next h => exact frontal_exponent (by simp_all) (by simp_all)
  · exact frontal_ite (frontal_pure _) frontal_floating

theorem frontal_number : Frontal s (number positive) := by
  refine frontal_next (fun s' => ?_) fun b hb c => ?_
  · split
    · exact frontal_fail (by simp_all)
    · exact frontal_peek (frontal_ite (frontal_failNext rfl) (frontal_behindWhole _))
    · exact frontal_ite (frontal_fail rfl)
        (frontal_digitRun.bind fun ds s₁ => frontal_behindWhole _)
  · rcases hb with rfl | rfl <;> exact ⟨_, _, rfl, rfl⟩

theorem frontal_signedNumber : Frontal s signedNumber := by
  refine frontal_peek ?_
  split
  · next h => exact frontal_advance (by simp_all) (by simp_all) fun s' => frontal_number
  · exact frontal_ite frontal_number (frontal_fail rfl)
  · exact frontal_fail rfl

/-- **What number a string begins with is a matter of the string alone**, whatever follows it. -/
theorem meets_signedNumber (s : StringToken) :
    (StringToken.number? s = none ∧ ∀ tail c, c.At (StringToken.bytes s ++ tail) →
      Meets tail (.error .mistaken : Verdict Value) (signedNumber c))
    ∨ ∃ v s', StringToken.number? s = some (v, StringToken.bytes s')
      ∧ ∀ tail c, c.At (StringToken.bytes s ++ tail) →
        Meets (StringToken.bytes s' ++ tail) (.ok v) (signedNumber c) := by
  obtain ⟨r, hr⟩ := frontal_signedNumber (s := s)
  have halone : Cursor.At (StringToken.bytes s ++ []) ⟨StringToken.bytes s, 0, .complete⟩ :=
    ⟨(List.append_nil _).symm, rfl⟩
  have hthere := hr [] _ halone
  unfold StringToken.number?
  cases r with
  | none =>
      obtain ⟨e, c', hrun, -⟩ := hthere
      rw [hrun]
      exact .inl ⟨rfl, hr⟩
  | some x =>
      obtain ⟨c', hrun, hc'⟩ := hthere
      rw [hrun]
      have hrest : c'.rest = StringToken.bytes x.2 := hc'.1.trans (List.append_nil _)
      refine .inr ⟨x.1, x.2, ?_, hr⟩
      show some (x.1, c'.rest) = _
      rw [hrest]

end Numbers

end ErrorContract.Json
