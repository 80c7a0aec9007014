/-
  ErrorContract.Proofs.ReadingScalars
  ───────────────────────────────────
  **WHAT IS READ WITHOUT ENTERING BRACKETS.**

  Values without brackets, names and the separators around values meet the
  verdicts of their counterparts, whatever follows them.  What stands
  between brackets is met by what the brackets are closed with.
-/
import ErrorContract.Proofs.Numerals
import ErrorContract.Proofs.Skipping

namespace ErrorContract.Json

open ErrorContract

variable {tail : List UInt8} {c : Cursor}

/-! ## §1. Values without brackets. -/

theorem leaf_of_isDigit {b : UInt8} (h : isDigit b = true) : leaf b = number true := by
  rcases isDigit_cases h with rfl | rfl | rfl | rfl | rfl | rfl | rfl | rfl | rfl | rfl <;> rfl

/-- A value without brackets is read as what it stands for. -/
theorem meets_leaf (t : Tree) (htail : EndsNumber tail) (h : c.At (t.bytes ++ tail)) :
    Meets tail t.leafValue (leaf t.head c) := by
  cases t with
  | null =>
      refine (meets_advance h).bind_ok fun c₁ h₁ => ?_
      exact (meets_literal nullTail h₁).bind_ok fun c₂ h₂ => Meets.pure h₂
  | truth b =>
      cases b with
      | true =>
          refine (meets_advance h).bind_ok fun c₁ h₁ => ?_
          exact (meets_literal trueTail h₁).bind_ok fun c₂ h₂ => Meets.pure h₂
      | false =>
          refine (meets_advance h).bind_ok fun c₁ h₁ => ?_
          exact (meets_literal falseTail h₁).bind_ok fun c₂ h₂ => Meets.pure h₂
  | string s =>
      refine (meets_advance h).bind_ok fun c₁ h₁ => ?_
      exact (meets_string s h₁).map
  | list items => exact meets_failNext (by decide) c
  | object members => exact meets_failNext (by decide) c
  | number n =>
      have hnumber := fun c' => meets_number (c := c') n htail
      cases hnegative : n.negative with
      | true =>
          rw [Tree.bytes, NumberToken.bytes_of_negative hnegative] at h
          rw [hnegative] at hnumber
          rw [Tree.head_of_negative hnegative]
          exact (meets_advance h).bind_ok hnumber
      | false =>
          rw [Tree.bytes, NumberToken.bytes_of_not_negative hnegative] at h
          rw [hnegative] at hnumber
          rw [Tree.head_of_not_negative hnegative, leaf_of_isDigit n.isDigit_first]
          exact hnumber c h

theorem wrongKind_of_ne {α : Type} {b : UInt8} (hlist : b ≠ 0x5b) (hobject : b ≠ 0x7b)
    (expected : String) :
    (wrongKind expected b : Read α)
      = fixing (do mismatch (.wrongKind (← leaf b).found expected)) := by
  unfold wrongKind
  split
  · exact absurd rfl hlist
  · exact absurd rfl hobject
  · rfl

/-- Only a list begins with its bracket, and only an object does. -/
theorem Tree.head_ne_bracket (t : Tree) :
    (t.head ≠ 0x5b ∨ ∃ items, t = .list items) ∧ (t.head ≠ 0x7b ∨ ∃ members, t = .object members)
      := by
  cases t with
  | list items => exact ⟨.inr ⟨items, rfl⟩, .inl (by simp [head])⟩
  | object members => exact ⟨.inl (by simp [head]), .inr ⟨members, rfl⟩⟩
  | truth b => cases b <;> simp [head]
  | number n =>
      exact ⟨.inl (head_number_ne n (by decide) rfl), .inl (head_number_ne n (by decide) rfl)⟩
  | _ => simp [head]

/-- **A value of another kind than expected is refused.** -/
theorem meets_wrongKind {α : Type} (t : Tree) (expected : String) (htail : EndsNumber tail)
    (h : c.At (t.bytes ++ tail)) :
    Meets tail (refuse expected t : Verdict α) (wrongKind expected t.head c) := by
  have hleaf := meets_leaf t htail h
  -- Anything but a bracket is read to its end, to say what was found.
  have hrefuse : ∀ (v : Verdict Value), Meets tail v (leaf t.head c) →
      t.head ≠ 0x5b → t.head ≠ 0x7b →
      Meets tail (v >>= fun a => (misfit (.wrongKind a.found expected) : Verdict α))
        (wrongKind expected t.head c) := by
    intro v hv hlist hobject
    rw [wrongKind_of_ne hlist hobject]
    exact Meets.fixing (hv.bind fun a c' _ _ => meets_mismatch _ c')
  cases t with
  | list items => exact Meets.fixing (meets_mismatch _ c)
  | object members => exact Meets.fixing (meets_mismatch _ c)
  | null => exact hrefuse _ hleaf (by decide) (by decide)
  | truth b => exact hrefuse _ hleaf (by cases b <;> decide) (by cases b <;> decide)
  | string s => exact hrefuse _ hleaf (by simp [Tree.head]) (by simp [Tree.head])
  | number n =>
      obtain ⟨hlist, hobject⟩ := (Tree.number n).head_ne_bracket
      exact hrefuse _ hleaf (hlist.resolve_right (by simp)) (hobject.resolve_right (by simp))

theorem meets_firstByte (t : Tree) {w : Blanks} (h : c.At (w.bytes ++ (t.bytes ++ tail))) :
    Meets (t.bytes ++ tail) (.ok t.head) (firstByte c) := by
  rw [t.bytes_eq, List.cons_append] at h ⊢
  exact (meets_look t.head_ne.1 h).bind_ok fun c₁ h₁ => Meets.pure h₁

/-! ### A byte that is none of those looked for. -/

section Other

variable {α : Type} {b : UInt8} {v : Verdict α} {here there : Read α} {other : UInt8 → Read α}

theorem meets_no_quote (hb : b ≠ 0x22) (h : Meets tail v (other b c)) :
    Meets tail v ((match b with
      | 0x22 => here
      | b => other b) c) := by
  split
  · exact absurd rfl hb
  · exact h

theorem meets_no_list (hb : b ≠ 0x5b) (h : Meets tail v (other b c)) :
    Meets tail v ((match b with
      | 0x5b => here
      | b => other b) c) := by
  split
  · exact absurd rfl hb
  · exact h

theorem meets_no_object (hb : b ≠ 0x7b) (h : Meets tail v (other b c)) :
    Meets tail v ((match b with
      | 0x7b => here
      | b => other b) c) := by
  split
  · exact absurd rfl hb
  · exact h

theorem meets_no_bracket (hlist : b ≠ 0x5b) (hobject : b ≠ 0x7b) (h : Meets tail v (other b c)) :
    Meets tail v ((match b with
      | 0x5b => here
      | 0x7b => there
      | b => other b) c) := by
  split
  · exact absurd rfl hlist
  · exact absurd rfl hobject
  · exact h

theorem meets_no_choice {neither : Read α} (hobject : b ≠ 0x7b) (hquote : b ≠ 0x22)
    (h : Meets tail v (neither c)) :
    Meets tail v ((match b with
      | 0x7b => here
      | 0x22 => there
      | _ => neither) c) := by
  split
  · exact absurd rfl hobject
  · exact absurd rfl hquote
  · exact h

theorem meets_no_null (hb : b ≠ 0x6e) (h : Meets tail v (other b c)) :
    Meets tail v ((match b with
      | 0x6e => here
      | b => other b) c) := by
  split
  · exact absurd rfl hb
  · exact h

theorem meets_no_truth (htrue : b ≠ 0x74) (hfalse : b ≠ 0x66) (h : Meets tail v (other b c)) :
    Meets tail v ((match b with
      | 0x74 => here
      | 0x66 => there
      | b => other b) c) := by
  split
  · exact absurd rfl htrue
  · exact absurd rfl hfalse
  · exact h

end Other

/-- Only `null` begins as `null` does. -/
theorem Tree.head_ne_null {t : Tree} (h : t ≠ .null) : t.head ≠ 0x6e := by
  cases t with
  | null => exact absurd rfl h
  | truth b => cases b <;> simp [head]
  | number n => exact head_number_ne n (by decide) rfl
  | _ => simp [head]

/-- Only a truth value begins as one does. -/
theorem Tree.head_ne_truth {t : Tree} (h : ∀ b, t ≠ .truth b) : t.head ≠ 0x74 ∧ t.head ≠ 0x66 := by
  cases t with
  | truth b => exact absurd rfl (h b)
  | number n => exact ⟨head_number_ne n (by decide) rfl, head_number_ne n (by decide) rfl⟩
  | _ => simp [head]

/-- Only a string begins with a quote. -/
theorem Tree.head_ne_quote {t : Tree} (h : ∀ s, t ≠ .string s) : t.head ≠ 0x22 := by
  cases t with
  | string s => exact absurd rfl (h s)
  | truth b => cases b <;> simp [head]
  | number n => exact head_number_ne n (by decide) rfl
  | _ => simp [head]

/-- Only a number begins with a minus or a digit. -/
theorem Tree.head_of_no_number {t : Tree} (h : ∀ n, t ≠ .number n) :
    t.head ≠ 0x2d ∧ isDigit t.head = false := by
  cases t with
  | number n => exact absurd rfl (h n)
  | truth b => cases b <;> decide
  | _ => simp [head, isDigit]

/-- **A text is read as it is judged.** -/
theorem meets_readText (expected : String) (t : Tree) {w : Blanks} (htail : EndsNumber tail)
    (h : c.At (w.bytes ++ (t.bytes ++ tail))) :
    Meets tail (judgeText expected t) (readText expected c) := by
  have hrefuse : (∀ s, t ≠ .string s) →
      Meets tail (refuse expected t : Verdict String) (readText expected c) := by
    intro hstring
    refine (meets_firstByte t h).bind_ok fun c₁ h₁ => ?_
    exact meets_no_quote (Tree.head_ne_quote hstring) (meets_wrongKind t expected htail h₁)
  cases t with
  | string s =>
      refine (meets_firstByte _ h).bind_ok fun c₁ h₁ => ?_
      exact (meets_advance h₁).bind_ok fun c₂ h₂ => meets_string s h₂
  | _ => exact hrefuse (by simp)

/-- A number is fitted to its kind as it is judged. -/
theorem meets_fitInteger (kind : IntegerKind) (v : Value) (h : c.At tail) :
    Meets tail (judgeNumber kind v) (fitInteger kind v c) := by
  cases v with
  | int i =>
      unfold fitInteger judgeNumber
      cases hcheck : kind.check i with
      | ok j =>
          simp only [hcheck]
          exact Meets.pure h
      | error m =>
          simp only [hcheck]
          exact meets_mismatch m c
  | _ => exact meets_mismatch _ c

/-- **A whole number is read as it is judged.** -/
theorem meets_readInteger (kind : IntegerKind) (t : Tree) {w : Blanks} (htail : EndsNumber tail)
    (h : c.At (w.bytes ++ (t.bytes ++ tail))) :
    Meets tail (judgeInteger kind t) (readInteger kind c) := by
  have hrefuse : (∀ n, t ≠ .number n) →
      Meets tail (refuse kind.name t : Verdict Int) (readInteger kind c) := by
    intro hnumber
    obtain ⟨hminus, hdigit⟩ := Tree.head_of_no_number hnumber
    refine (meets_firstByte t h).bind_ok fun c₁ h₁ => ?_
    rw [if_neg hminus, hdigit, if_neg (by decide)]
    exact meets_wrongKind t kind.name htail h₁
  cases t with
  | number n =>
      have hnumber := fun c' => meets_number (c := c') n htail
      refine (meets_firstByte _ h).bind_ok fun c₁ h₁ => ?_
      cases hnegative : n.negative with
      | true =>
          rw [Tree.bytes, NumberToken.bytes_of_negative hnegative] at h₁
          rw [hnegative] at hnumber
          rw [if_pos (Tree.head_of_negative hnegative)]
          refine Meets.fixing ((meets_advance h₁).bind_ok fun c₂ h₂ => ?_)
          exact (hnumber c₂ h₂).bind fun v c₃ _ h₃ => meets_fitInteger kind v h₃
      | false =>
          rw [Tree.bytes, NumberToken.bytes_of_not_negative hnegative] at h₁
          rw [hnegative] at hnumber
          have hminus := ne_of_isDigit (c := 0x2d) n.isDigit_first rfl
          rw [Tree.head_of_not_negative hnegative, if_neg hminus, n.isDigit_first, if_pos rfl]
          refine Meets.fixing ?_
          exact (hnumber c₁ h₁).bind fun v c₂ _ h₂ => meets_fitInteger kind v h₂
  | _ => exact hrefuse (by simp)

/-- **`null` is read as it is judged.** -/
theorem meets_readUnit (t : Tree) {w : Blanks} (htail : EndsNumber tail)
    (h : c.At (w.bytes ++ (t.bytes ++ tail))) : Meets tail (judgeUnit t) (readUnit c) := by
  have hrefuse : t ≠ .null → Meets tail (refuse "unit" t : Verdict Value) (readUnit c) := by
    intro hnull
    refine (meets_firstByte t h).bind_ok fun c₁ h₁ => ?_
    exact meets_no_null (Tree.head_ne_null hnull) (meets_wrongKind t "unit" htail h₁)
  cases t with
  | null =>
      refine (meets_firstByte _ h).bind_ok fun c₁ h₁ => (meets_advance h₁).bind_ok fun c₂ h₂ => ?_
      exact (meets_literal nullTail h₂).bind_ok fun c₃ h₃ => Meets.pure h₃
  | _ => exact hrefuse (by simp)

/-- **A truth value is read as it is judged.** -/
theorem meets_readTruth (t : Tree) {w : Blanks} (htail : EndsNumber tail)
    (h : c.At (w.bytes ++ (t.bytes ++ tail))) : Meets tail (judgeTruth t) (readTruth c) := by
  have hrefuse : (∀ b, t ≠ .truth b) →
      Meets tail (refuse "a boolean" t : Verdict Value) (readTruth c) := by
    intro htruth
    obtain ⟨htrue, hfalse⟩ := Tree.head_ne_truth htruth
    refine (meets_firstByte t h).bind_ok fun c₁ h₁ => ?_
    exact meets_no_truth htrue hfalse (meets_wrongKind t "a boolean" htail h₁)
  cases t with
  | truth b =>
      refine (meets_firstByte _ h).bind_ok fun c₁ h₁ => ?_
      cases b with
      | true =>
          refine (meets_advance h₁).bind_ok fun c₂ h₂ => ?_
          exact (meets_literal trueTail h₂).bind_ok fun c₃ h₃ => Meets.pure h₃
      | false =>
          refine (meets_advance h₁).bind_ok fun c₂ h₂ => ?_
          exact (meets_literal falseTail h₂).bind_ok fun c₃ h₃ => Meets.pure h₃
  | _ => exact hrefuse (by simp)

/-! ### Names of variants. -/

/-- **The name of a variant is read as it is judged.** -/
theorem meets_variantName (names : List String) (t : Tree) {w : Blanks} (htail : EndsNumber tail)
    (h : c.At (w.bytes ++ (t.bytes ++ tail))) :
    Meets tail (judgeName names t) (variantName names c) := by
  have hrefuse : (∀ s, t ≠ .string s) →
      Meets tail (refuse "variant identifier" t : Verdict String) (variantName names c) := by
    intro hstring
    refine (meets_firstByte t h).bind_ok fun c₁ h₁ => ?_
    exact meets_no_quote (Tree.head_ne_quote hstring)
      (meets_wrongKind t "variant identifier" htail h₁)
  cases t with
  | string s =>
      refine (meets_firstByte _ h).bind_ok fun c₁ h₁ => Meets.fixing ?_
      refine (meets_advance h₁).bind_ok fun c₂ h₂ => (meets_string s h₂).bind fun name c₃ _ h₃ => ?_
      by_cases hname : names.contains name = true
      · rw [if_pos hname, if_pos hname]
        exact Meets.pure h₃
      · rw [if_neg hname, if_neg hname]
        exact meets_mismatch _ c₃
  | _ => exact hrefuse (by simp)

/-- **A variant is found by its name as it is judged.** -/
theorem meets_named (variants : List (Variant τ)) (token : StringToken) {w : Blanks}
    (htail : EndsNumber tail) (h : c.At (w.bytes ++ ((Tree.string token).bytes ++ tail))) :
    Meets tail (judgeVariant variants token) (readChoice.named variants c) := by
  refine (meets_variantName _ _ htail h).bind fun name c₁ _ h₁ => ?_
  cases hfind : variants.find? (·.name == name) with
  | some variant => exact Meets.pure h₁
  | none => exact meets_mismatch _ c₁

/-- A bare variant is judged as it is. -/
theorem meets_bareVariant {ctx : Context} (htracked : ctx.tracked = true) (variant : Variant τ)
    (h : c.At tail) : Meets tail (judgeBare variant) (bareVariant ctx variant c) := by
  have hmissing : ∀ expected, Meets tail (judgeBare.missing variant expected)
      (bareVariant.missing ctx variant expected c) := fun expected =>
    Meets.step htracked (.field variant.name) (meets_mismatch _ c)
  unfold bareVariant judgeBare
  cases variant.payload with
  | bare => exact Meets.pure h
  | _ => exact hmissing _

/-! ### Names that are numbers. -/

/-- Behind the number only the closing quote may stand. -/
theorem meets_closingQuote {α : Type} (left : StringToken) (a : α)
    (h : c.At (StringToken.bytes left ++ tail)) :
    Meets tail (if StringToken.bytes left = [0x22] then .ok a else .error .mistaken) ((do
      match ← peek with
      | some 0x22 => advance; return a
      | _ => failNext .expectedQuote : Read α) c) := by
  cases left with
  | nil =>
      exact (meets_peek h).bind_ok fun c₁ h₁ =>
        (meets_advance h₁).bind_ok fun c₂ h₂ => Meets.pure h₂
  | cons item left =>
      obtain ⟨behind, hbytes⟩ := StringToken.exists_bytes_eq (item :: left)
      have hlong : ¬ StringToken.bytes (item :: left) = [0x22] := by
        rw [StringToken.bytes_cons]
        cases item <;> simp [StringItem.bytes, StringToken.bytes, *]
      have hquote : StringToken.head (item :: left) ≠ 0x22 := by
        cases item <;> simp_all [StringToken.head]
      rw [if_neg hlong]
      rw [hbytes, List.cons_append] at h
      have hother : ∀ b : UInt8, b ≠ 0x22 → (match some b with
          | some 0x22 => (do advance; return a : Read α)
          | _ => failNext .expectedQuote) = failNext .expectedQuote := by
        intro b hb
        split
        · next heq => exact absurd (Option.some.inj heq) hb
        · rfl
      refine (meets_peek h).bind_ok fun c₁ h₁ => ?_
      rw [hother _ hquote]
      exact meets_mistaken rfl c₁

/-- **A name that is a number is read as it is judged.** -/
theorem meets_numericName {ctx : Context} (htracked : ctx.tracked = true) (kind : IntegerKind)
    (token : StringToken) (h : c.At (0x22 :: (StringToken.bytes token ++ tail))) :
    Meets tail (judgeKey kind token) (numericName ctx kind c) := by
  have hadvance := meets_advance h
  unfold numericName judgeKey
  -- What number the name begins with is settled by the string alone.
  rcases meets_signedNumber token with ⟨hnone, hnumber⟩ | ⟨v, left, hsome, hnumber⟩
  · rw [hnone]
    have hfirst : Meets tail (.error .mistaken : Verdict Value)
        (ctx.step none (do advance; signedNumber) c) :=
      Meets.step_none ctx (hadvance.bind_ok fun c₁ h₁ => hnumber tail c₁ h₁)
    exact hfirst.bind_error
  · rw [hsome]
    have hfirst : Meets (StringToken.bytes left ++ tail) (.ok v)
        (ctx.step none (do advance; signedNumber) c) :=
      Meets.step_none ctx (hadvance.bind_ok fun c₁ h₁ => hnumber tail c₁ h₁)
    refine hfirst.bind_ok fun c₂ h₂ => ?_
    cases v with
    | int i =>
        -- The number is checked first, and then that nothing follows it.
        refine Meets.step htracked _ ((meets_fitInteger kind _ h₂).fixing.bind fun i c₃ _ h₃ => ?_)
        exact meets_closingQuote left i h₃
    | _ => exact Meets.step_none ctx (Meets.fixing (meets_mismatch _ c₂))

/-! ## §2. Brackets and separators. -/

theorem meets_closeList {w : Blanks} (h : c.At (w.bytes ++ 0x5d :: tail)) :
    Meets tail (.ok ()) (closeList c) :=
  (meets_look rfl h).bind_ok fun _ h₁ => meets_advance h₁

theorem meets_closeObject {w : Blanks} (h : c.At (w.bytes ++ 0x7d :: tail)) :
    Meets tail (.ok ()) (closeObject c) :=
  (meets_look rfl h).bind_ok fun _ h₁ => meets_advance h₁

/-- **What stands between brackets is met, and then their end is.** -/
theorem meets_bracketed {α : Type} {v : Verdict α} {w : Verdict Unit} {close : Read Unit}
    {inside : Read α} {b : UInt8} {bytes : List UInt8} (h : c.At (b :: bytes))
    (hinside : ∀ c' : Cursor, c'.At bytes →
      MeetsThen (fun c'' => Meets tail w (close c'')) v (inside c')) :
    Meets tail (do let a ← v; w; return a) (bracketed close inside c) := by
  have hadvance : c.advance.At bytes := by
    rw [h.eq]
    exact ⟨rfl, rfl⟩
  have hrun := hinside _ hadvance
  unfold bracketed
  refine Meets.fixing ?_
  cases v with
  | ok a =>
      obtain ⟨c', hread, hc'⟩ := hrun
      rw [hread]
      dsimp only
      cases w with
      | ok u =>
          obtain ⟨c'', hclose, hc''⟩ := hc'
          rw [hclose]
          exact Meets.ok hc''
      | error flaw =>
          obtain ⟨e, c'', hclose, hcauses⟩ := hc'
          rw [hclose]
          exact ⟨e, c'', rfl, hcauses⟩
  | error flaw =>
      -- The brackets are closed all the same, but what was wrong inside them counts.
      obtain ⟨e, c', hread, hcauses⟩ := hrun
      rw [hread]
      cases hclose : close c' with
      | ok u c'' => exact ⟨e, c'', by simp only [hclose], hcauses⟩
      | error e' c'' => exact ⟨e, c'', by simp only [hclose], hcauses⟩

/-- What stands between brackets is met if their end follows. -/
theorem meets_closed {α : Type} {v : Verdict α} {close : Read Unit} {inside : Read α}
    {b end' : UInt8} {bytes : List UInt8}
    (hclose : ∀ c' : Cursor, c'.At (end' :: tail) → Meets tail (.ok ()) (close c'))
    (h : c.At (b :: bytes))
    (hinside : ∀ c' : Cursor, c'.At bytes → Meets (end' :: tail) v (inside c')) :
    Meets tail v (bracketed close inside c) := by
  have hrun := meets_bracketed h fun c' hc' => (hinside c' hc').mono hclose
  cases v <;> exact hrun

/-- The end of a list is no element. -/
theorem meets_hasItem_end (first : Bool) {w : Blanks} (h : c.At (w.bytes ++ 0x5d :: tail)) :
    Meets (0x5d :: tail) (.ok false) (hasItem first c) :=
  (meets_look rfl h).bind_ok fun _ h₁ => Meets.pure h₁

theorem meets_no_close {α : Type} {b : UInt8} {v : Verdict α} {close comma other ended : Read α}
    {bytes : List UInt8} (hclose : b ≠ 0x5d) (hcomma : b ≠ 0x2c) (h : Meets bytes v (other c)) :
    Meets bytes v ((match some b with
      | some 0x5d => close
      | some 0x2c => comma
      | some _ => other
      | none => ended) c) := by
  have hother : (match some b with
      | some 0x5d => close
      | some 0x2c => comma
      | some _ => other
      | none => ended) = other := by
    split
    · next hb => exact absurd (Option.some.inj hb) hclose
    · next hb => exact absurd (Option.some.inj hb) hcomma
    · rfl
    · next hb => cases hb
  rw [hother]
  exact h

theorem meets_item {α : Type} {b : UInt8} {v : Verdict α} {ended close : Read α}
    {other : UInt8 → Read α} {bytes : List UInt8} (hb : b ≠ 0x5d)
    (h : Meets bytes v (other b c)) :
    Meets bytes v ((match some b with
      | none => ended
      | some 0x5d => close
      | some d => other d) c) := by
  have hother : (match some b with
      | none => ended
      | some 0x5d => close
      | some d => other d) = other b := by
    split
    · next hnone => cases hnone
    · next hclose => exact absurd (Option.some.inj hclose) hb
    · next hd => rw [Option.some.inj hd]
  rw [hother]
  exact h

/-- **An element is announced**, and the cursor is before it. -/
theorem meets_hasItem (first : Bool) {leading before : Blanks} {value : Tree} {rest : Items}
    (h : c.At ((Items.cons leading before value rest).bytes first ++ 0x5d :: tail)) :
    Meets (value.bytes ++ (rest.bytes false ++ 0x5d :: tail)) (.ok true) (hasItem first c) := by
  unfold hasItem
  cases first with
  | true =>
      rw [Items.bytes_cons_first, value.bytes_eq, List.cons_append] at h
      refine (meets_look value.head_ne.1 h).bind_ok fun c₁ h₁ => ?_
      rw [← List.cons_append, ← value.bytes_eq] at h₁
      exact meets_item value.head_ne.2.2.1 (Meets.pure h₁)
  | false =>
      rw [Items.bytes_cons_later, value.bytes_eq, List.cons_append] at h
      refine (meets_look rfl h).bind_ok fun c₁ h₁ => (meets_advance h₁).bind_ok fun c₂ h₂ => ?_
      refine (meets_look value.head_ne.1 h₂).bind_ok fun c₃ h₃ => ?_
      rw [← List.cons_append, ← value.bytes_eq] at h₃
      exact meets_item value.head_ne.2.2.1 (Meets.pure h₃)

theorem meets_fault {o : Option UInt8} (c : Cursor) :
    Meets tail (.error .mistaken) ((match o with
      | some 0x5d => (failNext .trailingComma : Read Unit)
      | _ => failNext .trailingCharacters) c) := by
  have hfail : ∃ f : Fault, f.kind = .malformed ∧ (match o with
      | some 0x5d => (failNext .trailingComma : Read Unit)
      | _ => failNext .trailingCharacters) = failNext f := by
    split
    · exact ⟨.trailingComma, rfl, rfl⟩
    · exact ⟨.trailingCharacters, rfl, rfl⟩
  obtain ⟨f, hf, hmatch⟩ := hfail
  rw [hmatch]
  exact meets_mistaken hf c

/-- A list that goes on is not at its end. -/
theorem meets_closeList_extra (first : Bool) {leading before : Blanks} {value : Tree} {rest : Items}
    (h : c.At ((Items.cons leading before value rest).bytes first ++ 0x5d :: tail)) :
    Meets tail (.error .mistaken) (closeList c) := by
  unfold closeList
  cases first with
  | true =>
      rw [Items.bytes_cons_first, value.bytes_eq, List.cons_append] at h
      refine (meets_look value.head_ne.1 h).bind_ok fun c₁ h₁ => ?_
      exact meets_no_close value.head_ne.2.2.1 value.head_ne.2.1 (meets_mistaken rfl c₁)
  | false =>
      rw [Items.bytes_cons_later, value.bytes_eq, List.cons_append] at h
      refine (meets_look rfl h).bind_ok fun c₁ h₁ => (meets_advance h₁).bind_ok fun c₂ h₂ => ?_
      refine (meets_look value.head_ne.1 h₂).bind_ok fun c₃ h₃ => ?_
      exact meets_fault c₃

/-- The end of an object is no member. -/
theorem meets_hasMember_end (first : Bool) {w : Blanks} (h : c.At (w.bytes ++ 0x7d :: tail)) :
    Meets (0x7d :: tail) (.ok false) (hasMember first c) :=
  (meets_look rfl h).bind_ok fun _ h₁ => Meets.pure h₁

/-- **A member is announced**, and the cursor is before its name. -/
theorem meets_hasMember (first : Bool) {leading before : Blanks} {name : StringToken}
    {beforeColon behindColon : Blanks} {value : Tree} {rest : Members}
    (h : c.At ((Members.cons leading before name beforeColon behindColon value rest).bytes first
      ++ 0x7d :: tail)) :
    Meets (0x22 :: (StringToken.bytes name ++ (beforeColon.bytes ++ 0x3a :: (behindColon.bytes ++
        (value.bytes ++ (rest.bytes false ++ 0x7d :: tail)))))) (.ok true) (hasMember first c) := by
  cases first with
  | true =>
      rw [Members.bytes_cons_first] at h
      exact (meets_look rfl h).bind_ok fun c₁ h₁ => Meets.pure h₁
  | false =>
      rw [Members.bytes_cons_later] at h
      refine (meets_look rfl h).bind_ok fun c₁ h₁ => (meets_advance h₁).bind_ok fun c₂ h₂ => ?_
      exact (meets_look rfl h₂).bind_ok fun c₃ h₃ => Meets.pure h₃

theorem meets_memberName_end (ctx : Context) (first : Bool) {w : Blanks}
    (h : c.At (w.bytes ++ 0x7d :: tail)) :
    Meets (0x7d :: tail) (.ok none) (memberName ctx first c) :=
  Meets.step_none ctx ((meets_hasMember_end first h).bind_ok fun _ h₁ => Meets.pure h₁)

/-- **The name of a member is read**, and the cursor is behind it. -/
theorem meets_memberName (ctx : Context) (first : Bool) {leading before : Blanks}
    {name : StringToken} {beforeColon behindColon : Blanks} {value : Tree} {rest : Members}
    (h : c.At ((Members.cons leading before name beforeColon behindColon value rest).bytes first
      ++ 0x7d :: tail)) :
    Meets (beforeColon.bytes ++ 0x3a :: (behindColon.bytes ++ (value.bytes ++
        (rest.bytes false ++ 0x7d :: tail))))
      (meaning (StringToken.text? name) >>= fun s => .ok (some s)) (memberName ctx first c) := by
  refine Meets.step_none ctx ((meets_hasMember first h).bind_ok fun c₁ h₁ => ?_)
  exact (meets_advance h₁).bind_ok fun c₂ h₂ => (meets_string name h₂).map

end ErrorContract.Json
