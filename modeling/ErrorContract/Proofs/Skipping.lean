/-
  ErrorContract.Proofs.Skipping
  ─────────────────────────────
  **WHAT IS WELL-FORMED CAN BE SKIPPED.**

  Skipping a value never fails on a well-formed one, however deep its
  brackets nest and whatever its numbers and strings stand for.  The machine
  that skips takes its steps one at a time, with the open brackets on a list;
  `Tree.steps` counts the steps that a value needs, and they are never more
  than twice its bytes.
-/
import ErrorContract.Json.Skip
import ErrorContract.Proofs.Tokens

namespace ErrorContract.Json

open ErrorContract

variable {tail : List UInt8} {c : Cursor}

/-! ## §1. Strings. -/

theorem push_isSome {digits : HexDigits} {b : UInt8} (hdigits : digits.value.isSome = true)
    (hb : (hexValue b).isSome = true) : (digits.push b).isSome = true := by
  obtain ⟨n, hn⟩ := Option.isSome_iff_exists.mp hdigits
  obtain ⟨d, hd⟩ := Option.isSome_iff_exists.mp hb
  rw [HexDigits.push, hn, hd]
  rfl

theorem codeValue_isSome {a b c d : UInt8} (h : ∀ x ∈ [a, b, c, d], (hexValue x).isSome = true) :
    (codeValue a b c d).isSome = true := by
  unfold codeValue
  exact push_isSome (push_isSome (push_isSome (push_isSome rfl (h a (by simp))) (h b (by simp)))
    (h c (by simp))) (h d (by simp))

theorem skipScan_code {a b c d : UInt8} (h : ∀ x ∈ [a, b, c, d], (hexValue x).isSome = true)
    (offset : Nat) (rest : List UInt8) :
    skipScan offset .plain (0x5c :: 0x75 :: a :: b :: c :: d :: rest)
      = skipScan (offset + 6) .plain rest := by
  have hvalue := codeValue_isSome h
  unfold codeValue at hvalue
  rw [skipScan, if_neg (by decide), if_pos rfl, skipScan, if_pos rfl]
  simp only [skipScan]
  rw [if_pos (by decide), if_pos (by decide), if_pos (by decide), if_neg (by decide)]
  exact if_pos hvalue

/-- **The closing quote is found**, whatever the string stands for. -/
theorem exists_skipScan_eq (s : StringToken) (offset : Nat) :
    ∃ behind, skipScan offset .plain (StringToken.bytes s ++ tail) = .closed [] tail behind := by
  induction s generalizing offset with
  | nil => exact ⟨offset + 1, rfl⟩
  | cons item s ih =>
      rw [StringToken.bytes_cons]
      cases item with
      | byte b notQuote notBackslash notControl =>
          obtain ⟨behind, hbehind⟩ := ih (offset + 1)
          refine ⟨behind, ?_⟩
          show skipScan offset .plain (b :: (StringToken.bytes s ++ tail)) = _
          rw [skipScan, if_neg notQuote, if_neg notBackslash, if_neg notControl, hbehind]
      | short letter known =>
          obtain ⟨x, hx⟩ := Option.isSome_iff_exists.mp known
          obtain ⟨behind, hbehind⟩ := ih (offset + 2)
          refine ⟨behind, ?_⟩
          show skipScan offset .plain (0x5c :: letter :: (StringToken.bytes s ++ tail)) = _
          rw [skipScan, if_neg (by decide), if_pos rfl, skipScan, if_neg (known_ne_u hx),
            if_pos known, hbehind]
      | code a b c d isHex =>
          obtain ⟨behind, hbehind⟩ := ih (offset + 6)
          refine ⟨behind, ?_⟩
          show skipScan offset .plain
            (0x5c :: 0x75 :: a :: b :: c :: d :: (StringToken.bytes s ++ tail)) = _
          rw [skipScan_code isHex, hbehind]

theorem meets_skipString (s : StringToken) (h : c.At (StringToken.bytes s ++ tail)) :
    Meets tail (.ok ()) (skipString c) := by
  obtain ⟨behind, hbehind⟩ : ∃ behind,
      skipScan c.offset .plain (StringToken.bytes s ++ tail) = .closed [] tail behind :=
    exists_skipScan_eq s c.offset
  unfold skipString
  rw [h.1, hbehind]
  exact ⟨_, rfl, rfl, h.2⟩

/-! ## §2. Numbers. -/

theorem meets_skipExponentDigits (e : Exponent) (htail : EndsNumber tail)
    (h : c.At (e.first :: (e.more ++ tail))) : Meets tail (.ok ()) (skipExponentDigits c) := by
  refine (meets_next h).bind_ok fun c₁ h₁ => ?_
  simp only [e.isDigit_first, if_true]
  exact (meets_digitRun e.isDigit_more htail.noDigit h₁).bind_ok fun c₂ h₂ => Meets.pure h₂

theorem meets_skipExponent (e : Exponent) (htail : EndsNumber tail)
    (h : c.At (e.bytes ++ tail)) : Meets tail (.ok ()) (skipExponent c) := by
  have hwritten : c.At (e.letter :: (e.sign.toList ++ e.first :: (e.more ++ tail))) := by
    simpa [Exponent.bytes] using h
  unfold skipExponent
  refine (meets_advance hwritten).bind_ok fun c₁ h₁ => ?_
  cases hsign : e.sign with
  | none =>
      rw [hsign] at h₁
      refine (meets_peek h₁).bind_ok fun c₂ h₂ => ?_
      rw [(first_ne_sign e).1, (first_ne_sign e).2]
      exact meets_skipExponentDigits e htail h₂
  | some s =>
      rw [hsign] at h₁
      refine (meets_peek h₁).bind_ok fun c₂ h₂ => ?_
      rw [isSign_of_sign hsign]
      exact (meets_advance h₂).bind_ok fun c₃ h₃ => meets_skipExponentDigits e htail h₃

/-- The exponent behind a fraction can be skipped, if there is one. -/
theorem meets_skipExponent? (n : NumberToken) (htail : EndsNumber tail)
    (h : c.At (n.exponentBytes ++ tail)) :
    Meets tail (.ok ()) ((do
      match ← peek with
      | some 0x65 | some 0x45 => skipExponent
      | _ => pure () : Read Unit) c) := by
  unfold NumberToken.exponentBytes at h
  cases hexponent : n.exponent with
  | none =>
      rw [hexponent] at h
      change c.At tail at h
      refine (meets_peek_head? h).bind_ok fun c₁ h₁ => ?_
      exact meets_no_exponent htail (Meets.pure h₁)
  | some e =>
      rw [hexponent] at h
      refine (meets_peek h).bind_ok fun c₁ h₁ => ?_
      exact meets_letter e (meets_skipExponent e htail h₁)

/-- What follows the whole part of a number can be skipped. -/
theorem meets_skipNumberTail (n : NumberToken) (htail : EndsNumber tail)
    (h : c.At (n.fractionBytes ++ (n.exponentBytes ++ tail))) :
    Meets tail (.ok ()) (skipNumberTail c) := by
  unfold skipNumberTail
  by_cases hfraction : n.fraction = []
  · have hpoint : n.fractionBytes = [] := if_pos hfraction
    rw [hpoint, List.nil_append, NumberToken.exponentBytes] at h
    cases hexponent : n.exponent with
    | none =>
        rw [hexponent] at h
        change c.At tail at h
        refine (meets_peek_head? h).bind_ok fun c₁ h₁ => ?_
        exact meets_no_fraction htail (Meets.pure h₁)
    | some e =>
        rw [hexponent] at h
        refine (meets_peek h).bind_ok fun c₁ h₁ => ?_
        exact meets_letter_no_point e (meets_skipExponent e htail h₁)
  · have hpoint : n.fractionBytes = 0x2e :: n.fraction := if_neg hfraction
    have hsome : n.fraction.isEmpty = false := by simpa using hfraction
    rw [hpoint] at h
    refine (meets_peek h).bind_ok fun c₁ h₁ => ?_
    refine (meets_advance h₁).bind_ok fun c₂ h₂ => ?_
    refine (meets_digitRun n.isDigit_fraction (noDigit_exponentBytes n htail) h₂).bind_ok
      fun c₃ h₃ => ?_
    simp only [hsome]
    exact meets_skipExponent? n htail h₃

theorem meets_skipNumber (n : NumberToken) (htail : EndsNumber tail)
    (h : c.At (n.first :: (n.behindFirst ++ tail))) :
    Meets tail (.ok ()) (skipNumber c) := by
  have hwritten : c.At (n.first :: (n.more ++ (n.fractionBytes ++ (n.exponentBytes ++ tail)))) := by
    simpa [NumberToken.behindFirst] using h
  have hbehind := noDigit_fractionBytes n htail
  unfold skipNumber
  refine (meets_next hwritten).bind_ok fun c₁ h₁ => ?_
  by_cases hzero : n.first = 0x30
  · rw [n.more_eq_nil hzero, List.nil_append] at h₁
    rw [hzero]
    -- No digit may follow a zero.
    refine (meets_peek_head? h₁).bind_ok fun c₂ h₂ => ?_
    cases hhead : (n.fractionBytes ++ (n.exponentBytes ++ tail)).head? with
    | none =>
        have hnil := List.head?_eq_none_iff.mp hhead
        have htailnil : tail = [] := by simp_all
        rw [hnil, ← htailnil] at h₂
        exact Meets.pure h₂
    | some d =>
        have hd : isDigit d = false := hbehind d hhead
        simp only [hd]
        exact meets_skipNumberTail n htail h₂
  · refine meets_first hzero ?_
    simp only [n.isDigit_first, if_true]
    refine (meets_digitRun n.isDigit_more hbehind h₁).bind_ok fun c₂ h₂ => ?_
    exact meets_skipNumberTail n htail h₂

/-! ## §3. Values without brackets. -/

theorem isDigit_cases {b : UInt8} (h : isDigit b = true) :
    b = 0x30 ∨ b = 0x31 ∨ b = 0x32 ∨ b = 0x33 ∨ b = 0x34 ∨ b = 0x35 ∨ b = 0x36 ∨ b = 0x37
      ∨ b = 0x38 ∨ b = 0x39 := by
  have hbounds : 48 ≤ b.toNat ∧ b.toNat ≤ 57 := by
    simpa [isDigit, UInt8.le_iff_toNat_le] using h
  simp only [← UInt8.toNat_inj, UInt8.toNat_ofNat]
  omega

/-- A value without brackets is skipped as a whole, of others only the bracket is. -/
theorem meets_skipLeaf (t : Tree) {w : Blanks} (htail : EndsNumber tail)
    (h : c.At (w.bytes ++ (t.bytes ++ tail))) :
    match t with
    | .list items => Meets (items.bytes true ++ 0x5d :: tail) (.ok (some .list)) (skipLeaf c)
    | .object members =>
      Meets (members.bytes true ++ 0x7d :: tail) (.ok (some .object)) (skipLeaf c)
    | _ => Meets tail (.ok none) (skipLeaf c) := by
  unfold skipLeaf
  cases t with
  | null =>
      refine (meets_look rfl h).bind_ok fun c₁ h₁ => (meets_advance h₁).bind_ok fun c₂ h₂ => ?_
      exact (meets_literal nullTail h₂).bind_ok fun c₃ h₃ => Meets.pure h₃
  | truth b =>
      cases b with
      | true =>
          refine (meets_look rfl h).bind_ok fun c₁ h₁ => (meets_advance h₁).bind_ok fun c₂ h₂ => ?_
          exact (meets_literal trueTail h₂).bind_ok fun c₃ h₃ => Meets.pure h₃
      | false =>
          refine (meets_look rfl h).bind_ok fun c₁ h₁ => (meets_advance h₁).bind_ok fun c₂ h₂ => ?_
          exact (meets_literal falseTail h₂).bind_ok fun c₃ h₃ => Meets.pure h₃
  | string s =>
      refine (meets_look rfl h).bind_ok fun c₁ h₁ => (meets_advance h₁).bind_ok fun c₂ h₂ => ?_
      exact (meets_skipString s h₂).bind_ok fun c₃ h₃ => Meets.pure h₃
  | list items =>
      rw [Tree.bytes_list] at h
      exact (meets_look rfl h).bind_ok fun c₁ h₁ =>
        (meets_advance h₁).bind_ok fun c₂ h₂ => Meets.pure h₂
  | object members =>
      rw [Tree.bytes_object] at h
      exact (meets_look rfl h).bind_ok fun c₁ h₁ =>
        (meets_advance h₁).bind_ok fun c₂ h₂ => Meets.pure h₂
  | number n =>
      cases hnegative : n.negative with
      | true =>
          rw [Tree.bytes, NumberToken.bytes_of_negative hnegative] at h
          refine (meets_look rfl h).bind_ok fun c₁ h₁ =>
            (meets_advance h₁).bind_ok fun c₂ h₂ => ?_
          exact (meets_skipNumber n htail h₂).bind_ok fun c₃ h₃ => Meets.pure h₃
      | false =>
          rw [Tree.bytes, NumberToken.bytes_of_not_negative hnegative] at h
          have hblank : isBlank n.first = false := by
            rw [← Tree.head_of_not_negative hnegative]
            exact (Tree.number n).head_ne.1
          refine (meets_look hblank h).bind_ok fun c₁ h₁ => ?_
          have hskip : Meets tail (.ok none)
              ((do skipNumber; return none : Read (Option Bracket)) c₁) :=
            (meets_skipNumber n htail h₁).bind_ok fun c₂ h₂ => Meets.pure h₂
          -- The machine tells the ten digits apart.
          rcases isDigit_cases n.isDigit_first with hd | hd | hd | hd | hd | hd | hd | hd | hd | hd
            <;> (rw [hd]; exact hskip)

/-! ## §4. Values. -/

mutual

/-- The steps that it takes to skip a value. -/
def Tree.steps : Tree → Nat
  | .list items => items.steps + 2
  | .object members => members.steps + 2
  | _ => 1

/-- The steps that it takes to skip the elements of a list. -/
def Items.steps : Items → Nat
  | .nil _ => 0
  | .cons _ _ value rest => value.steps + rest.steps + 1

/-- The steps that it takes to skip the members of an object. -/
def Members.steps : Members → Nat
  | .nil _ => 0
  | .cons _ _ _ _ _ value rest => value.steps + rest.steps + 1

end

mutual

/-- **Twice as many steps as there are bytes are enough.** -/
theorem Tree.steps_lt (t : Tree) : t.steps < 2 * t.bytes.length := by
  have hpos := t.bytes_pos
  cases t with
  | list items =>
      have := items.steps_le true
      simp only [Tree.steps, Tree.bytes, List.length_cons, List.length_append]
      omega
  | object members =>
      have := members.steps_le true
      simp only [Tree.steps, Tree.bytes, List.length_cons, List.length_append]
      omega
  | _ =>
      show 1 < _
      omega

theorem Items.steps_le (items : Items) (first : Bool) :
    items.steps ≤ 2 * (items.bytes first).length := by
  cases items with
  | nil before => exact Nat.zero_le _
  | cons leading before value rest =>
      have := value.steps_lt
      have := rest.steps_le false
      simp only [Items.steps, Items.bytes, List.length_append]
      omega

theorem Members.steps_le (members : Members) (first : Bool) :
    members.steps ≤ 2 * (members.bytes first).length := by
  cases members with
  | nil before => exact Nat.zero_le _
  | cons leading before name beforeColon behindColon value rest =>
      have := value.steps_lt
      have := rest.steps_le false
      simp only [Members.steps, Members.bytes, List.length_append, List.length_cons]
      omega

end

/-- What is left to do behind a value inside these brackets. -/
def resume (steps : Nat) : List Bracket → Read Unit
  | [] => pure ()
  | bracket :: outer => skipSteps steps (.inside bracket true) outer

theorem skipSteps_value (steps : Nat) (outer : List Bracket) :
    skipSteps (steps + 1) .value outer = (do
      match ← skipLeaf with
      | some bracket => skipSteps steps (.inside bracket false) outer
      | none => resume steps outer) := by
  rw [skipSteps]
  congr 1
  funext leaf
  cases leaf <;> cases outer <;> rfl

theorem skipSteps_inside (steps : Nat) (bracket : Bracket) (begun : Bool) (outer : List Bracket) :
    skipSteps (steps + 1) (.inside bracket begun) outer = (do
      match ← look with
      | none => failNext bracket.ended
      | some b =>
        if b = bracket.closing then do
          advance
          resume steps outer
        else if begun then
          if b = 0x2c then do
            advance
            bracket.skipName
            skipSteps steps .value (bracket :: outer)
          else failNext bracket.notSeparated
        else do
          bracket.skipName
          skipSteps steps .value (bracket :: outer)) := by
  cases outer <;> rw [skipSteps] <;> rfl

section Steps

variable {tail final : List UInt8} {c : Cursor} {v : Verdict Unit} {n : Nat}
  {bracket : Bracket} {outer : List Bracket}

/-- Behind the last value its brackets are closed. -/
theorem meets_skipSteps_close {begun : Bool} {w : Blanks}
    (h : c.At (w.bytes ++ bracket.closing :: tail))
    (hnext : ∀ c' : Cursor, c'.At tail → Meets final v (resume n outer c')) :
    Meets final v (skipSteps (n + 1) (.inside bracket begun) outer c) := by
  have hblank : isBlank bracket.closing = false := by cases bracket <;> rfl
  rw [skipSteps_inside]
  refine (meets_look hblank h).bind_ok fun c₁ h₁ => ?_
  simp only [if_true]
  exact (meets_advance h₁).bind_ok hnext

/-- The first value inside brackets follows the bracket. -/
theorem meets_skipSteps_first {w : Blanks} {b : UInt8} {bytes : List UInt8}
    (hb : isBlank b = false) (hclosing : b ≠ bracket.closing) (h : c.At (w.bytes ++ b :: bytes))
    (hnext : ∀ c' : Cursor, c'.At (b :: bytes) →
      Meets final v ((bracket.skipName >>= fun _ => skipSteps n .value (bracket :: outer)) c')) :
    Meets final v (skipSteps (n + 1) (.inside bracket false) outer c) := by
  rw [skipSteps_inside]
  refine (meets_look hb h).bind_ok fun c₁ h₁ => ?_
  simp only [if_neg hclosing]
  exact hnext c₁ h₁

/-- A later value inside brackets follows a comma. -/
theorem meets_skipSteps_later {w : Blanks} {bytes : List UInt8}
    (h : c.At (w.bytes ++ 0x2c :: bytes))
    (hnext : ∀ c' : Cursor, c'.At bytes →
      Meets final v ((bracket.skipName >>= fun _ => skipSteps n .value (bracket :: outer)) c')) :
    Meets final v (skipSteps (n + 1) (.inside bracket true) outer c) := by
  have hclosing : 0x2c ≠ bracket.closing := by cases bracket <;> decide
  rw [skipSteps_inside]
  refine (meets_look rfl h).bind_ok fun c₁ h₁ => ?_
  simp only [if_neg hclosing, if_true]
  exact (meets_advance h₁).bind_ok hnext

/-- The name of a member is skipped up to its value. -/
theorem meets_skipName (name : StringToken) {w beforeColon : Blanks}
    (h : c.At (w.bytes
      ++ 0x22 :: (StringToken.bytes name ++ (beforeColon.bytes ++ 0x3a :: tail)))) :
    Meets tail (.ok ()) (Bracket.object.skipName c) := by
  unfold Bracket.skipName
  refine (meets_look rfl h).bind_ok fun c₁ h₁ => (meets_advance h₁).bind_ok fun c₂ h₂ => ?_
  exact (meets_skipString name h₂).bind_ok fun c₃ h₃ => meets_colon h₃

mutual

/-- **A value is skipped in its steps**, and then what is left is done. -/
theorem meets_skipSteps_value (t : Tree) {w : Blanks} {tail : List UInt8} {c : Cursor} {n : Nat}
    {outer : List Bracket} (htail : EndsNumber tail) (h : c.At (w.bytes ++ (t.bytes ++ tail)))
    (hnext : ∀ c' : Cursor, c'.At tail → Meets final v (resume n outer c')) :
    Meets final v (skipSteps (t.steps + n) .value outer c) := by
  have hleaf := meets_skipLeaf t htail h
  -- A leaf is one step. Of anything else the bracket is, and the machine goes on inside.
  cases t with
  | list items =>
      have hsteps : (Tree.list items).steps + n = items.steps + (n + 1) + 1 := by
        simp only [Tree.steps]
        omega
      rw [hsteps, skipSteps_value]
      exact hleaf.bind_ok fun c₁ h₁ => meets_skipSteps_items items true h₁ hnext
  | object members =>
      have hsteps : (Tree.object members).steps + n = members.steps + (n + 1) + 1 := by
        simp only [Tree.steps]
        omega
      rw [hsteps, skipSteps_value]
      exact hleaf.bind_ok fun c₁ h₁ => meets_skipSteps_members members true h₁ hnext
  | _ =>
      show Meets final v (skipSteps (1 + n) .value outer c)
      rw [Nat.add_comm, skipSteps_value]
      exact hleaf.bind_ok hnext

/-- The elements of a list are skipped, and its end is. -/
theorem meets_skipSteps_items (items : Items) (first : Bool) {tail : List UInt8} {c : Cursor}
    {n : Nat} {outer : List Bracket} (h : c.At (items.bytes first ++ 0x5d :: tail))
    (hnext : ∀ c' : Cursor, c'.At tail → Meets final v (resume n outer c')) :
    Meets final v (skipSteps (items.steps + (n + 1)) (.inside .list (!first)) outer c) := by
  cases items with
  | nil before =>
      show Meets final v (skipSteps (0 + (n + 1)) _ outer c)
      rw [Nat.zero_add]
      exact meets_skipSteps_close h hnext
  | cons leading before value rest =>
      have hsteps : (Items.cons leading before value rest).steps + (n + 1)
          = value.steps + (rest.steps + (n + 1)) + 1 := by
        simp only [Items.steps]
        omega
      have hrest := endsNumber_items rest tail
      -- When the element is over, the machine comes back to the rest of the list.
      have hbehind : ∀ c' : Cursor, c'.At (rest.bytes false ++ 0x5d :: tail) →
          Meets final v (resume (rest.steps + (n + 1)) (.list :: outer) c') :=
        fun c' hc' => meets_skipSteps_items rest false hc' hnext
      rw [hsteps]
      cases first with
      | true =>
          rw [Items.bytes_cons_first, Tree.bytes_eq, List.cons_append] at h
          refine meets_skipSteps_first value.head_ne.1 value.head_ne.2.2.1 h fun c₁ h₁ => ?_
          refine (Meets.pure h₁).bind_ok fun c₂ h₂ => ?_
          rw [← List.cons_append, ← Tree.bytes_eq] at h₂
          exact meets_skipSteps_value value (w := .empty) hrest h₂ hbehind
      | false =>
          rw [Items.bytes_cons_later] at h
          refine meets_skipSteps_later h fun c₁ h₁ => ?_
          refine (Meets.pure h₁).bind_ok fun c₂ h₂ => ?_
          exact meets_skipSteps_value value hrest h₂ hbehind

/-- The members of an object are skipped, and its end is. -/
theorem meets_skipSteps_members (members : Members) (first : Bool) {tail : List UInt8}
    {c : Cursor} {n : Nat} {outer : List Bracket} (h : c.At (members.bytes first ++ 0x7d :: tail))
    (hnext : ∀ c' : Cursor, c'.At tail → Meets final v (resume n outer c')) :
    Meets final v (skipSteps (members.steps + (n + 1)) (.inside .object (!first)) outer c) := by
  cases members with
  | nil before =>
      show Meets final v (skipSteps (0 + (n + 1)) _ outer c)
      rw [Nat.zero_add]
      exact meets_skipSteps_close h hnext
  | cons leading before name beforeColon behindColon value rest =>
      have hsteps : (Members.cons leading before name beforeColon behindColon value rest).steps
          + (n + 1) = value.steps + (rest.steps + (n + 1)) + 1 := by
        simp only [Members.steps]
        omega
      have hrest := endsNumber_members rest tail
      -- When the value is over, the machine comes back to the rest of the object.
      have hbehind : ∀ c' : Cursor, c'.At (rest.bytes false ++ 0x7d :: tail) →
          Meets final v (resume (rest.steps + (n + 1)) (.object :: outer) c') :=
        fun c' hc' => meets_skipSteps_members rest false hc' hnext
      rw [hsteps]
      cases first with
      | true =>
          rw [Members.bytes_cons_first] at h
          refine meets_skipSteps_first rfl (by decide) h fun c₁ h₁ => ?_
          refine (meets_skipName name (w := .empty) h₁).bind_ok fun c₂ h₂ => ?_
          exact meets_skipSteps_value value hrest h₂ hbehind
      | false =>
          rw [Members.bytes_cons_later] at h
          refine meets_skipSteps_later h fun c₁ h₁ => ?_
          refine (meets_skipName name h₁).bind_ok fun c₂ h₂ => ?_
          exact meets_skipSteps_value value hrest h₂ hbehind

end

end Steps

/-- **A well-formed value can be skipped**, if the body is no longer than announced. -/
theorem meets_skipValue (t : Tree) {w : Blanks} {bound : Nat} (hbound : t.bytes.length ≤ bound)
    (htail : EndsNumber tail) (h : c.At (w.bytes ++ (t.bytes ++ tail))) :
    Meets tail (.ok ()) (skipValue bound c) := by
  have hsteps : 2 * bound + 2 = t.steps + (2 * bound + 2 - t.steps) := by
    have := t.steps_lt
    omega
  unfold skipValue
  rw [hsteps]
  exact meets_skipSteps_value t htail h fun c' hc' => Meets.pure hc'

end ErrorContract.Json
