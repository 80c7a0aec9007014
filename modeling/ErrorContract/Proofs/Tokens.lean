/-
  ErrorContract.Proofs.Tokens
  ───────────────────────────
  **READING NUMBERS AND STRINGS.**

  The readers of numbers and strings meet what the tokens stand for,
  whatever follows: behind a number must stand nothing that continues it, a
  string ends by itself.
-/
import Mathlib.Data.List.TakeDrop
import ErrorContract.Proofs.MeetsVerdict

namespace ErrorContract.Json

open ErrorContract

/-! ## §1. Where a number ends. -/

/-- The bytes do not continue a number. -/
def EndsNumber (bytes : List UInt8) : Prop :=
  ∀ b ∈ bytes.head?, isDigit b = false ∧ b ≠ 0x2e ∧ b ≠ 0x65 ∧ b ≠ 0x45

/-- The bytes do not begin with a digit. -/
def NoDigit (bytes : List UInt8) : Prop := ∀ b ∈ bytes.head?, isDigit b = false

theorem EndsNumber.noDigit {bytes : List UInt8} (h : EndsNumber bytes) : NoDigit bytes :=
  fun b hb => (h b hb).1

theorem endsNumber_of_isBlank {b : UInt8} (bytes : List UInt8) (hb : isBlank b = true) :
    EndsNumber (b :: bytes) := by
  have hcases : b = 0x20 ∨ b = 0x0a ∨ b = 0x0d ∨ b = 0x09 := by
    simpa [isBlank, or_assoc] using hb
  intro d hd
  cases hd
  rcases hcases with rfl | rfl | rfl | rfl <;> decide

/-- Blanks in front of bytes that end a number do not change that. -/
theorem EndsNumber.append_blanks {bytes : List UInt8} (w : Blanks) (h : EndsNumber bytes) :
    EndsNumber (w.bytes ++ bytes) := by
  cases hw : w.bytes with
  | nil => exact h
  | cons b rest =>
      have hb := w.isBlank_of_mem b (hw ▸ List.mem_cons_self)
      exact endsNumber_of_isBlank (rest ++ bytes) hb

theorem endsNumber_nil : EndsNumber [] := by
  intro b hb
  cases hb

theorem endsNumber_comma (bytes : List UInt8) : EndsNumber (0x2c :: bytes) := by
  intro b hb
  cases hb
  decide

/-- Behind an element of a list no number goes on. -/
theorem endsNumber_items (items : Items) (tail : List UInt8) :
    EndsNumber (items.bytes false ++ 0x5d :: tail) := by
  have hclose : EndsNumber (0x5d :: tail) := by
    intro b hb
    cases hb
    decide
  cases items with
  | nil before => exact hclose.append_blanks before
  | cons leading before value rest =>
      rw [Items.bytes, List.append_assoc]
      exact (endsNumber_comma _).append_blanks leading

/-- Behind the value of a member no number goes on. -/
theorem endsNumber_members (members : Members) (tail : List UInt8) :
    EndsNumber (members.bytes false ++ 0x7d :: tail) := by
  have hclose : EndsNumber (0x7d :: tail) := by
    intro b hb
    cases hb
    decide
  cases members with
  | nil before => exact hclose.append_blanks before
  | cons leading before name beforeColon behindColon value rest =>
      rw [Members.bytes, List.append_assoc]
      exact (endsNumber_comma _).append_blanks leading

section Numbers

variable {tail bytes digits : List UInt8} {c : Cursor} {b : UInt8}

theorem meets_peek_head? (h : c.At bytes) : Meets bytes (.ok bytes.head?) (peek c) := by
  cases bytes with
  | nil => exact meets_peek_end h
  | cons b bytes => exact meets_peek h

theorem span_digits (hdigits : ∀ d ∈ digits, isDigit d = true) (htail : NoDigit tail) :
    (digits ++ tail).span isDigit = (digits, tail) := by
  have hnone : tail.takeWhile isDigit = [] ∧ tail.dropWhile isDigit = tail := by
    cases tail with
    | nil => exact ⟨rfl, rfl⟩
    | cons b tail =>
        have hb := htail b rfl
        simp [hb]
  rw [List.span_eq_takeWhile_dropWhile, List.takeWhile_append_of_pos hdigits,
    List.dropWhile_append_of_pos hdigits, hnone.1, hnone.2, List.append_nil]

theorem meets_digitRun (hdigits : ∀ d ∈ digits, isDigit d = true) (htail : NoDigit tail)
    (h : c.At (digits ++ tail)) : Meets tail (.ok digits) (digitRun c) := by
  unfold digitRun
  rw [h.1, span_digits hdigits htail]
  exact ⟨_, rfl, rfl, h.2⟩

theorem meets_floating {positive : Bool} {significand : Nat} {power : Int} (h : c.At tail) :
    Meets tail (meaning (floating? positive significand power))
      (floating positive significand power c) := by
  unfold floating floating?
  cases combine significand power with
  | some x => exact Meets.pure h
  | none => exact ⟨_, _, rfl, show Fault.kind .numberOutOfRange = .malformed by decide⟩

theorem meets_exponentDigits (e : Exponent) {positive : Bool} {significand : Nat} {power : Int}
    (htail : EndsNumber tail) (h : c.At (e.first :: (e.more ++ tail))) :
    Meets tail (meaning (e.value? positive significand power))
      (exponentDigits positive e.negative significand power c) := by
  unfold exponentDigits Exponent.value?
  refine (meets_next h).bind_ok fun c₁ h₁ => ?_
  simp only [e.isDigit_first, Bool.not_true, Bool.false_eq_true, if_false]
  refine (meets_digitRun e.isDigit_more htail.noDigit h₁).bind_ok fun c₂ h₂ => ?_
  obtain ⟨n, excess⟩ := gather exponentLimit (digitValue e.first) e.more
  -- Either all digits fit, or the exponent is beyond every limit.
  by_cases hexcess : excess.isEmpty = true
  · simp only [hexcess, if_true]
    exact (meets_peek_head? h₂).bind_ok fun c₃ h₃ => meets_floating h₃
  · simp only [hexcess]
    by_cases hrange : (significand != 0 && !e.negative) = true
    · simp only [hrange, if_true]
      exact ⟨_, _, rfl, show Fault.kind .numberOutOfRange = .malformed by decide⟩
    · simp only [hrange]
      exact (meets_peek_head? h₂).bind_ok fun c₃ h₃ => Meets.pure h₃

/-- A digit is no sign. -/
theorem first_ne_sign (e : Exponent) :
    (some e.first == some 0x2d) = false ∧ (some e.first == some 0x2b) = false := by
  constructor
  · simpa using ne_of_isDigit e.isDigit_first rfl
  · simpa using ne_of_isDigit e.isDigit_first rfl

theorem isSign_of_sign {e : Exponent} {s : UInt8} (h : e.sign = some s) :
    (some s == some 0x2d || some s == some 0x2b) = true := by
  rcases e.sign_eq s h with rfl | rfl <;> rfl

/-- The sign of an exponent is passed over, and the digits behind it are read. -/
theorem meets_exponent (e : Exponent) {positive : Bool} {significand : Nat} {power : Int}
    (htail : EndsNumber tail) (h : c.At (e.bytes ++ tail)) :
    Meets tail (meaning (e.value? positive significand power))
      (exponent positive significand power c) := by
  have hwritten : c.At (e.letter :: (e.sign.toList ++ e.first :: (e.more ++ tail))) := by
    simpa [Exponent.bytes] using h
  have hdigits : ∀ c' : Cursor, c'.At (e.first :: (e.more ++ tail)) →
      Meets tail (meaning (e.value? positive significand power))
        (exponentDigits positive e.negative significand power c') :=
    fun c' hc' => meets_exponentDigits e htail hc'
  unfold Exponent.negative at hdigits
  unfold exponent
  refine (meets_advance hwritten).bind_ok fun c₁ h₁ => ?_
  cases hsign : e.sign with
  | none =>
      rw [hsign] at h₁ hdigits
      -- The reader looks for either sign and finds the first digit both times.
      refine (meets_peek h₁).bind_ok fun c₂ h₂ => (meets_peek h₂).bind_ok fun c₃ h₃ => ?_
      rw [(first_ne_sign e).1, (first_ne_sign e).2]
      exact hdigits c₃ h₃
  | some s =>
      rw [hsign] at h₁ hdigits
      refine (meets_peek h₁).bind_ok fun c₂ h₂ => (meets_peek h₂).bind_ok fun c₃ h₃ => ?_
      rw [isSign_of_sign hsign]
      exact (meets_advance h₃).bind_ok fun c₄ h₄ => hdigits c₄ h₄

/-- The letter of an exponent is found. -/
theorem meets_letter {α : Type} (e : Exponent) {v : Verdict α} {other next : Read α}
    (h : Meets tail v (other c)) :
    Meets tail v ((match some e.letter with
      | some 0x65 | some 0x45 => other
      | _ => next) c) := by
  rcases e.letter_eq with hletter | hletter
  · rw [hletter]
    exact h
  · rw [hletter]
    exact h

/-- The letter of an exponent is found where a point could be as well. -/
theorem meets_letter_no_point {α : Type} (e : Exponent) {v : Verdict α}
    {point letter next : Read α} (h : Meets tail v (letter c)) :
    Meets tail v ((match some e.letter with
      | some 0x2e => point
      | some 0x65 | some 0x45 => letter
      | _ => next) c) := by
  rcases e.letter_eq with hletter | hletter
  · rw [hletter]
    exact h
  · rw [hletter]
    exact h

/-- No exponent follows behind the end of a number. -/
theorem meets_no_exponent {α : Type} {v : Verdict α} {other next : Read α}
    (htail : EndsNumber tail) (h : Meets tail v (next c)) :
    Meets tail v ((match tail.head? with
      | some 0x65 | some 0x45 => other
      | _ => next) c) := by
  have hnext : (match tail.head? with
      | some 0x65 | some 0x45 => other
      | _ => next) = next := by
    split
    · next hletter => exact absurd rfl (htail _ hletter).2.2.1
    · next hletter => exact absurd rfl (htail _ hletter).2.2.2
    · rfl
  rw [hnext]
  exact h

/-- Nor does a fraction. -/
theorem meets_no_fraction {α : Type} {v : Verdict α} {point letter next : Read α}
    (htail : EndsNumber tail) (h : Meets tail v (next c)) :
    Meets tail v ((match tail.head? with
      | some 0x2e => point
      | some 0x65 | some 0x45 => letter
      | _ => next) c) := by
  have hnext : (match tail.head? with
      | some 0x2e => point
      | some 0x65 | some 0x45 => letter
      | _ => next) = next := by
    split
    · next hpoint => exact absurd rfl (htail _ hpoint).2.1
    · next hletter => exact absurd rfl (htail _ hletter).2.2.1
    · next hletter => exact absurd rfl (htail _ hletter).2.2.2
    · rfl
  rw [hnext]
  exact h

/-- A first digit other than zero is like any other digit. -/
theorem meets_first {α : Type} {b : UInt8} {v : Verdict α} {ended zero : Read α}
    {other : UInt8 → Read α} (hb : b ≠ 0x30) (h : Meets tail v (other b c)) :
    Meets tail v ((match some b with
      | none => ended
      | some 0x30 => zero
      | some d => other d) c) := by
  have hother : (match some b with
      | none => ended
      | some 0x30 => zero
      | some d => other d) = other b := by
    split
    · next hnone => cases hnone
    · next hzero => exact absurd (Option.some.inj hzero) hb
    · next hd => rw [Option.some.inj hd]
  rw [hother]
  exact h

theorem noDigit_exponentBytes (n : NumberToken) (htail : EndsNumber tail) :
    NoDigit (n.exponentBytes ++ tail) := by
  unfold NumberToken.exponentBytes
  cases n.exponent with
  | none => exact htail.noDigit
  | some e =>
      intro b hb
      cases hb
      rcases e.letter_eq with h | h <;> rw [h] <;> rfl

theorem meets_fraction (n : NumberToken) {positive : Bool} {significand : Nat} {power : Int}
    (hfraction : n.fraction ≠ []) (htail : EndsNumber tail)
    (h : c.At (0x2e :: (n.fraction ++ (n.exponentBytes ++ tail)))) :
    Meets tail (meaning (fractionValue? positive significand power n.fraction n.exponent))
      (fraction positive significand power c) := by
  unfold fraction fractionValue?
  refine (meets_advance h).bind_ok fun c₁ h₁ => ?_
  refine (meets_digitRun n.isDigit_fraction (noDigit_exponentBytes n htail) h₁).bind_ok
    fun c₂ h₂ => ?_
  have hsome : n.fraction.isEmpty = false := by simpa using hfraction
  simp only [hsome]
  obtain ⟨m, excess⟩ := gather wordLimit significand n.fraction
  -- Behind the digits stands the letter of the exponent, or what ends the number.
  unfold NumberToken.exponentBytes at h₂
  cases hexponent : n.exponent with
  | none =>
      rw [hexponent] at h₂
      refine (meets_peek_head? h₂).bind_ok fun c₃ h₃ => ?_
      exact meets_no_exponent htail (meets_floating h₃)
  | some e =>
      rw [hexponent] at h₂
      refine (meets_peek h₂).bind_ok fun c₃ h₃ => ?_
      exact meets_letter e (meets_exponent e htail h₃)

theorem meets_behindWhole (n : NumberToken) {positive : Bool} {significand : Nat}
    {excess : List UInt8} (htail : EndsNumber tail)
    (h : c.At (n.fractionBytes ++ (n.exponentBytes ++ tail))) :
    Meets tail (meaning (if n.fraction = [] then
        match n.exponent with
        | some e => e.value? positive significand excess.length
        | none =>
          if excess.isEmpty then some (whole positive significand)
          else floating? positive significand excess.length
      else fractionValue? positive significand excess.length n.fraction n.exponent))
      (behindWhole positive significand excess c) := by
  unfold behindWhole
  -- Three things may follow the whole part: nothing, an exponent, or a fraction.
  by_cases hfraction : n.fraction = []
  · have hpoint : n.fractionBytes = [] := if_pos hfraction
    rw [if_pos hfraction]
    rw [hpoint, List.nil_append, NumberToken.exponentBytes] at h
    cases hexponent : n.exponent with
    | none =>
        rw [hexponent] at h
        change c.At tail at h
        refine (meets_peek_head? h).bind_ok fun c₁ h₁ => ?_
        refine meets_no_fraction htail ?_
        by_cases hexcess : excess.isEmpty = true
        · simp only [hexcess, if_true]
          exact Meets.pure h₁
        · simp only [hexcess]
          exact meets_floating h₁
    | some e =>
        rw [hexponent] at h
        refine (meets_peek h).bind_ok fun c₁ h₁ => ?_
        exact meets_letter_no_point e (meets_exponent e htail h₁)
  · have hpoint : n.fractionBytes = 0x2e :: n.fraction := if_neg hfraction
    rw [if_neg hfraction]
    rw [hpoint] at h
    exact (meets_peek h).bind_ok fun c₁ h₁ => meets_fraction n hfraction htail h₁

theorem noDigit_fractionBytes (n : NumberToken) (htail : EndsNumber tail) :
    NoDigit (n.fractionBytes ++ (n.exponentBytes ++ tail)) := by
  unfold NumberToken.fractionBytes
  by_cases hfraction : n.fraction = []
  · rw [if_pos hfraction]
    exact noDigit_exponentBytes n htail
  · rw [if_neg hfraction]
    intro b hb
    cases hb
    rfl

/-- **A number is read as what it stands for.** -/
theorem meets_number (n : NumberToken) (htail : EndsNumber tail)
    (h : c.At (n.first :: (n.behindFirst ++ tail))) :
    Meets tail (meaning n.value?) (number (!n.negative) c) := by
  have hwritten : c.At (n.first :: (n.more ++ (n.fractionBytes ++ (n.exponentBytes ++ tail)))) := by
    simpa [NumberToken.behindFirst] using h
  have hbehind := noDigit_fractionBytes n htail
  unfold number NumberToken.value?
  refine (meets_next hwritten).bind_ok fun c₁ h₁ => ?_
  by_cases hzero : n.first = 0x30
  · -- a zero is the whole part, and no digit follows it
    rw [n.more_eq_nil hzero] at h₁ ⊢
    rw [hzero]
    refine (meets_peek_head? h₁).bind_ok fun c₂ h₂ => ?_
    have hany : (List.head? ([] ++ (n.fractionBytes ++ (n.exponentBytes ++ tail)))).any isDigit
        = false := by
      rw [List.nil_append, Option.any_eq_false]
      exact hbehind
    rw [hany]
    exact meets_behindWhole n htail h₂
  · refine meets_first hzero ?_
    rw [if_neg (by simp [n.isDigit_first])]
    refine (meets_digitRun n.isDigit_more hbehind h₁).bind_ok fun c₂ h₂ => ?_
    exact meets_behindWhole n htail h₂

end Numbers

/-! ## §2. Where a string stands does not matter. -/

/-- A piece, wherever it stands. -/
def Piece.unplaced : Piece → Piece
  | .run _ bytes => .run 0 bytes
  | .char c => .char c

/-- Pieces that differ in their places only. -/
def SamePieces (ps qs : List Piece) : Prop := ps.map Piece.unplaced = qs.map Piece.unplaced

/-- Scans of one string with different bytes behind it end alike, each before its own. -/
def Scan.Agree (tail tail' : List UInt8) : Scan → Scan → Prop
  | .closed ps rest _, .closed qs rest' _ => SamePieces ps qs ∧ rest = tail ∧ rest' = tail'
  | .fault f _, .fault g _ => f.kind = .malformed ∧ g.kind = .malformed
  | _, _ => False

theorem SamePieces.flush {ps qs : List Piece} (h : SamePieces ps qs) (start start' : Nat)
    (run : List UInt8) : SamePieces (flush start run ps) (flush start' run qs) := by
  unfold Json.flush
  cases run with
  | nil => exact h
  | cons b run => exact congrArg (Piece.run 0 (b :: run).reverse :: ·) h

theorem SamePieces.char {ps qs : List Piece} (h : SamePieces ps qs) (c : Char) :
    SamePieces (.char c :: ps) (.char c :: qs) := congrArg (Piece.char c :: ·) h

theorem SamePieces.reverse {ps qs : List Piece} (h : SamePieces ps qs) :
    SamePieces ps.reverse qs.reverse := by
  rw [SamePieces, List.map_reverse, List.map_reverse, h]

/-- Places matter only to the report of what is no text. -/
theorem SamePieces.decode {ps qs : List Piece} (h : SamePieces ps qs) :
    (decodePieces ps).toOption = (decodePieces qs).toOption := by
  induction ps generalizing qs with
  | nil =>
      cases qs with
      | nil => rfl
      | cons q qs => cases h
  | cons p ps ih =>
      cases qs with
      | nil => cases h
      | cons q qs =>
          obtain ⟨hhead, htail⟩ := List.cons.inj h
          have hrest := ih htail
          cases p with
          | run start bytes =>
              cases q with
              | char c => cases hhead
              | run start' bytes' =>
                  cases hhead
                  -- Equal bytes are decoded alike, or neither is text.
                  unfold decodePieces
                  cases Utf8.decode bytes with
                  | error e => rfl
                  | ok cs =>
                      cases hps : decodePieces ps <;> cases hqs : decodePieces qs <;>
                        rw [hps, hqs] at hrest <;> cases hrest <;> rfl
          | char c =>
              cases q with
              | run start' bytes' => cases hhead
              | char c' =>
                  cases hhead
                  unfold decodePieces
                  cases hps : decodePieces ps <;> cases hqs : decodePieces qs <;>
                    rw [hps, hqs] at hrest <;> cases hrest <;> rfl

/-- The number that four digits make, if they are all digits. -/
def codeValue (a b c d : UInt8) : Option Nat :=
  let first := (⟨4, some 0⟩ : HexDigits).push a
  let second := (⟨3, first⟩ : HexDigits).push b
  let third := (⟨2, second⟩ : HexDigits).push c
  (⟨1, third⟩ : HexDigits).push d

section Strings

variable {offset start offset' start' : Nat} {ps qs : List Piece} {tail tail' : List UInt8}

theorem known_ne_u {letter : UInt8} {x : Char} (h : shortEscape letter = some x) :
    letter ≠ 0x75 := by
  rintro rfl
  cases h

theorem scan_byte {b : UInt8} (notQuote : b ≠ 0x22) (notBackslash : b ≠ 0x5c)
    (notControl : ¬ b < 0x20) (run rest : List UInt8) :
    scan offset start run ps .plain (b :: rest)
      = scan (offset + 1) start (b :: run) ps .plain rest := by
  rw [scan, if_neg notQuote, if_neg notBackslash, if_neg notControl]

theorem scan_short {letter : UInt8} {x : Char} (h : shortEscape letter = some x)
    (run rest : List UInt8) :
    scan offset start run ps .plain (0x5c :: letter :: rest)
      = scan (offset + 2) (offset + 2) [] (.char x :: flush start run ps) .plain rest := by
  rw [scan, if_neg (by decide), if_pos rfl, scan, if_neg (known_ne_u h), h]

theorem scan_u (run rest : List UInt8) :
    scan offset start run ps .plain (0x5c :: 0x75 :: rest)
      = scan (offset + 2) start [] (flush start run ps) (.hex ⟨4, some 0⟩ none) rest := by
  rw [scan, if_neg (by decide), if_pos rfl, scan, if_pos rfl]

theorem scan_low_byte {b : UInt8} (notBackslash : b ≠ 0x5c) (high : Nat) (rest : List UInt8) :
    scan offset start [] ps (.lowBackslash high) (b :: rest)
      = .fault .endOfEscape (offset + 1) := by
  rw [scan, if_neg notBackslash]

theorem scan_low_short {letter : UInt8} (h : letter ≠ 0x75) (high : Nat) (rest : List UInt8) :
    scan offset start [] ps (.lowBackslash high) (0x5c :: letter :: rest)
      = .fault .endOfEscape (offset + 2) := by
  rw [scan, if_pos rfl, scan, if_neg h]

theorem scan_low_u (high : Nat) (rest : List UInt8) :
    scan offset start [] ps (.lowBackslash high) (0x5c :: 0x75 :: rest)
      = scan (offset + 2) start [] ps (.hex ⟨4, some 0⟩ (some high)) rest := by
  rw [scan, if_pos rfl, scan, if_pos rfl]

theorem scan_code (high : Option Nat) (a b c d : UInt8) (rest : List UInt8) :
    scan offset start [] ps (.hex ⟨4, some 0⟩ high) (a :: b :: c :: d :: rest)
      = match escapeMeaning high (codeValue a b c d) with
        | .char x => scan (offset + 4) (offset + 4) [] (.char x :: ps) .plain rest
        | .leading h => scan (offset + 4) start [] ps (.lowBackslash h) rest
        | .fault f => .fault f (offset + 4) := by
  simp only [scan, codeValue]
  rfl

theorem kind_of_escapeMeaning {high value : Option Nat} {f : Fault}
    (h : escapeMeaning high value = .fault f) : f.kind = .malformed := by
  unfold escapeMeaning at h
  cases value with
  | none =>
      cases h
      decide
  | some n =>
      cases high with
      | none =>
          by_cases hlow : (decide (0xdc00 ≤ n) && decide (n ≤ 0xdfff)) = true
          · simp only [hlow, if_true] at h
            cases h
            decide
          · by_cases hhigh : (decide (0xd800 ≤ n) && decide (n ≤ 0xdbff)) = true
            · simp [hlow, hhigh] at h
            · simp [hlow, hhigh] at h
      | some m =>
          by_cases hlow : (decide (0xdc00 ≤ n) && decide (n ≤ 0xdfff)) = true
          · simp [hlow] at h
          · simp only [hlow] at h
            cases h
            decide

/-- Four digits are read alike, if what is behind them is. -/
theorem agree_code {rest rest' : List UInt8} (high : Option Nat) (a b c d : UInt8)
    (hsame : SamePieces ps qs)
    (hplain : ∀ ps' qs', SamePieces ps' qs' → Scan.Agree tail tail'
      (scan (offset + 4) (offset + 4) [] ps' .plain rest)
      (scan (offset' + 4) (offset' + 4) [] qs' .plain rest'))
    (hlow : ∀ h, Scan.Agree tail tail'
      (scan (offset + 4) start [] ps (.lowBackslash h) rest)
      (scan (offset' + 4) start' [] qs (.lowBackslash h) rest')) :
    Scan.Agree tail tail'
      (scan offset start [] ps (.hex ⟨4, some 0⟩ high) (a :: b :: c :: d :: rest))
      (scan offset' start' [] qs (.hex ⟨4, some 0⟩ high) (a :: b :: c :: d :: rest')) := by
  rw [scan_code, scan_code]
  cases h : escapeMeaning high (codeValue a b c d) with
  | char x => exact hplain _ _ (hsame.char x)
  | leading m => exact hlow m
  | fault f => exact ⟨kind_of_escapeMeaning h, kind_of_escapeMeaning h⟩

/-- **A string is scanned alike wherever it stands and whatever follows it**, between characters
as well as behind a leading surrogate. -/
theorem scan_agree (tail tail' : List UInt8) (s : StringToken) :
    (∀ (offset start offset' start' : Nat) (run : List UInt8) (ps qs : List Piece),
      SamePieces ps qs → Scan.Agree tail tail'
        (scan offset start run ps .plain (StringToken.bytes s ++ tail))
        (scan offset' start' run qs .plain (StringToken.bytes s ++ tail')))
    ∧ ∀ (offset start offset' start' : Nat) (ps qs : List Piece) (high : Nat),
      SamePieces ps qs → Scan.Agree tail tail'
        (scan offset start [] ps (.lowBackslash high) (StringToken.bytes s ++ tail))
        (scan offset' start' [] qs (.lowBackslash high) (StringToken.bytes s ++ tail')) := by
  -- The induction is on the pieces. A leading surrogate leaves the scan waiting for its other half,
  -- so both states are taken through the induction together.
  induction s with
  | nil =>
      constructor
      · intro offset start offset' start' run ps qs hsame
        exact ⟨(hsame.flush start start' run).reverse, rfl, rfl⟩
      · intro offset start offset' start' ps qs high hsame
        exact ⟨by decide, by decide⟩
  | cons item s ih =>
      obtain ⟨ihPlain, ihLow⟩ := ih
      rw [StringToken.bytes_cons]
      cases item with
      | byte b notQuote notBackslash notControl =>
          constructor
          · intro offset start offset' start' run ps qs hsame
            show Scan.Agree _ _ (scan _ _ _ _ _ (b :: (StringToken.bytes s ++ tail)))
              (scan _ _ _ _ _ (b :: (StringToken.bytes s ++ tail')))
            rw [scan_byte notQuote notBackslash notControl,
              scan_byte notQuote notBackslash notControl]
            exact ihPlain _ _ _ _ _ _ _ hsame
          · intro offset start offset' start' ps qs high hsame
            show Scan.Agree _ _ (scan _ _ _ _ _ (b :: (StringToken.bytes s ++ tail)))
              (scan _ _ _ _ _ (b :: (StringToken.bytes s ++ tail')))
            rw [scan_low_byte notBackslash, scan_low_byte notBackslash]
            exact ⟨by decide, by decide⟩
      | short letter known =>
          obtain ⟨x, hx⟩ := Option.isSome_iff_exists.mp known
          constructor
          · intro offset start offset' start' run ps qs hsame
            show Scan.Agree _ _ (scan _ _ _ _ _ (0x5c :: letter :: (StringToken.bytes s ++ tail)))
              (scan _ _ _ _ _ (0x5c :: letter :: (StringToken.bytes s ++ tail')))
            rw [scan_short hx, scan_short hx]
            exact ihPlain _ _ _ _ _ _ _ ((hsame.flush start start' run).char x)
          · intro offset start offset' start' ps qs high hsame
            show Scan.Agree _ _ (scan _ _ _ _ _ (0x5c :: letter :: (StringToken.bytes s ++ tail)))
              (scan _ _ _ _ _ (0x5c :: letter :: (StringToken.bytes s ++ tail')))
            rw [scan_low_short (known_ne_u hx), scan_low_short (known_ne_u hx)]
            exact ⟨by decide, by decide⟩
      -- Whatever the digits stand for, both scans take the same turn.
      | code a b c d isHex =>
          constructor
          · intro offset start offset' start' run ps qs hsame
            show Scan.Agree _ _
              (scan _ _ _ _ _ (0x5c :: 0x75 :: a :: b :: c :: d :: (StringToken.bytes s ++ tail)))
              (scan _ _ _ _ _ (0x5c :: 0x75 :: a :: b :: c :: d :: (StringToken.bytes s ++ tail')))
            rw [scan_u, scan_u]
            exact agree_code none a b c d (hsame.flush start start' run)
              (fun _ _ h => ihPlain _ _ _ _ _ _ _ h)
              (fun m => ihLow _ _ _ _ _ _ m (hsame.flush start start' run))
          · intro offset start offset' start' ps qs high hsame
            show Scan.Agree _ _
              (scan _ _ _ _ _ (0x5c :: 0x75 :: a :: b :: c :: d :: (StringToken.bytes s ++ tail)))
              (scan _ _ _ _ _ (0x5c :: 0x75 :: a :: b :: c :: d :: (StringToken.bytes s ++ tail')))
            rw [scan_low_u, scan_low_u]
            exact agree_code (some high) a b c d hsame
              (fun _ _ h => ihPlain _ _ _ _ _ _ _ h) (fun m => ihLow _ _ _ _ _ _ m hsame)

/-- **A string is read as what it stands for.** -/
theorem meets_string (s : StringToken) {c : Cursor} (h : c.At (StringToken.bytes s ++ tail)) :
    Meets tail (meaning (StringToken.text? s)) (string c) := by
  have hagree := (scan_agree tail [] s).1 c.offset c.offset 0 0 [] [] [] rfl
  rw [List.append_nil] at hagree
  unfold string StringToken.text?
  rw [h.1, h.2]
  -- From here on only the two outcomes matter.
  generalize scan c.offset c.offset [] [] .plain (StringToken.bytes s ++ tail) = here at hagree ⊢
  generalize scan 0 0 [] [] .plain (StringToken.bytes s) = alone at hagree ⊢
  cases here with
  | ended _ => cases hagree
  | fault f offset =>
      cases alone with
      | fault g _ => exact ⟨_, _, rfl, hagree.1⟩
      | _ => cases hagree
  | closed pieces rest offset =>
      cases alone with
      | closed pieces' rest' offset' =>
          obtain ⟨hsame, rfl, rfl⟩ := hagree
          have hdecode := hsame.decode
          cases hp : decodePieces pieces <;> cases hq : decodePieces pieces' <;>
            rw [hp, hq] at hdecode <;> cases hdecode
          · simp only [hp, hq]
            exact Meets.meaningless (by simp [Fault.kind])
          · simp only [hp, hq]
            exact Meets.ok ⟨rfl, rfl⟩
      | _ => cases hagree

end Strings

end ErrorContract.Json
