/-
  ErrorContract.Proofs.AcceptedTokens
  ───────────────────────────────────
  **WHAT A READER HAS TAKEN.**

  A reader that succeeds has taken bytes off the front of what was to come.
  Here it is said, reader by reader, which bytes those can be: blanks, a
  word, a number, a string.  Nothing is asked of the body; that its bytes are
  so is what the success of the reader tells.

  A run is taken apart where readers are put together
  (`exists_of_bind_ok`), so each reader needs one lemma here as well.
-/
import Mathlib.Data.List.TakeDrop
import Mathlib.Data.List.TakeWhile
import ErrorContract.Json.Skip
import ErrorContract.Proofs.Grammar

namespace ErrorContract.Json

open ErrorContract

section Bytes

variable {α β : Type} {c c' c'' : Cursor} {b : UInt8} {o : Option UInt8}

/-! ## §1. Runs that succeed. -/

theorem exists_of_bind_ok {read : Read α} {next : α → Read β} {y : β}
    (h : (read >>= next) c = .ok y c'') :
    ∃ a c', read c = .ok a c' ∧ next a c' = .ok y c'' := by
  change EStateM.bind read next c = _ at h
  unfold EStateM.bind at h
  cases hread : read c with
  | ok a c' =>
      rw [hread] at h
      exact ⟨a, c', rfl, h⟩
  | error e c' =>
      rw [hread] at h
      cases h

theorem eq_of_pure_ok {a y : α} (h : (pure a : Read α) c = .ok y c') : a = y ∧ c = c' :=
  EStateM.Result.ok.inj h

theorem ok_of_fixing_ok {read : Read α} {y : α} (h : fixing read c = .ok y c') :
    read c = .ok y c' := by
  unfold fixing at h
  cases hread : read c with
  | ok a c' =>
      rw [hread] at h
      exact h
  | error e c' =>
      rw [hread] at h
      cases h

/-! ## §2. Bytes and blanks. -/

theorem rest_of_head? (h : c.rest.head? = some b) : ∃ rest, c.rest = b :: rest :=
  List.head?_eq_some_iff.mp h

theorem peek_ok (h : peek c = .ok o c') : c' = c ∧ o = c.rest.head? := by
  unfold peek at h
  split at h
  · next hrest =>
      cases h
      exact ⟨rfl, by rw [hrest]; rfl⟩
  · next hrest _ =>
      cases h
      exact ⟨rfl, by rw [hrest]; rfl⟩
  · cases h

theorem advance_ok {u : Unit} {rest : List UInt8} (h : advance c = .ok u c')
    (hc : c.rest = b :: rest) : c'.rest = rest := by
  cases h
  unfold Cursor.advance
  rw [hc]

/-- A byte that was seen is taken. -/
theorem peek_advance_ok {u : Unit} (hpeek : peek c = .ok (some b) c')
    (hadvance : advance c' = .ok u c'') : c.rest = b :: c''.rest := by
  obtain ⟨rfl, hhead⟩ := peek_ok hpeek
  obtain ⟨rest, hrest⟩ := rest_of_head? hhead.symm
  rw [advance_ok hadvance hrest]
  exact hrest

/-- A byte is stepped over, and the result of the next reader wrapped. -/
theorem advance_read_ok {read : Read α} {wrap : α → β} {y : β}
    (h : (advance >>= fun _ => read >>= fun a => pure (wrap a)) c = .ok y c'') :
    ∃ u c' a, advance c = .ok u c' ∧ read c' = .ok a c'' ∧ wrap a = y := by
  obtain ⟨u, c', hadvance, h⟩ := exists_of_bind_ok h
  obtain ⟨a, c₁, hread, h⟩ := exists_of_bind_ok h
  obtain ⟨hwrap, rfl⟩ := eq_of_pure_ok h
  exact ⟨u, c', a, hadvance, hread, hwrap⟩

theorem next_ok (h : next c = .ok (some b) c') : c.rest = b :: c'.rest := by
  obtain ⟨o, c₁, hpeek, h⟩ := exists_of_bind_ok h
  obtain ⟨u, c₂, hadvance, h⟩ := exists_of_bind_ok h
  obtain ⟨rfl, rfl⟩ := eq_of_pure_ok h
  exact peek_advance_ok hpeek hadvance

theorem exists_blanks_go (c : Cursor) (bytes : List UInt8) (offset : Nat) :
    ∃ w : Blanks, bytes = w.bytes ++ (Cursor.skipBlanks.go c bytes offset).rest := by
  induction bytes generalizing offset with
  | nil => exact ⟨.empty, rfl⟩
  | cons b bytes ih =>
      rw [Cursor.skipBlanks.go]
      by_cases hb : isBlank b = true
      · obtain ⟨w, hw⟩ := ih (offset + 1)
        rw [if_pos hb]
        refine ⟨⟨b :: w.bytes, ?_⟩, congrArg (b :: ·) hw⟩
        intro d hd
        rcases List.mem_cons.mp hd with rfl | hd
        · exact hb
        · exact w.isBlank_of_mem d hd
      · rw [if_neg hb]
        exact ⟨.empty, rfl⟩

/-- **Only blanks are passed over.** -/
theorem look_ok (h : look c = .ok o c') :
    ∃ w : Blanks, c.rest = w.bytes ++ c'.rest ∧ o = c'.rest.head? := by
  obtain ⟨u, c₁, hmodify, h⟩ := exists_of_bind_ok h
  obtain ⟨rfl, ho⟩ := peek_ok h
  cases hmodify
  obtain ⟨w, hw⟩ := exists_blanks_go c c.rest c.offset
  exact ⟨w, hw, ho⟩

theorem look_some (h : look c = .ok (some b) c') :
    ∃ (w : Blanks) (rest : List UInt8), c.rest = w.bytes ++ b :: rest ∧ c'.rest = b :: rest := by
  obtain ⟨w, hw, hhead⟩ := look_ok h
  obtain ⟨rest, hrest⟩ := rest_of_head? hhead.symm
  exact ⟨w, rest, hrest ▸ hw, hrest⟩

/-- A byte that was seen behind blanks is taken with them. -/
theorem look_advance_ok {u : Unit} (hlook : look c = .ok (some b) c')
    (hadvance : advance c' = .ok u c'') : ∃ w : Blanks, c.rest = w.bytes ++ b :: c''.rest := by
  obtain ⟨w, rest, hw, hrest⟩ := look_some hlook
  exact ⟨w, advance_ok hadvance hrest ▸ hw⟩

theorem literal_ok {word : List UInt8} {u : Unit} (h : literal word c = .ok u c') :
    c.rest = word ++ c'.rest := by
  induction word generalizing c with
  | nil =>
      obtain ⟨-, rfl⟩ := eq_of_pure_ok h
      rfl
  | cons b word ih =>
      obtain ⟨o, c₁, hnext, h⟩ := exists_of_bind_ok h
      cases o with
      | none => cases h
      | some a =>
          dsimp only at h
          by_cases hab : a = b
          · rw [if_pos hab] at h
            rw [next_ok hnext, ih h, hab]
            rfl
          · rw [if_neg hab] at h
            cases h

theorem colon_ok {u : Unit} (h : colon c = .ok u c') :
    ∃ w : Blanks, c.rest = w.bytes ++ 0x3a :: c'.rest := by
  obtain ⟨o, c₁, hlook, h⟩ := exists_of_bind_ok h
  split at h
  · exact look_advance_ok hlook h
  · cases h
  · cases h

/-- **Nothing but blanks is left.** -/
theorem finish_ok {u : Unit} (h : finish c = .ok u c') : ∃ w : Blanks, c.rest = w.bytes := by
  obtain ⟨o, c₁, hlook, h⟩ := exists_of_bind_ok h
  obtain ⟨w, hw, ho⟩ := look_ok hlook
  split at h
  · have hnil : c₁.rest = [] := List.head?_eq_none_iff.mp ho.symm
    exact ⟨w, by rw [hw, hnil, List.append_nil]⟩
  · cases h

end Bytes

/-! ## §3. Numbers. -/

section Numbers

variable {c c' : Cursor} {v : Value} {letter first : UInt8} {more tail : List UInt8}

theorem digitRun_ok {ds : List UInt8} (h : digitRun c = .ok ds c') :
    c.rest = ds ++ c'.rest ∧ ∀ d ∈ ds, isDigit d = true := by
  unfold digitRun at h
  rw [List.span_eq_takeWhile_dropWhile] at h
  obtain ⟨rfl, rfl⟩ := EStateM.Result.ok.inj h
  exact ⟨List.takeWhile_append_dropWhile.symm, fun d hd => List.mem_takeWhile_imp hd⟩

/-- What a reader of digits has taken. -/
def TakesDigits (c c' : Cursor) : Prop :=
  ∃ first more, isDigit first = true ∧ (∀ d ∈ more, isDigit d = true)
    ∧ c.rest = first :: (more ++ c'.rest)

/-- What a reader of an exponent has taken. -/
def TakesExponent (c c' : Cursor) : Prop := ∃ e : Exponent, c.rest = e.bytes ++ c'.rest

/-- What a reader behind the whole part of a number has taken: a fraction or none, and an exponent
or none. -/
def TakesTail (c c' : Cursor) : Prop :=
  ∃ (fraction : List UInt8) (exponent : Option Exponent), (∀ d ∈ fraction, isDigit d = true)
    ∧ c.rest = (if fraction = [] then [] else 0x2e :: fraction)
      ++ ((exponent.map Exponent.bytes).getD [] ++ c'.rest)

/-- What a reader behind the sign of a number has taken. -/
def TakesNumber (negative : Bool) (c c' : Cursor) : Prop :=
  ∃ n : NumberToken, n.negative = negative ∧ c.rest = n.first :: (n.behindFirst ++ c'.rest)

theorem exists_sign {o : Option UInt8} (h : (o == some 0x2d || o == some 0x2b) = true) :
    ∃ s, (s = 0x2b ∨ s = 0x2d) ∧ o = some s := by
  rcases (Bool.or_eq_true ..).mp h with hminus | hplus
  · exact ⟨0x2d, .inr rfl, eq_of_beq hminus⟩
  · exact ⟨0x2b, .inl rfl, eq_of_beq hplus⟩

/-- A letter, perhaps a sign, and digits are an exponent. -/
theorem takesExponent_of_digits {c₁ c₂ : Cursor} (hletter : letter = 0x65 ∨ letter = 0x45)
    (hc : c.rest = letter :: c₁.rest)
    (hsign : c₁.rest = c₂.rest ∨ ∃ s, (s = 0x2b ∨ s = 0x2d) ∧ c₁.rest = s :: c₂.rest)
    (hdigits : TakesDigits c₂ c') : TakesExponent c c' := by
  obtain ⟨first, more, hfirst, hmore, hrest⟩ := hdigits
  rcases hsign with hsame | ⟨s, hs, hrest₁⟩
  · refine ⟨⟨letter, none, first, more, hletter, by simp, hfirst, hmore⟩, ?_⟩
    rw [hc, hsame, hrest]
    simp [Exponent.bytes]
  · refine ⟨⟨letter, some s, first, more, hletter, by simpa using hs, hfirst, hmore⟩, ?_⟩
    rw [hc, hrest₁, hrest]
    simp [Exponent.bytes]

theorem takesTail_of_exponent (h : c' = c ∨ TakesExponent c c') : TakesTail c c' := by
  rcases h with rfl | ⟨e, he⟩
  · exact ⟨[], none, by simp, rfl⟩
  · exact ⟨[], some e, by simp, he⟩

theorem takesTail_of_fraction {c₁ : Cursor} {ds : List UInt8} (hne : ds ≠ [])
    (hds : ∀ d ∈ ds, isDigit d = true) (hc : c.rest = 0x2e :: (ds ++ c₁.rest))
    (h : c' = c₁ ∨ TakesExponent c₁ c') : TakesTail c c' := by
  rcases h with rfl | ⟨e, he⟩
  · exact ⟨ds, none, hds, by simp [hc, hne]⟩
  · exact ⟨ds, some e, hds, by simp [hc, hne, he]⟩

/-- **A first digit, more of them and a tail are a number**, if none follow a zero. -/
theorem takesNumber_of_tail {negative : Bool} {c₁ : Cursor} (hfirst : isDigit first = true)
    (hmore : ∀ d ∈ more, isDigit d = true) (hzero : first = 0x30 → more = [])
    (hc : c.rest = first :: (more ++ c₁.rest)) (htail : TakesTail c₁ c') :
    TakesNumber negative c c' := by
  obtain ⟨fraction, exponent, hfraction, hrest⟩ := htail
  refine ⟨⟨negative, first, more, fraction, exponent, hfirst, hmore, hzero, hfraction⟩, rfl, ?_⟩
  rw [hc, hrest]
  simp [NumberToken.behindFirst, NumberToken.fractionBytes, NumberToken.exponentBytes]

theorem takesNumber_of_zero {negative : Bool} {c₁ : Cursor} (hc : c.rest = 0x30 :: c₁.rest)
    (htail : TakesTail c₁ c') : TakesNumber negative c c' :=
  takesNumber_of_tail rfl (List.forall_mem_nil _) (fun _ => rfl) hc htail

theorem floating_ok {positive : Bool} {significand : Nat} {power : Int}
    (h : floating positive significand power c = .ok v c') : c' = c := by
  unfold floating at h
  cases hcombine : combine significand power with
  | some x =>
      rw [hcombine] at h
      exact (eq_of_pure_ok h).2.symm
  | none =>
      rw [hcombine] at h
      obtain ⟨c₁, c₂, -, hfail⟩ := exists_of_bind_ok h
      cases hfail

theorem exponentDigits_ok {positive negative : Bool} {significand : Nat} {power : Int}
    (h : exponentDigits positive negative significand power c = .ok v c') : TakesDigits c c' := by
  obtain ⟨o, c₁, hnext, h₁⟩ := exists_of_bind_ok h
  cases o with
  | none => cases h₁
  | some d =>
      by_cases hd : isDigit d = true
      · simp only [hd, Bool.not_true, Bool.false_eq_true, if_false] at h₁
        obtain ⟨ds, c₂, hrun, h₂⟩ := exists_of_bind_ok h₁
        obtain ⟨hrest, hds⟩ := digitRun_ok hrun
        -- Whatever the digits come to, nothing is taken behind them.
        have hsame : c' = c₂ := by
          split at h₂
          · obtain ⟨o, c₃, hpeek, h₃⟩ := exists_of_bind_ok h₂
            rw [← (peek_ok hpeek).1]
            exact floating_ok h₃
          · split at h₂
            · obtain ⟨c₃, c₄, -, h₃⟩ := exists_of_bind_ok h₂
              cases h₃
            · obtain ⟨o, c₃, hpeek, h₃⟩ := exists_of_bind_ok h₂
              rw [← (peek_ok hpeek).1]
              exact (eq_of_pure_ok h₃).2.symm
        rw [hsame]
        exact ⟨d, ds, hd, hds, by rw [next_ok hnext, hrest]⟩
      · simp only [hd, Bool.not_false, if_true] at h₁
        cases h₁

theorem exponent_ok {positive : Bool} {significand : Nat} {power : Int}
    (hletter : letter = 0x65 ∨ letter = 0x45) (hhead : some letter = c.rest.head?)
    (h : exponent positive significand power c = .ok v c') : TakesExponent c c' := by
  obtain ⟨rest, hc⟩ := rest_of_head? hhead.symm
  obtain ⟨u, c₁, hadvance, h₁⟩ := exists_of_bind_ok h
  obtain ⟨o, c₂, hpeek, h₂⟩ := exists_of_bind_ok h₁
  obtain ⟨o', c₃, hpeek', h₃⟩ := exists_of_bind_ok h₂
  rw [← advance_ok hadvance hc] at hc
  -- Looking twice finds the same byte.
  obtain ⟨rfl, ho⟩ := peek_ok hpeek
  obtain ⟨rfl, ho'⟩ := peek_ok hpeek'
  obtain rfl : o' = o := ho'.trans ho.symm
  by_cases hsign : (o' == some 0x2d || o' == some 0x2b) = true
  · simp only [hsign, if_true] at h₃
    obtain ⟨u, c₄, hadvance', h₄⟩ := exists_of_bind_ok h₃
    obtain ⟨s, hs, rfl⟩ := exists_sign hsign
    have hrest := peek_advance_ok hpeek hadvance'
    exact takesExponent_of_digits hletter hc (.inr ⟨s, hs, hrest⟩) (exponentDigits_ok h₄)
  · simp only [hsign, Bool.false_eq_true, if_false] at h₃
    exact takesExponent_of_digits hletter hc (.inl rfl) (exponentDigits_ok h₃)

theorem fraction_ok {positive : Bool} {significand : Nat} {power : Int} {rest : List UInt8}
    (hc : c.rest = 0x2e :: rest) (h : fraction positive significand power c = .ok v c') :
    TakesTail c c' := by
  obtain ⟨u, c₁, hadvance, h₁⟩ := exists_of_bind_ok h
  obtain ⟨ds, c₂, hrun, h₂⟩ := exists_of_bind_ok h₁
  obtain ⟨hrest, hds⟩ := digitRun_ok hrun
  rw [← advance_ok hadvance hc, hrest] at hc
  by_cases hempty : ds.isEmpty = true
  · simp only [hempty, if_true] at h₂
    obtain ⟨o, c₃, -, h₃⟩ := exists_of_bind_ok h₂
    cases o <;> cases h₃
  · simp only [hempty, Bool.false_eq_true, if_false] at h₂
    have hne : ds ≠ [] := by simpa using hempty
    obtain ⟨o, c₃, hpeek, h₃⟩ := exists_of_bind_ok h₂
    obtain ⟨rfl, ho⟩ := peek_ok hpeek
    refine takesTail_of_fraction hne hds hc ?_
    split at h₃
    · exact .inr (exponent_ok (.inl rfl) ho h₃)
    · exact .inr (exponent_ok (.inr rfl) ho h₃)
    · exact .inl (floating_ok h₃)

theorem behindWhole_ok {positive : Bool} {significand : Nat} {excess : List UInt8}
    (h : behindWhole positive significand excess c = .ok v c') : TakesTail c c' := by
  obtain ⟨o, c₁, hpeek, h₁⟩ := exists_of_bind_ok h
  obtain ⟨hsame, ho⟩ := peek_ok hpeek
  rw [hsame] at h₁
  split at h₁
  · obtain ⟨rest, hrest⟩ := rest_of_head? ho.symm
    exact fraction_ok hrest h₁
  · exact takesTail_of_exponent (.inr (exponent_ok (.inl rfl) ho h₁))
  · exact takesTail_of_exponent (.inr (exponent_ok (.inr rfl) ho h₁))
  · refine takesTail_of_exponent (.inl ?_)
    split at h₁
    · exact (eq_of_pure_ok h₁).2.symm
    · exact floating_ok h₁

/-- **A number has been taken.** -/
theorem number_ok {positive : Bool} (h : number positive c = .ok v c') :
    TakesNumber (!positive) c c' := by
  obtain ⟨o, c₁, hnext, h₁⟩ := exists_of_bind_ok h
  split at h₁
  · cases h₁
  · -- a zero, and no digit behind it
    obtain ⟨o, c₂, hpeek, h₂⟩ := exists_of_bind_ok h₁
    obtain ⟨hsame, -⟩ := peek_ok hpeek
    split at h₂
    · cases h₂
    · rw [hsame] at h₂
      exact takesNumber_of_zero (next_ok hnext) (behindWhole_ok h₂)
  · next d hd =>
      split at h₁
      · cases h₁
      · next hdigit =>
          obtain ⟨ds, c₂, hrun, h₂⟩ := exists_of_bind_ok h₁
          obtain ⟨hrest, hds⟩ := digitRun_ok hrun
          have hne : d ≠ 0x30 := by
            rintro rfl
            exact hd rfl
          exact takesNumber_of_tail (by simpa using hdigit) hds (fun h => absurd h hne)
            (by rw [next_ok hnext, hrest]) (behindWhole_ok h₂)

/-! ### Numbers that are skipped. -/

theorem skipExponentDigits_ok {u : Unit} (h : skipExponentDigits c = .ok u c') :
    TakesDigits c c' := by
  obtain ⟨o, c₁, hnext, h₁⟩ := exists_of_bind_ok h
  cases o with
  | none => cases h₁
  | some d =>
      by_cases hd : isDigit d = true
      · simp only [hd, if_true] at h₁
        obtain ⟨ds, c₂, hrun, h₂⟩ := exists_of_bind_ok h₁
        obtain ⟨hrest, hds⟩ := digitRun_ok hrun
        obtain ⟨-, rfl⟩ := eq_of_pure_ok h₂
        exact ⟨d, ds, hd, hds, by rw [next_ok hnext, hrest]⟩
      · simp only [hd, Bool.false_eq_true, if_false] at h₁
        cases h₁

theorem skipExponent_ok {u : Unit} (hletter : letter = 0x65 ∨ letter = 0x45)
    (hhead : some letter = c.rest.head?) (h : skipExponent c = .ok u c') : TakesExponent c c' := by
  obtain ⟨rest, hc⟩ := rest_of_head? hhead.symm
  obtain ⟨u₁, c₁, hadvance, h₁⟩ := exists_of_bind_ok h
  obtain ⟨o, c₂, hpeek, h₂⟩ := exists_of_bind_ok h₁
  rw [← advance_ok hadvance hc] at hc
  obtain ⟨hsame, -⟩ := peek_ok hpeek
  by_cases hsign : (o == some 0x2d || o == some 0x2b) = true
  · simp only [hsign, if_true] at h₂
    obtain ⟨u₃, c₃, hadvance', h₃⟩ := exists_of_bind_ok h₂
    obtain ⟨s, hs, rfl⟩ := exists_sign hsign
    have hrest := peek_advance_ok hpeek hadvance'
    exact takesExponent_of_digits hletter hc (.inr ⟨s, hs, hrest⟩) (skipExponentDigits_ok h₃)
  · simp only [hsign, Bool.false_eq_true, if_false] at h₂
    rw [hsame] at h₂
    exact takesExponent_of_digits hletter hc (.inl rfl) (skipExponentDigits_ok h₂)

theorem skipNumberTail_ok {u : Unit} (h : skipNumberTail c = .ok u c') : TakesTail c c' := by
  obtain ⟨o, c₁, hpeek, h₁⟩ := exists_of_bind_ok h
  obtain ⟨hsame, ho⟩ := peek_ok hpeek
  rw [hsame] at h₁ hpeek
  split at h₁
  · obtain ⟨u₂, c₂, hadvance, h₂⟩ := exists_of_bind_ok h₁
    have hc := peek_advance_ok hpeek hadvance
    obtain ⟨ds, c₃, hrun, h₃⟩ := exists_of_bind_ok h₂
    obtain ⟨hrest, hds⟩ := digitRun_ok hrun
    rw [hrest] at hc
    by_cases hempty : ds.isEmpty = true
    · simp only [hempty, if_true] at h₃
      cases h₃
    · simp only [hempty, Bool.false_eq_true, if_false] at h₃
      have hne : ds ≠ [] := by simpa using hempty
      obtain ⟨o, c₄, hpeek', h₄⟩ := exists_of_bind_ok h₃
      obtain ⟨rfl, ho'⟩ := peek_ok hpeek'
      refine takesTail_of_fraction hne hds hc ?_
      split at h₄
      · exact .inr (skipExponent_ok (.inl rfl) ho' h₄)
      · exact .inr (skipExponent_ok (.inr rfl) ho' h₄)
      · exact .inl (eq_of_pure_ok h₄).2.symm
  · exact takesTail_of_exponent (.inr (skipExponent_ok (.inl rfl) ho h₁))
  · exact takesTail_of_exponent (.inr (skipExponent_ok (.inr rfl) ho h₁))
  · exact takesTail_of_exponent (.inl (eq_of_pure_ok h₁).2.symm)

/-- **A number that is skipped is a number**, with its sign if there was one. -/
theorem skipNumber_ok {u : Unit} (negative : Bool) (h : skipNumber c = .ok u c') :
    TakesNumber negative c c' := by
  obtain ⟨o, c₁, hnext, h₁⟩ := exists_of_bind_ok h
  split at h₁
  · cases h₁
  · -- a zero, at the end of the body or without a digit behind it
    have htail : TakesTail c₁ c' := by
      obtain ⟨o, c₂, hpeek, h₂⟩ := exists_of_bind_ok h₁
      obtain ⟨hsame, -⟩ := peek_ok hpeek
      rw [hsame] at h₂
      cases o with
      | none =>
          exact takesTail_of_exponent (.inl (eq_of_pure_ok h₂).2.symm)
      | some d =>
          by_cases hd : isDigit d = true
          · simp only [hd, if_true] at h₂
            cases h₂
          · simp only [hd, Bool.false_eq_true, if_false] at h₂
            exact skipNumberTail_ok h₂
    exact takesNumber_of_zero (next_ok hnext) htail
  · next d hd =>
      split at h₁
      · next hdigit =>
          obtain ⟨ds, c₂, hrun, h₂⟩ := exists_of_bind_ok h₁
          obtain ⟨hrest, hds⟩ := digitRun_ok hrun
          have hne : d ≠ 0x30 := by
            rintro rfl
            exact hd rfl
          exact takesNumber_of_tail hdigit hds (fun h => absurd h hne)
            (by rw [next_ok hnext, hrest]) (skipNumberTail_ok h₂)
      · cases h₁

end Numbers

/-! ## §4. Strings. -/

section Strings

variable {bytes rest seen : List UInt8} {b : UInt8}

/-- Behind what was seen of an item, the bytes close a string before `rest`. -/
def Closes (seen bytes rest : List UInt8) : Prop :=
  ∃ s : StringToken, seen ++ bytes = StringToken.bytes s ++ rest

namespace Closes

theorem quote : Closes [] (0x22 :: rest) rest := ⟨[], rfl⟩

theorem byte (hquote : b ≠ 0x22) (hbackslash : b ≠ 0x5c) (hcontrol : ¬ b < 0x20)
    (h : Closes [] bytes rest) : Closes [] (b :: bytes) rest := by
  obtain ⟨s, hs⟩ := h
  exact ⟨.byte b hquote hbackslash hcontrol :: s, congrArg (b :: ·) hs⟩

theorem short (hknown : (shortEscape b).isSome = true) (h : Closes [] bytes rest) :
    Closes [0x5c] (b :: bytes) rest := by
  obtain ⟨s, hs⟩ := h
  exact ⟨.short b hknown :: s, congrArg (0x5c :: b :: ·) hs⟩

theorem shift (h : Closes (seen ++ [b]) bytes rest) : Closes seen (b :: bytes) rest := by
  obtain ⟨s, hs⟩ := h
  exact ⟨s, by rw [← hs, List.append_assoc, List.singleton_append]⟩

/-- The last of four digits ends the item. -/
theorem code {ds : List UInt8} (hlength : ds.length = 3)
    (hisHex : ∀ x ∈ ds ++ [b], (hexValue x).isSome = true) (h : Closes [] bytes rest) :
    Closes (0x5c :: 0x75 :: ds) (b :: bytes) rest := by
  obtain ⟨s, hs⟩ := h
  match ds, hlength with
  | [x, y, z], _ =>
      exact ⟨.code x y z b hisHex :: s, congrArg (0x5c :: 0x75 :: x :: y :: z :: b :: ·) hs⟩

end Closes

/-- **What has been seen of an escape by its number**: these digits, while these are owed. -/
structure HexDigits.Follows (digits : HexDigits) (ds : List UInt8) : Prop where
  length : ds.length + digits.owed = 4
  owed : 0 < digits.owed
  isHex : digits.value.isSome = true → ∀ x ∈ ds, (hexValue x).isSome = true

theorem HexDigits.follows_nil : HexDigits.Follows ⟨4, some 0⟩ [] := ⟨rfl, by decide, by simp⟩

/-- A number comes of digits only. -/
theorem HexDigits.Follows.isHex_push {digits : HexDigits} {ds : List UInt8}
    (h : digits.Follows ds) (hpush : (digits.push b).isSome = true) :
    ∀ x ∈ ds ++ [b], (hexValue x).isSome = true := by
  unfold HexDigits.push at hpush
  cases hvalue : digits.value with
  | none =>
      rw [hvalue] at hpush
      cases hpush
  | some n =>
      cases hb : hexValue b with
      | none =>
          rw [hvalue, hb] at hpush
          cases hpush
      | some d =>
          intro x hx
          rcases List.mem_append.mp hx with hx | hx
          · exact h.isHex (by rw [hvalue]; rfl) x hx
          · rw [List.mem_singleton.mp hx, hb]
            rfl

theorem HexDigits.Follows.push {digits : HexDigits} {ds : List UInt8} (h : digits.Follows ds)
    (howed : 1 < digits.owed) :
    HexDigits.Follows ⟨digits.owed - 1, digits.push b⟩ (ds ++ [b]) := by
  have hlength := h.length
  refine ⟨?_, ?_, h.isHex_push⟩
  · simp only [List.length_append, List.length_singleton]
    omega
  · show 0 < digits.owed - 1
    omega

/-- The digit that was owed last ends the item. -/
theorem HexDigits.Follows.closes {digits : HexDigits} {ds : List UInt8} (h : digits.Follows ds)
    (hlast : ¬ 1 < digits.owed) (hpush : (digits.push b).isSome = true)
    (hrest : Closes [] bytes rest) : Closes (0x5c :: 0x75 :: ds) (b :: bytes) rest := by
  have hlength : ds.length = 3 := by
    have := h.length
    have := h.owed
    omega
  exact .code hlength (h.isHex_push hpush) hrest

/-- What the scanner of a string has seen of the item that it is in. -/
inductive Mode.Seen : Mode → List UInt8 → Prop where
  | plain : Mode.Seen .plain []
  | escaped : Mode.Seen .escaped [0x5c]
  | hex {digits : HexDigits} {high : Option Nat} {ds : List UInt8} (h : digits.Follows ds) :
      Mode.Seen (.hex digits high) (0x5c :: 0x75 :: ds)
  | lowBackslash (high : Nat) : Mode.Seen (.lowBackslash high) []
  | lowLetter (high : Nat) : Mode.Seen (.lowLetter high) [0x5c]

theorem isSome_of_escapeMeaning {high value : Option Nat}
    (h : ∀ f, escapeMeaning high value ≠ .fault f) : value.isSome = true := by
  cases value with
  | none => exact absurd rfl (h .invalidEscape)
  | some n => rfl

/-- **A scan that finds the end of a string has seen a string.** -/
theorem closes_of_scan {offset start : Nat} {run : List UInt8} {ps pieces : List Piece}
    {mode : Mode} {behind : Nat} (hseen : mode.Seen seen)
    (h : scan offset start run ps mode bytes = .closed pieces rest behind) :
    Closes seen bytes rest := by
  -- The induction is on the bytes; each brings the scanner from one item's middle to another's.
  induction bytes generalizing offset start run ps mode seen with
  | nil => cases hseen <;> cases h
  | cons b bytes ih =>
      cases hseen with
      | plain =>
          rw [scan] at h
          by_cases hquote : b = 0x22
          · rw [if_pos hquote] at h
            cases h
            rw [hquote]
            exact .quote
          by_cases hbackslash : b = 0x5c
          · rw [if_neg hquote, if_pos hbackslash] at h
            rw [hbackslash]
            exact .shift (ih .escaped h)
          by_cases hcontrol : b < 0x20
          · rw [if_neg hquote, if_neg hbackslash, if_pos hcontrol] at h
            cases h
          · rw [if_neg hquote, if_neg hbackslash, if_neg hcontrol] at h
            exact .byte hquote hbackslash hcontrol (ih .plain h)
      | escaped =>
          rw [scan] at h
          by_cases hu : b = 0x75
          · rw [if_pos hu] at h
            rw [hu]
            exact .shift (ih (.hex HexDigits.follows_nil) h)
          · rw [if_neg hu] at h
            cases hshort : shortEscape b with
            | none =>
                rw [hshort] at h
                cases h
            | some x =>
                rw [hshort] at h
                exact .short (by rw [hshort]; rfl) (ih .plain h)
      | @hex digits high ds hdigits =>
          rw [scan] at h
          by_cases howed : 1 < digits.owed
          · simp only [if_pos howed] at h
            exact .shift (ih (.hex (hdigits.push howed)) h)
          · simp only [if_neg howed] at h
            cases hmeaning : escapeMeaning high (digits.push b) with
            | fault f =>
                rw [hmeaning] at h
                cases h
            | char x =>
                have hsome := isSome_of_escapeMeaning (by rw [hmeaning]; simp)
                rw [hmeaning] at h
                exact hdigits.closes howed hsome (ih .plain h)
            | leading m =>
                have hsome := isSome_of_escapeMeaning (by rw [hmeaning]; simp)
                rw [hmeaning] at h
                exact hdigits.closes howed hsome (ih (.lowBackslash m) h)
      | lowBackslash high =>
          rw [scan] at h
          by_cases hbackslash : b = 0x5c
          · rw [if_pos hbackslash] at h
            rw [hbackslash]
            exact .shift (ih (.lowLetter high) h)
          · rw [if_neg hbackslash] at h
            cases h
      | lowLetter high =>
          rw [scan] at h
          by_cases hu : b = 0x75
          · rw [if_pos hu] at h
            rw [hu]
            exact .shift (ih (.hex HexDigits.follows_nil) h)
          · rw [if_neg hu] at h
            cases h

/-- What the scanner of a skipped string has seen of the item that it is in. -/
inductive SkipMode.Seen : SkipMode → List UInt8 → Prop where
  | plain : SkipMode.Seen .plain []
  | escaped : SkipMode.Seen .escaped [0x5c]
  | hex {digits : HexDigits} {ds : List UInt8} (h : digits.Follows ds) :
      SkipMode.Seen (.hex digits) (0x5c :: 0x75 :: ds)

/-- **So has a scan that keeps nothing.** -/
theorem closes_of_skipScan {offset : Nat} {pieces : List Piece} {mode : SkipMode} {behind : Nat}
    (hseen : mode.Seen seen) (h : skipScan offset mode bytes = .closed pieces rest behind) :
    Closes seen bytes rest := by
  induction bytes generalizing offset mode seen with
  | nil => cases hseen <;> cases h
  | cons b bytes ih =>
      cases hseen with
      | plain =>
          rw [skipScan] at h
          by_cases hquote : b = 0x22
          · rw [if_pos hquote] at h
            cases h
            rw [hquote]
            exact .quote
          by_cases hbackslash : b = 0x5c
          · rw [if_neg hquote, if_pos hbackslash] at h
            rw [hbackslash]
            exact .shift (ih .escaped h)
          by_cases hcontrol : b < 0x20
          · rw [if_neg hquote, if_neg hbackslash, if_pos hcontrol] at h
            cases h
          · rw [if_neg hquote, if_neg hbackslash, if_neg hcontrol] at h
            exact .byte hquote hbackslash hcontrol (ih .plain h)
      | escaped =>
          rw [skipScan] at h
          by_cases hu : b = 0x75
          · rw [if_pos hu] at h
            rw [hu]
            exact .shift (ih (.hex HexDigits.follows_nil) h)
          by_cases hshort : (shortEscape b).isSome = true
          · rw [if_neg hu, if_pos hshort] at h
            exact .short hshort (ih .plain h)
          · rw [if_neg hu, if_neg hshort] at h
            cases h
      | @hex digits ds hdigits =>
          rw [skipScan] at h
          by_cases howed : 1 < digits.owed
          · simp only [if_pos howed] at h
            exact .shift (ih (.hex (hdigits.push howed)) h)
          by_cases hsome : (digits.push b).isSome = true
          · simp only [if_neg howed, if_pos hsome] at h
            exact hdigits.closes howed hsome (ih .plain h)
          · simp only [if_neg howed, if_neg hsome] at h
            cases h

/-- What a reader behind an opening quote has taken. -/
def TakesString (c c' : Cursor) : Prop := ∃ s : StringToken, c.rest = StringToken.bytes s ++ c'.rest

/-- **A string has been taken.** -/
theorem string_ok {c c' : Cursor} {s : String} (h : string c = .ok s c') : TakesString c c' := by
  unfold string at h
  cases hscan : scan c.offset c.offset [] [] .plain c.rest with
  | closed pieces rest offset =>
      rw [hscan] at h
      obtain ⟨token, htoken⟩ := closes_of_scan .plain hscan
      refine ⟨token, ?_⟩
      cases hdecode : decodePieces pieces with
      | ok cs =>
          simp only [hdecode] at h
          cases h
          exact htoken
      | error place =>
          simp only [hdecode] at h
          cases h
  | fault f offset =>
      rw [hscan] at h
      cases h
  | ended offset =>
      rw [hscan] at h
      cases hending : c.ending <;> rw [hending] at h <;> cases h

theorem skipString_ok {c c' : Cursor} {u : Unit} (h : skipString c = .ok u c') :
    TakesString c c' := by
  unfold skipString at h
  cases hscan : skipScan c.offset .plain c.rest with
  | closed pieces rest offset =>
      rw [hscan] at h
      obtain ⟨token, htoken⟩ := closes_of_skipScan .plain hscan
      cases h
      exact ⟨token, htoken⟩
  | fault f offset =>
      rw [hscan] at h
      cases h
  | ended offset =>
      rw [hscan] at h
      cases hending : c.ending <;> rw [hending] at h <;> cases h

end Strings

end ErrorContract.Json
