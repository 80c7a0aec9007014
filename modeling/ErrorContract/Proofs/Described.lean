/-
  ErrorContract.Proofs.Described
  ──────────────────────────────
  **A RENDERED PATH LEADS BACK TO ONE PLACE.**

  A path is rendered without any escapes: a name may hold blanks, digits and
  even the words that introduce the next step.  What keeps the steps apart is
  the quote behind a name, which the names of fields do not hold, and that no
  step begins with a digit, so that a position ends where its digits do.
  `Path.read?` cuts a text at these places.

  Main statement `described_path_is_read_back`: the reader gives back the
  path of every text rendered from a path with such names, and accepts no
  other text; so two of these paths never have the same text.
-/
import Mathlib.Data.List.Induction
import ErrorContract.Failure.Path
import ErrorContract.Proofs.Placeholders

namespace ErrorContract

open Template (after? after?_eq_some_iff Stops takeWhile_append_of_stops dropWhile_append_of_stops
  takeWhile_all)

/-! ## §1. Numerals without leading zeros. -/

namespace Decimal

theorem isDigit_iff {c : Char} : isDigit c = true ↔ 48 ≤ c.toNat ∧ c.toNat ≤ 57 := by
  simp only [isDigit, Bool.and_eq_true, decide_eq_true_eq, Char.le_def, UInt32.le_iff_toNat_le]
  exact Iff.rfl

/-- A digit is the character of the number that it names. -/
theorem digitChar_digitValue {c : Char} (h : isDigit c = true) : digitChar (digitValue c) = c := by
  have hlow := (isDigit_iff.mp h).1
  unfold digitChar digitValue
  rw [Nat.add_sub_cancel' hlow, Char.ofNat_toNat]

theorem digitValue_lt {c : Char} (h : isDigit c = true) : digitValue c < 10 := by
  have hhigh := (isDigit_iff.mp h).2
  unfold digitValue
  omega

/-- The numeral of a number that is not zero begins with a digit that is not zero. -/
theorem exists_digits_eq_cons {n : Nat} (h : 0 < n) : ∃ d ds, digits n = d :: ds ∧ d ≠ '0' := by
  fun_induction digits n with
  | case1 n hn =>
      refine ⟨digitChar n, [], rfl, ?_⟩
      intro hzero
      have hvalue : digitValue '0' = n := hzero ▸ digitValue_digitChar hn
      exact Nat.ne_of_lt h hvalue
  | case2 n hn ih =>
      obtain ⟨d, ds, hdigits, hd⟩ := ih (by omega)
      exact ⟨d, ds ++ [digitChar (n % 10)], by rw [hdigits, List.cons_append], hd⟩

theorem value_append_singleton (ds : List Char) (d : Char) :
    value (ds ++ [d]) = value ds * 10 + digitValue d := by
  unfold value
  rw [List.foldl_append, List.foldl_cons, List.foldl_nil]

/-- **Digits of which the first is not zero are the numeral of their number**, and that is not
zero. -/
theorem digits_value {ds : List Char} (hdigits : ∀ d ∈ ds, isDigit d = true) (hne : ds ≠ [])
    (hlead : ds.head? ≠ some '0') : 0 < value ds ∧ digits (value ds) = ds := by
  -- A numeral is written from its last digit, so the induction takes that digit off.
  induction ds using List.reverseRecOn with
  | nil => exact absurd rfl hne
  | append_singleton ds d ih =>
      have hd : isDigit d = true := hdigits d (by simp)
      have hlt := digitValue_lt hd
      rw [value_append_singleton]
      cases ds with
      | nil =>
          have hzero : d ≠ '0' := fun h => hlead (by rw [h]; rfl)
          have hpos : digitValue d ≠ 0 := by
            intro h
            have hchar := digitChar_digitValue hd
            rw [h] at hchar
            exact hzero hchar.symm
          show 0 < 0 * 10 + digitValue d ∧ digits (0 * 10 + digitValue d) = [d]
          rw [Nat.zero_mul, Nat.zero_add, digits, if_pos hlt, digitChar_digitValue hd]
          exact ⟨Nat.pos_of_ne_zero hpos, rfl⟩
      | cons first more =>
          obtain ⟨hpos, hfront⟩ := ih (fun c hc => hdigits c (List.mem_append_left [d] hc))
            (List.cons_ne_nil first more) hlead
          refine ⟨by omega, ?_⟩
          rw [digits, if_neg (by omega)]
          have hquotient : (value (first :: more) * 10 + digitValue d) / 10
              = value (first :: more) := by omega
          have hremainder : (value (first :: more) * 10 + digitValue d) % 10 = digitValue d := by
            omega
          rw [hquotient, hremainder, hfront, digitChar_digitValue hd]

end Decimal

/-! ## §2. One step. -/

namespace PathSegment

/-- What stands in front of a name. -/
def nameOpening : List Char := " field '".toList

/-- What stands behind a name. -/
def nameClosing : List Char := ['\'']

/-- What stands in front of a position. -/
def positionOpening : List Char := " object ".toList

/-- The characters of a step as callers read it. -/
def chars : PathSegment → List Char
  | .field name => nameOpening ++ (name.toList ++ nameClosing)
  | .index position => positionOpening ++ Decimal.digits (position + 1)

theorem toList_describe (step : PathSegment) : step.describe.toList = step.chars := by
  cases step with
  | field name =>
      show (" field '" ++ name ++ "'").toList = _
      rw [String.toList_append, String.toList_append, List.append_assoc]
      rfl
  | index position =>
      show (" object " ++ String.ofList (Decimal.digits (position + 1))).toList = _
      rw [String.toList_append, String.toList_ofList (l := Decimal.digits (position + 1))]
      rfl

/-- Every step begins with a blank, so with no digit. -/
theorem exists_chars_eq_cons (step : PathSegment) : ∃ cs, step.chars = ' ' :: cs := by
  cases step <;> exact ⟨_, rfl⟩

/-- The step by name at the front of a text, and what follows it. -/
def readName? (cs : List Char) : Option (PathSegment × List Char) := do
  let cs ← after? nameOpening cs
  let rest ← after? nameClosing (cs.dropWhile (· != '\''))
  return (.field (String.ofList (cs.takeWhile (· != '\''))), rest)

/-- The step by position at the front of a text, and what follows it. -/
def readPosition? (cs : List Char) : Option (PathSegment × List Char) := do
  let cs ← after? positionOpening cs
  let ds := cs.takeWhile Decimal.isDigit
  if ds = [] ∨ ds.head? = some '0' then none
  else return (.index (Decimal.value ds - 1), cs.dropWhile Decimal.isDigit)

/-- **The step at the front of a text**, and what follows it. -/
def read? (cs : List Char) : Option (PathSegment × List Char) := (readName? cs).or (readPosition? cs)

section Reading

variable {cs rest : List Char} {step : PathSegment}

theorem readName?_eq_some_iff : readName? cs = some (step, rest) ↔
    ∃ name, step = .field name ∧ '\'' ∉ name.toList ∧ cs = step.chars ++ rest := by
  simp only [readName?, Option.bind_eq_bind, Option.bind_eq_some_iff, after?_eq_some_iff]
  constructor
  · rintro ⟨named, rfl, rest', hclosing, hresult⟩
    obtain ⟨rfl, rfl⟩ := Prod.mk.inj (Option.some.inj hresult)
    refine ⟨_, rfl, ?_, ?_⟩
    · rw [String.toList_ofList]
      intro hmem
      simpa using takeWhile_all _ _ _ hmem
    · have hsplit : named.takeWhile (· != '\'') ++ (nameClosing ++ rest') = named := by
        rw [← hclosing, List.takeWhile_append_dropWhile]
      show _ = nameOpening ++ ((String.ofList _).toList ++ nameClosing) ++ rest'
      rw [String.toList_ofList, List.append_assoc, List.append_assoc, hsplit]
  · rintro ⟨name, rfl, hquote, rfl⟩
    have hname : ∀ c ∈ name.toList, (c != '\'') = true := by
      intro c hc
      exact bne_iff_ne.mpr fun h => hquote (h ▸ hc)
    have hstop : Stops (· != '\'') (nameClosing ++ rest) := by
      intro c hc
      cases hc
      rfl
    refine ⟨name.toList ++ (nameClosing ++ rest), ?_, rest, ?_, ?_⟩
    · show nameOpening ++ (name.toList ++ nameClosing) ++ rest = _
      rw [List.append_assoc, List.append_assoc]
    · exact dropWhile_append_of_stops hname hstop
    · rw [takeWhile_append_of_stops hname hstop, String.ofList_toList]
      rfl

theorem readPosition?_eq_some_iff : readPosition? cs = some (step, rest) ↔
    ∃ position, step = .index position ∧ Stops Decimal.isDigit rest ∧ cs = step.chars ++ rest := by
  simp only [readPosition?, Option.bind_eq_bind, Option.bind_eq_some_iff, after?_eq_some_iff]
  constructor
  · rintro ⟨numbered, rfl, hresult⟩
    by_cases hlead : numbered.takeWhile Decimal.isDigit = []
        ∨ (numbered.takeWhile Decimal.isDigit).head? = some '0'
    · rw [if_pos hlead] at hresult
      cases hresult
    · rw [if_neg hlead] at hresult
      obtain ⟨rfl, rfl⟩ := Prod.mk.inj (Option.some.inj hresult)
      obtain ⟨hne, hzero⟩ := not_or.mp hlead
      obtain ⟨hpos, hnumeral⟩ := Decimal.digits_value (takeWhile_all _ _) hne hzero
      refine ⟨_, rfl, ?_, ?_⟩
      · intro c hc
        have hbehind := List.head?_dropWhile_not Decimal.isDigit numbered
        rw [hc] at hbehind
        exact hbehind
      · show _ = positionOpening ++ Decimal.digits (_ - 1 + 1) ++ _
        rw [Nat.sub_add_cancel hpos, hnumeral, List.append_assoc,
          List.takeWhile_append_dropWhile]
  · rintro ⟨position, rfl, hstop, rfl⟩
    have hdigits : ∀ d ∈ Decimal.digits (position + 1), Decimal.isDigit d = true :=
      List.all_eq_true.mp (Decimal.all_isDigit_digits (position + 1))
    refine ⟨Decimal.digits (position + 1) ++ rest, List.append_assoc _ _ _, ?_⟩
    rw [takeWhile_append_of_stops hdigits hstop, dropWhile_append_of_stops hdigits hstop,
      Decimal.value_digits]
    obtain ⟨d, ds, hnumeral, hd⟩ := Decimal.exists_digits_eq_cons (Nat.succ_pos position)
    rw [hnumeral, if_neg (by simp [hd])]
    rfl

/-- A name holds no quote. -/
def Unquoted : PathSegment → Prop
  | .field name => '\'' ∉ name.toList
  | .index _ => True

/-- A step by position ends at the first character that is no digit. -/
def Ends (step : PathSegment) (rest : List Char) : Prop :=
  ∀ position, step = .index position → Stops Decimal.isDigit rest

/-- **The reader finds exactly the steps that a text begins with.** -/
theorem read?_eq_some_iff :
    read? cs = some (step, rest) ↔ step.Unquoted ∧ step.Ends rest ∧ cs = step.chars ++ rest := by
  unfold read?
  rw [Option.or_eq_some_iff, readName?_eq_some_iff, readPosition?_eq_some_iff]
  constructor
  · rintro (⟨name, rfl, hquote, hcs⟩ | ⟨-, position, rfl, hstop, hcs⟩)
    · exact ⟨hquote, nofun, hcs⟩
    · exact ⟨trivial, fun _ _ => hstop, hcs⟩
  · rintro ⟨hquote, hends, hcs⟩
    cases step with
    | field name => exact .inl ⟨name, rfl, hquote, hcs⟩
    | index position =>
        refine .inr ⟨?_, position, rfl, hends position rfl, hcs⟩
        -- No name is read here, because the two openings differ behind their blank.
        rw [Option.eq_none_iff_forall_ne_some]
        rintro ⟨step', rest'⟩ hname
        obtain ⟨name, rfl, -, hcs'⟩ := readName?_eq_some_iff.mp hname
        have hsecond : some 'o' = some 'f' := congrArg (·[1]?) (hcs.symm.trans hcs')
        exact absurd hsecond (by decide)

end Reading

end PathSegment

/-! ## §3. Whole paths. -/

namespace Path

/-- No name on the path holds a quote. -/
def Unquoted (path : Path) : Prop := ∀ name, .field name ∈ path → '\'' ∉ name.toList

theorem unquoted_cons_iff {step : PathSegment} {path : Path} :
    Unquoted (step :: path) ↔ step.Unquoted ∧ Unquoted path := by
  unfold Unquoted
  constructor
  · intro h
    refine ⟨?_, fun name hmem => h name (List.mem_cons_of_mem step hmem)⟩
    cases step with
    | field name => exact h name List.mem_cons_self
    | index position => trivial
  · rintro ⟨hstep, hpath⟩ name hmem
    rcases List.mem_cons.mp hmem with rfl | hmem
    · exact hstep
    · exact hpath name hmem

/-- The characters of the steps of a path. -/
def chars (path : Path) : List Char := path.flatMap PathSegment.chars

theorem toList_describe (path : Path) : path.describe.toList = heading.toList ++ path.chars := by
  unfold describe
  rw [String.toList_append, String.toList_join, List.flatMap_map]
  simp only [PathSegment.toList_describe]
  rfl

/-- Whatever step a path begins with, the step before it ends there. -/
theorem ends_chars (step : PathSegment) (path : Path) : step.Ends path.chars := by
  intro position _ c hc
  cases path with
  | nil => cases hc
  | cons next path =>
      obtain ⟨cs, hcs⟩ := next.exists_chars_eq_cons
      rw [chars, List.flatMap_cons, hcs] at hc
      cases hc
      decide

/-- The steps of a text that is nothing but steps. -/
def readSteps (cs : List Char) : Option Path :=
  match cs with
  | [] => some []
  | c :: behind =>
    match _found : PathSegment.read? (c :: behind) with
    | some (step, rest) => (readSteps rest).map (step :: ·)
    | none => none
termination_by cs.length
decreasing_by
  obtain ⟨-, -, hcs⟩ := PathSegment.read?_eq_some_iff.mp _found
  obtain ⟨chars, hchars⟩ := step.exists_chars_eq_cons
  rw [hcs, hchars, List.length_append, List.length_cons]
  omega

/-- **The path that a text was rendered from**, if it was rendered from one whose names hold no
quote. -/
def read? (text : String) : Option Path := (after? heading.toList text.toList).bind readSteps

theorem readSteps_eq_nil_iff {cs : List Char} : readSteps cs = some [] ↔ cs = [] := by
  constructor
  · intro h
    cases cs with
    | nil => rfl
    | cons c cs =>
        unfold readSteps at h
        split at h
        · simp at h
        · cases h
  · rintro rfl
    rw [readSteps]

theorem readSteps_eq_cons_iff {cs : List Char} {step : PathSegment} {path : Path} :
    readSteps cs = some (step :: path)
      ↔ ∃ rest, PathSegment.read? cs = some (step, rest) ∧ readSteps rest = some path := by
  cases cs with
  | nil =>
      rw [readSteps]
      constructor
      · intro h
        cases h
      · rintro ⟨rest, hstep, -⟩
        cases hstep
  | cons c cs =>
      rw [readSteps]
      split
      · next step' rest hfound => simp [hfound, and_comm]
      · next hfound => simp [hfound]

/-- **The reader finds exactly the steps that a text is made of.** -/
theorem readSteps_eq_some_iff {cs : List Char} {path : Path} :
    readSteps cs = some path ↔ Unquoted path ∧ cs = chars path := by
  induction path generalizing cs with
  | nil =>
      rw [readSteps_eq_nil_iff]
      exact ⟨fun h => ⟨nofun, h⟩, fun h => h.2⟩
  | cons step path ih =>
      rw [readSteps_eq_cons_iff, unquoted_cons_iff]
      constructor
      · rintro ⟨rest, hstep, hrest⟩
        obtain ⟨hquote, -, rfl⟩ := PathSegment.read?_eq_some_iff.mp hstep
        obtain ⟨hquotes, rfl⟩ := ih.mp hrest
        exact ⟨⟨hquote, hquotes⟩, rfl⟩
      · rintro ⟨⟨hquote, hquotes⟩, rfl⟩
        refine ⟨chars path, ?_, ih.mpr ⟨hquotes, rfl⟩⟩
        exact PathSegment.read?_eq_some_iff.mpr ⟨hquote, ends_chars step path, rfl⟩

theorem read?_eq_some_iff {text : String} {path : Path} :
    read? text = some path ↔ path.Unquoted ∧ path.describe = text := by
  unfold read?
  rw [Option.bind_eq_some_iff]
  simp only [after?_eq_some_iff, readSteps_eq_some_iff]
  constructor
  · rintro ⟨cs, htext, hquotes, rfl⟩
    exact ⟨hquotes, String.toList_inj.mp ((toList_describe path).trans htext.symm)⟩
  · rintro ⟨hquotes, rfl⟩
    exact ⟨path.chars, toList_describe path, hquotes, rfl⟩

/-- **A rendered path leads back to one place.**  The reader gives it back and accepts nothing
else; so two paths whose names hold no quote have the same text only if they are the same, step by
step. -/
theorem described_path_is_read_back :
    (∀ text path, read? text = some path ↔ path.Unquoted ∧ path.describe = text)
    ∧ ∀ p q : Path, p.Unquoted → q.Unquoted → p.describe = q.describe → p = q := by
  refine ⟨fun text path => read?_eq_some_iff, ?_⟩
  intro p q hp hq hsame
  have hreadP : read? p.describe = some p := read?_eq_some_iff.mpr ⟨hp, rfl⟩
  have hreadQ : read? p.describe = some q := read?_eq_some_iff.mpr ⟨hq, hsame.symm⟩
  exact Option.some.inj (hreadP.symm.trans hreadQ)

/-- With a quote in a name, one step can look like two. -/
example : describe [.field "a' field 'b"] = describe [.field "a", .field "b"] := by decide

end Path

end ErrorContract
