/-
  ErrorContract.Proofs.Placeholders
  ─────────────────────────────────
  **THE LANGUAGE OF PLACEHOLDERS.**

  `Placeholder.Written p raw` says that `raw` is a written form of `p`: two
  braces, blanks, the key, blanks, a default or none, blanks, two braces.
  The matcher takes what it can get at each place and never goes back.  That
  this finds every written form is due to the bytes at which its parts end:
  a key ends before a blank, a bar or a brace, blanks before anything else,
  a default at its first quote.

  Main statement: `placeholder?_eq_some_iff`, the matcher finds a placeholder
  exactly where a written form of it begins.  So no text begins with two.
-/
import Mathlib.Data.List.TakeDrop
import ErrorContract.Config.Template

namespace ErrorContract.Template

open ErrorContract

/-! ## §1. Written forms. -/

/-- Nothing but white space. -/
def IsBlank (cs : List Char) : Prop := ∀ c ∈ cs, Blank.member c = true

/-- The written forms of the default part of a placeholder. -/
inductive DefaultWritten : Option (List Char) → List Char → Prop where
  | absent : DefaultWritten none []
  | given {blanks text : List Char} (hblanks : IsBlank blanks) (htext : '"' ∉ text) :
      DefaultWritten (some text)
        ('|' :: (blanks ++ (defaultOpening ++ (text ++ defaultClosing))))

/-- **The written forms of a placeholder.** -/
inductive Placeholder.Written : Placeholder → List Char → Prop where
  | mk {key before between part behind : List Char} {default : Option (List Char)}
      (hbefore : IsBlank before) (hkey : key ≠ []) (hchars : ∀ c ∈ key, isKeyChar c = true)
      (hbetween : IsBlank between) (hpart : DefaultWritten default part)
      (hbehind : IsBlank behind) :
      Written ⟨key, default⟩
        (opening ++ (before ++ (key ++ (between ++ (part ++ (behind ++ closing))))))

/-! ## §2. What stops at a character. -/

section Stops

variable {p : Char → Bool} {w cs : List Char}

/-- The text does not begin with a character that has a property. -/
def Stops (p : Char → Bool) (cs : List Char) : Prop := ∀ c ∈ cs.head?, p c = false

theorem takeWhile_append_of_stops (hw : ∀ c ∈ w, p c = true) (hcs : Stops p cs) :
    (w ++ cs).takeWhile p = w := by
  rw [List.takeWhile_append_of_pos hw]
  cases cs with
  | nil => simp
  | cons c cs =>
      have hc : p c = false := hcs c rfl
      simp [hc]

theorem dropWhile_append_of_stops (hw : ∀ c ∈ w, p c = true) (hcs : Stops p cs) :
    (w ++ cs).dropWhile p = cs := by
  rw [List.dropWhile_append_of_pos hw]
  cases cs with
  | nil => rfl
  | cons c cs =>
      have hc : p c = false := hcs c rfl
      simp [hc]

theorem takeWhile_all (p : Char → Bool) (cs : List Char) : ∀ c ∈ cs.takeWhile p, p c = true :=
  List.all_eq_true.mp List.all_takeWhile

theorem skip_append (hw : IsBlank w) (cs : List Char) : Blank.skip (w ++ cs) = Blank.skip cs :=
  List.dropWhile_append_of_pos hw

theorem skip_of_stops (h : Stops Blank.member cs) : Blank.skip cs = cs :=
  dropWhile_append_of_stops (w := []) (by simp) h

/-- A text is the blanks that it begins with and what is left of it. -/
theorem exists_blanks_append_skip (cs : List Char) :
    ∃ w, IsBlank w ∧ cs = w ++ Blank.skip cs :=
  ⟨cs.takeWhile Blank.member, takeWhile_all _ cs, List.takeWhile_append_dropWhile.symm⟩

/-- A blank is no part of a key. -/
theorem isKeyChar_of_blank {c : Char} (h : Blank.member c = true) : isKeyChar c = false := by
  rw [← Bool.not_eq_true]
  intro hkey
  simp only [Blank.member, isKeyChar, Bool.or_eq_true, Bool.and_eq_true, decide_eq_true_eq,
    beq_iff_eq, Char.le_def, UInt32.le_iff_toNat_le, ← Char.toNat_val] at h hkey
  rcases hkey with (((hkey | hkey) | hkey) | rfl) | rfl
  · have hlow : 65 ≤ c.val.toNat ∧ c.val.toNat ≤ 90 := hkey
    omega
  · have hlow : 97 ≤ c.val.toNat ∧ c.val.toNat ≤ 122 := hkey
    omega
  · have hlow : 48 ≤ c.val.toNat ∧ c.val.toNat ≤ 57 := hkey
    omega
  · revert h
    decide
  · revert h
    decide

end Stops

/-! ## §3. The matcher. -/

theorem after?_eq_some_iff {front cs rest : List Char} :
    after? front cs = some rest ↔ cs = front ++ rest := by
  induction front generalizing cs with
  | nil => simp [after?]
  | cons a front ih =>
      cases cs with
      | nil => simp [after?]
      | cons c cs =>
          by_cases h : a = c
          · subst h
            simp [after?, ih]
          · simp [after?, h, Ne.symm h]

/-- A text without quotes is one that a run of other characters can take. -/
theorem quote_not_mem_iff {text : List Char} :
    '"' ∉ text ↔ ∀ c ∈ text, (c != '"') = true := by
  constructor
  · intro hquote c hc
    rw [bne_iff_ne]
    rintro rfl
    exact hquote hc
  · intro hclear hquote
    simpa using hclear _ hquote

/-- Whatever the matcher takes for a default part is one. -/
theorem exists_part_of_defaultPart {cs rest : List Char} {default : Option (List Char)}
    (h : defaultPart cs = some (default, rest)) :
    ∃ part, DefaultWritten default part ∧ cs = part ++ rest := by
  unfold defaultPart at h
  split at h
  · next cs =>
      simp only [Option.bind_eq_bind, Option.bind_eq_some_iff] at h
      obtain ⟨behindOpening, hopening, behindText, hclosing, hresult⟩ := h
      obtain ⟨rfl, rfl⟩ := Prod.mk.inj (Option.some.inj hresult)
      obtain ⟨blanks, hblanks, hcs⟩ := exists_blanks_append_skip cs
      have htext : '"' ∉ behindOpening.takeWhile (· != '"') :=
        quote_not_mem_iff.mpr (takeWhile_all _ _)
      -- The bar, the blanks, the word, the text up to its quote, and the end.
      have hsplit : behindOpening
          = behindOpening.takeWhile (· != '"') ++ (defaultClosing ++ behindText) := by
        rw [← after?_eq_some_iff.mp hclosing, List.takeWhile_append_dropWhile]
      refine ⟨_, .given hblanks htext, ?_⟩
      rw [hcs, after?_eq_some_iff.mp hopening]
      conv_lhs => rw [hsplit]
      simp only [List.append_assoc, List.cons_append]
  · obtain ⟨rfl, rfl⟩ := Prod.mk.inj (Option.some.inj h)
    exact ⟨[], .absent, rfl⟩

theorem stops_cons {p : Char → Bool} {c : Char} {cs : List Char} (h : p c = false) :
    Stops p (c :: cs) := by
  intro d hd
  cases hd
  exact h

/-- A default part is found as it is written, whatever follows its end. -/
theorem defaultPart_given {blanks text : List Char} (hblanks : IsBlank blanks) (htext : '"' ∉ text)
    (rest : List Char) :
    defaultPart ('|' :: (blanks ++ (defaultOpening ++ (text ++ (defaultClosing ++ rest)))))
      = some (some text, rest) := by
  have hword : Blank.skip (blanks ++ (defaultOpening ++ (text ++ (defaultClosing ++ rest))))
      = defaultOpening ++ (text ++ (defaultClosing ++ rest)) := by
    rw [skip_append hblanks]
    exact skip_of_stops (stops_cons rfl)
  have hclear : ∀ c ∈ text, (c != '"') = true := quote_not_mem_iff.mp htext
  have hquote : Stops (· != '"') (defaultClosing ++ rest) := stops_cons rfl
  unfold defaultPart
  simp only [hword, after?_eq_some_iff.mpr rfl, Option.bind_eq_bind, Option.bind_some,
    dropWhile_append_of_stops hclear hquote, takeWhile_append_of_stops hclear hquote]
  rfl

/-- A default part in front of blanks and braces is found, behind blanks too. -/
theorem exists_defaultPart_skip {between part behind : List Char}
    {default : Option (List Char)} (hbetween : IsBlank between)
    (hpart : DefaultWritten default part) (hbehind : IsBlank behind) (rest : List Char) :
    ∃ cs, defaultPart (Blank.skip (between ++ (part ++ (behind ++ (closing ++ rest)))))
        = some (default, cs)
      ∧ Blank.skip cs = closing ++ rest := by
  have hbrace : Blank.skip (closing ++ rest) = closing ++ rest := skip_of_stops (stops_cons rfl)
  rw [skip_append hbetween]
  cases hpart with
  | absent =>
      -- The blanks before and behind nothing are skipped at once.
      refine ⟨closing ++ rest, ?_, hbrace⟩
      rw [List.nil_append, skip_append hbehind, hbrace]
      rfl
  | given hblanks htext =>
      refine ⟨behind ++ (closing ++ rest), ?_, ?_⟩
      · simp only [List.cons_append, List.append_assoc]
        rw [skip_of_stops (stops_cons rfl)]
        exact defaultPart_given hblanks htext _
      · rw [skip_append hbehind, hbrace]

/-- A key ends where a default part or the braces begin, behind blanks too. -/
theorem stops_key {between part behind : List Char} {default : Option (List Char)}
    (hbetween : IsBlank between) (hpart : DefaultWritten default part) (hbehind : IsBlank behind)
    (rest : List Char) :
    Stops isKeyChar (between ++ (part ++ (behind ++ (closing ++ rest)))) := by
  cases between with
  | cons b between => exact stops_cons (isKeyChar_of_blank (hbetween b List.mem_cons_self))
  | nil =>
      cases hpart with
      | given hblanks htext => exact stops_cons rfl
      | absent =>
          cases behind with
          | cons b behind => exact stops_cons (isKeyChar_of_blank (hbehind b List.mem_cons_self))
          | nil => exact stops_cons rfl

/-- A written form is found, whatever follows it. -/
theorem placeholder?_append {raw : List Char} {p : Placeholder} (h : p.Written raw)
    (rest : List Char) : placeholder? (raw ++ rest) = some (p, rest) := by
  cases h with
  | @mk key before between part behind default hbefore hkey hchars hbetween hpart hbehind =>
      have hstops := stops_key hbetween hpart hbehind rest
      obtain ⟨cs, hdefault, hskip⟩ := exists_defaultPart_skip hbetween hpart hbehind rest
      -- The first character of the key is no blank.
      have hkeyStart : ∀ cs, Blank.skip (before ++ (key ++ cs)) = key ++ cs := by
        intro cs
        rw [skip_append hbefore]
        cases key with
        | nil => exact absurd rfl hkey
        | cons k key =>
            refine skip_of_stops (stops_cons ?_)
            rw [← Bool.not_eq_true]
            intro hblank
            have hk := hchars k List.mem_cons_self
            rw [isKeyChar_of_blank hblank] at hk
            cases hk
      unfold placeholder?
      simp only [List.append_assoc, after?_eq_some_iff.mpr rfl, Option.bind_eq_bind,
        Option.bind_some, hkeyStart, takeWhile_append_of_stops hchars hstops,
        dropWhile_append_of_stops hchars hstops, hdefault, hskip]
      rw [if_neg (by simpa using hkey)]
      rfl

/-- **A placeholder is found exactly where a written form of it begins.** -/
theorem placeholder?_eq_some_iff {cs rest : List Char} {p : Placeholder} :
    placeholder? cs = some (p, rest) ↔ ∃ raw, p.Written raw ∧ cs = raw ++ rest := by
  constructor
  · intro h
    unfold placeholder? at h
    simp only [Option.bind_eq_bind, Option.bind_eq_some_iff] at h
    obtain ⟨behindOpening, hopening, h⟩ := h
    split at h
    · cases h
    next hkey =>
    obtain ⟨⟨default, behindPart⟩, hpart, behindClosing, hclosing, hresult⟩ := by
      simpa only [Option.bind_eq_bind, Option.bind_eq_some_iff] using h
    obtain ⟨rfl, rfl⟩ := Prod.mk.inj (Option.some.inj hresult)
    -- Each part of the matcher has left what stands behind what it took.
    obtain ⟨before, hbefore, hafterOpening⟩ := exists_blanks_append_skip behindOpening
    generalize Blank.skip behindOpening = fromKey at *
    obtain ⟨between, hbetween, hafterKey⟩ :=
      exists_blanks_append_skip (fromKey.dropWhile isKeyChar)
    obtain ⟨part, hwritten, hafterBlanks⟩ := exists_part_of_defaultPart hpart
    obtain ⟨behind, hbehind, hafterPart⟩ := exists_blanks_append_skip behindPart
    refine ⟨_, .mk hbefore (by simpa using hkey) (takeWhile_all _ _) hbetween hwritten hbehind, ?_⟩
    have hsplit : fromKey = fromKey.takeWhile isKeyChar
        ++ (between ++ (part ++ (behind ++ (closing ++ behindClosing)))) := by
      rw [← after?_eq_some_iff.mp hclosing, ← hafterPart, ← hafterBlanks, ← hafterKey,
        List.takeWhile_append_dropWhile]
    rw [after?_eq_some_iff.mp hopening, hafterOpening]
    conv_lhs => rw [hsplit]
    simp only [List.append_assoc]
  · rintro ⟨raw, hraw, rfl⟩
    exact placeholder?_append hraw rest

end ErrorContract.Template
