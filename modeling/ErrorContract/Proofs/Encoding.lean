/-
  ErrorContract.Proofs.Encoding
  ─────────────────────────────
  **UTF-8 IS READ AS IT IS WRITTEN.**

  The decoder accepts the encodings of texts and nothing else, and gives
  back the text:

      decode bytes = .ok cs   ↔   bytes = cs.flatMap encodeChar

  Both directions go one character at a time.  What a character is made of
  is arithmetic on its number, which its encoding cuts into six bits each.
-/
import ErrorContract.Config.Environment

namespace ErrorContract.Utf8

open ErrorContract

/-! ## §1. Numbers of characters and bytes. -/

/-- The numbers of characters: up to U+10FFFF, without the surrogates. -/
theorem toNat_cases (c : Char) :
    c.toNat < 0xd800 ∨ (0xdfff < c.toNat ∧ c.toNat < 0x110000) := c.valid

theorem toNat_ofNat {n : Nat} (h : n < 0xd800 ∨ (0xdfff < n ∧ n < 0x110000)) :
    (Char.ofNat n).toNat = n := by
  unfold Char.ofNat
  rw [dif_pos h]
  rfl

theorem toNat_toUInt8 {n : Nat} (h : n < 256) : n.toUInt8.toNat = n := by
  show (UInt8.ofNat n).toNat = n
  rw [UInt8.toNat_ofNat', Nat.mod_eq_of_lt h]

theorem toUInt8_eq {b : UInt8} {n : Nat} (h : n = b.toNat) : n.toUInt8 = b := by
  subst h
  exact UInt8.ofNat_toNat

/-- The bytes that lead a character, by its length. -/
theorem lead_eq (b : UInt8) :
    lead b =
      if b.toNat < 0x80 then .char (Char.ofNat b.toNat)
      else if b.toNat < 0xc2 then .bad
      else if b.toNat < 0xe0 then .more ⟨1, b.toNat - 0xc0, 0x80, 0xbf, 1⟩
      else if b.toNat < 0xf0 then
        .more ⟨2, b.toNat - 0xe0, if b.toNat = 0xe0 then 0xa0 else 0x80,
          if b.toNat = 0xed then 0x9f else 0xbf, 1⟩
      else if b.toNat < 0xf5 then
        .more ⟨3, b.toNat - 0xf0, if b.toNat = 0xf0 then 0x90 else 0x80,
          if b.toNat = 0xf4 then 0x8f else 0xbf, 1⟩
      else .bad := by
  unfold lead
  generalize b.toNat = n
  dsimp only
  by_cases he0 : n = 0xe0
  · subst he0; rfl
  by_cases hed : n = 0xed
  · subst hed; rfl
  by_cases hf0 : n = 0xf0
  · subst hf0; rfl
  by_cases hf4 : n = 0xf4
  · subst hf4; rfl
  have hlast : n < 0xf4 ↔ n < 0xf5 := by omega
  simp only [if_neg he0, if_neg hed, if_neg hf0, if_neg hf4, hlast]

/-! ## §2. Every encoding is decoded. -/

section Decoding

variable {position : Nat} {read cs : List Char} {rest bytes : List UInt8} {p : Pending}

/-- A continuation byte within bounds is taken, with its six bits. -/
theorem decodeFrom_tail {n : Nat} (hn : n < 0x40) (hlow : p.low.toNat ≤ 0x80 + n)
    (hhigh : 0x80 + n ≤ p.high.toNat) :
    decodeFrom position read (some p) ((0x80 + n).toUInt8 :: rest)
      = if p.owed ≤ 1 then
          decodeFrom (position + 1) (Char.ofNat (p.value * 0x40 + n) :: read) none rest
        else
          decodeFrom (position + 1) read
            (some ⟨p.owed - 1, p.value * 0x40 + n, 0x80, 0xbf, p.seen + 1⟩) rest := by
  have hbyte : (0x80 + n).toUInt8.toNat = 0x80 + n := toNat_toUInt8 (by omega)
  have hwithin : (decide (p.low ≤ (0x80 + n).toUInt8) && decide ((0x80 + n).toUInt8 ≤ p.high))
      = true := by
    simp only [UInt8.le_iff_toNat_le, hbyte, hlow, hhigh, decide_true, Bool.and_self]
  rw [decodeFrom, Pending.continue, if_pos hwithin, hbyte, Nat.add_sub_cancel_left]
  by_cases howed : p.owed ≤ 1
  · simp only [if_pos howed]
  · simp only [if_neg howed]

section Whole

variable {k n₁ n₂ n₃ : Nat}

/-- A bound that a lead may raise is kept if it is where the lead raises it. -/
theorem toNat_low_le_iff {raised : Prop} [Decidable raised] {low : UInt8} {n : Nat} :
    (if raised then low else 0x80).toNat ≤ 0x80 + n ↔ (raised → low.toNat ≤ 0x80 + n) := by
  by_cases h : raised
  · rw [if_pos h]
    exact ⟨fun hle _ => hle, fun hle => hle h⟩
  · rw [if_neg h]
    exact ⟨fun _ hraised => absurd hraised h, fun _ => Nat.le_add_right _ n⟩

/-- So is one that a lead may lower. -/
theorem le_toNat_high_iff {lowered : Prop} [Decidable lowered] {high : UInt8} {n : Nat}
    (hn : n < 0x40) :
    0x80 + n ≤ (if lowered then high else 0xbf).toNat ↔ (lowered → 0x80 + n ≤ high.toNat) := by
  by_cases h : lowered
  · rw [if_pos h]
    exact ⟨fun hle _ => hle, fun hle => hle h⟩
  · rw [if_neg h]
    refine ⟨fun _ hlowered => absurd hlowered h, fun _ => ?_⟩
    show 0x80 + n ≤ 0xbf
    omega

theorem decodeFrom_lead_two (hk : 2 ≤ k ∧ k < 0x20) :
    decodeFrom position read none ((0xc0 + k).toUInt8 :: rest)
      = decodeFrom (position + 1) read (some ⟨1, k, 0x80, 0xbf, 1⟩) rest := by
  have hlead : (0xc0 + k).toUInt8.toNat = 0xc0 + k := toNat_toUInt8 (by omega)
  rw [decodeFrom, lead_eq, hlead, if_neg (by omega), if_neg (by omega), if_pos (by omega),
    Nat.add_sub_cancel_left]

/-- Behind 0xe0 no short form may follow, behind 0xed no surrogate. -/
theorem decodeFrom_lead_three (hk : k < 0x10) :
    decodeFrom position read none ((0xe0 + k).toUInt8 :: rest)
      = decodeFrom (position + 1) read
          (some ⟨2, k, if k = 0 then 0xa0 else 0x80, if k = 0xd then 0x9f else 0xbf, 1⟩) rest := by
  have hlead : (0xe0 + k).toUInt8.toNat = 0xe0 + k := toNat_toUInt8 (by omega)
  have hshort : 0xe0 + k = 0xe0 ↔ k = 0 := by omega
  have hsurrogate : 0xe0 + k = 0xed ↔ k = 0xd := by omega
  rw [decodeFrom, lead_eq, hlead, if_neg (by omega), if_neg (by omega), if_neg (by omega),
    if_pos (by omega), Nat.add_sub_cancel_left]
  simp only [hshort, hsurrogate]

/-- Behind 0xf0 no short form may follow, behind 0xf4 nothing beyond U+10FFFF. -/
theorem decodeFrom_lead_four (hk : k < 5) :
    decodeFrom position read none ((0xf0 + k).toUInt8 :: rest)
      = decodeFrom (position + 1) read
          (some ⟨3, k, if k = 0 then 0x90 else 0x80, if k = 4 then 0x8f else 0xbf, 1⟩) rest := by
  have hlead : (0xf0 + k).toUInt8.toNat = 0xf0 + k := toNat_toUInt8 (by omega)
  have hshort : 0xf0 + k = 0xf0 ↔ k = 0 := by omega
  have hbeyond : 0xf0 + k = 0xf4 ↔ k = 4 := by omega
  rw [decodeFrom, lead_eq, hlead, if_neg (by omega), if_neg (by omega), if_neg (by omega),
    if_neg (by omega), if_pos (by omega), Nat.add_sub_cancel_left]
  simp only [hshort, hbeyond]

theorem decodeFrom_last {v seen : Nat} (h₁ : n₁ < 0x40) :
    decodeFrom position read (some ⟨1, v, 0x80, 0xbf, seen⟩) ((0x80 + n₁).toUInt8 :: rest)
      = decodeFrom (position + 1) (Char.ofNat (v * 0x40 + n₁) :: read) none rest := by
  have hhigh : 0x80 + n₁ ≤ (0xbf : UInt8).toNat := by
    show _ ≤ 0xbf
    omega
  exact decodeFrom_tail h₁ (Nat.le_add_right _ _) hhigh

theorem decodeFrom_two (hk : 2 ≤ k ∧ k < 0x20) (h₁ : n₁ < 0x40) :
    decodeFrom position read none ((0xc0 + k).toUInt8 :: (0x80 + n₁).toUInt8 :: rest)
      = decodeFrom (position + 2) (Char.ofNat (k * 0x40 + n₁) :: read) none rest :=
  (decodeFrom_lead_two hk).trans (decodeFrom_last h₁)

theorem decodeFrom_three (hk : k < 0x10) (h₁ : n₁ < 0x40) (h₂ : n₂ < 0x40)
    (hshort : k = 0 → 0xa0 ≤ 0x80 + n₁) (hsurrogate : k = 0xd → 0x80 + n₁ ≤ 0x9f) :
    decodeFrom position read none
        ((0xe0 + k).toUInt8 :: (0x80 + n₁).toUInt8 :: (0x80 + n₂).toUInt8 :: rest)
      = decodeFrom (position + 3) (Char.ofNat ((k * 0x40 + n₁) * 0x40 + n₂) :: read) none rest := by
  rw [decodeFrom_lead_three hk]
  exact (decodeFrom_tail h₁ (toNat_low_le_iff.mpr hshort)
    ((le_toNat_high_iff h₁).mpr hsurrogate)).trans (decodeFrom_last h₂)

theorem decodeFrom_four (hk : k < 5) (h₁ : n₁ < 0x40) (h₂ : n₂ < 0x40) (h₃ : n₃ < 0x40)
    (hshort : k = 0 → 0x90 ≤ 0x80 + n₁) (hbeyond : k = 4 → 0x80 + n₁ ≤ 0x8f) :
    decodeFrom position read none ((0xf0 + k).toUInt8 :: (0x80 + n₁).toUInt8
        :: (0x80 + n₂).toUInt8 :: (0x80 + n₃).toUInt8 :: rest)
      = decodeFrom (position + 4)
          (Char.ofNat (((k * 0x40 + n₁) * 0x40 + n₂) * 0x40 + n₃) :: read) none rest := by
  have hhigh : 0x80 + n₂ ≤ (0xbf : UInt8).toNat := by
    show _ ≤ 0xbf
    omega
  rw [decodeFrom_lead_four hk]
  exact (decodeFrom_tail h₁ (toNat_low_le_iff.mpr hshort)
    ((le_toNat_high_iff h₁).mpr hbeyond)).trans
      ((decodeFrom_tail h₂ (Nat.le_add_right _ _) hhigh).trans (decodeFrom_last h₃))

end Whole

/-- **One encoded character is decoded**, whatever follows it. -/
theorem decodeFrom_encodeChar (position : Nat) (read : List Char) (c : Char) (rest : List UInt8) :
    ∃ behind, decodeFrom position read none (encodeChar c ++ rest)
      = decodeFrom behind (c :: read) none rest := by
  have hvalid := toNat_cases c
  have hc : Char.ofNat c.toNat = c := Char.ofNat_toNat c
  have hsix : ∀ n, n % 0x40 < 0x40 := fun n => Nat.mod_lt n (by decide)
  unfold encodeChar
  generalize c.toNat = v at hvalid hc
  subst hc
  dsimp only
  by_cases h₁ : v < 0x80
  · refine ⟨position + 1, ?_⟩
    rw [if_pos h₁, List.singleton_append, decodeFrom, lead_eq, toNat_toUInt8 (by omega), if_pos h₁]
  rw [if_neg h₁]
  -- The six bits of each byte put together are the number again.
  by_cases h₂ : v < 0x800
  · have hvalue : v / 0x40 * 0x40 + v % 0x40 = v := by omega
    refine ⟨position + 2, ?_⟩
    rw [if_pos h₂]
    show decodeFrom position read none (_ :: _ :: rest) = _
    rw [decodeFrom_two (by omega) (hsix v), hvalue]
  rw [if_neg h₂]
  by_cases h₃ : v < 0x10000
  · have hvalue : (v / 0x1000 * 0x40 + v / 0x40 % 0x40) * 0x40 + v % 0x40 = v := by omega
    refine ⟨position + 3, ?_⟩
    rw [if_pos h₃]
    show decodeFrom position read none (_ :: _ :: _ :: rest) = _
    rw [decodeFrom_three (by omega) (hsix _) (hsix v) (by omega) (by omega), hvalue]
  · have hvalue : ((v / 0x40000 * 0x40 + v / 0x1000 % 0x40) * 0x40 + v / 0x40 % 0x40) * 0x40
        + v % 0x40 = v := by omega
    refine ⟨position + 4, ?_⟩
    rw [if_neg h₃]
    show decodeFrom position read none (_ :: _ :: _ :: _ :: rest) = _
    rw [decodeFrom_four (by omega) (hsix _) (hsix _) (hsix v) (by omega) (by omega), hvalue]

theorem decodeFrom_flatMap_encodeChar (position : Nat) (read cs : List Char) :
    decodeFrom position read none (cs.flatMap encodeChar) = .ok (read.reverse ++ cs) := by
  induction cs generalizing position read with
  | nil => simp [decodeFrom]
  | cons c cs ih =>
      obtain ⟨behind, hbehind⟩ :=
        decodeFrom_encodeChar position read c (cs.flatMap encodeChar)
      rw [List.flatMap_cons, hbehind, ih]
      simp

/-! ## §3. Nothing else is. -/

/-- A character that has been begun goes on with a byte within its bounds. -/
theorem exists_tail_of_decodeFrom (hlow : 0x80 ≤ p.low.toNat) (hhigh : p.high.toNat ≤ 0xbf)
    (h : decodeFrom position read (some p) bytes = .ok cs) :
    ∃ n rest, bytes = (0x80 + n).toUInt8 :: rest ∧ n < 0x40 ∧ p.low.toNat ≤ 0x80 + n
      ∧ 0x80 + n ≤ p.high.toNat
      ∧ (if p.owed ≤ 1 then
          decodeFrom (position + 1) (Char.ofNat (p.value * 0x40 + n) :: read) none rest
        else
          decodeFrom (position + 1) read
            (some ⟨p.owed - 1, p.value * 0x40 + n, 0x80, 0xbf, p.seen + 1⟩) rest) = .ok cs := by
  cases bytes with
  | nil => cases h
  | cons b rest =>
      by_cases hwithin : p.low.toNat ≤ b.toNat ∧ b.toNat ≤ p.high.toNat
      · -- the byte is its six bits behind the mark of a tail
        have hbyte : b = (0x80 + (b.toNat - 0x80)).toUInt8 := (toUInt8_eq (by omega)).symm
        have hsix : b.toNat - 0x80 < 0x40 := by omega
        rw [hbyte, decodeFrom_tail hsix (by omega) (by omega)] at h
        exact ⟨b.toNat - 0x80, rest, congrArg (· :: rest) hbyte, hsix, by omega, by omega, h⟩
      · have hbad : p.continue b = .bad := by
          unfold Pending.continue
          rw [if_neg]
          simpa [UInt8.le_iff_toNat_le] using hwithin
        rw [decodeFrom, hbad] at h
        cases h

theorem encodeChar_ofNat {v : Nat} (h : v < 0xd800 ∨ (0xdfff < v ∧ v < 0x110000)) :
    encodeChar (Char.ofNat v) =
      if v < 0x80 then [v.toUInt8]
      else if v < 0x800 then [(0xc0 + v / 0x40).toUInt8, (0x80 + v % 0x40).toUInt8]
      else if v < 0x10000 then
        [(0xe0 + v / 0x1000).toUInt8, (0x80 + v / 0x40 % 0x40).toUInt8, (0x80 + v % 0x40).toUInt8]
      else
        [(0xf0 + v / 0x40000).toUInt8, (0x80 + v / 0x1000 % 0x40).toUInt8,
          (0x80 + v / 0x40 % 0x40).toUInt8, (0x80 + v % 0x40).toUInt8] := by
  unfold encodeChar
  rw [toNat_ofNat h]

section Pieces

variable {k n₁ n₂ n₃ : Nat}

theorem encodeChar_two (hk : 2 ≤ k ∧ k < 0x20) (h₁ : n₁ < 0x40) :
    encodeChar (Char.ofNat (k * 0x40 + n₁)) = [(0xc0 + k).toUInt8, (0x80 + n₁).toUInt8] := by
  have hlead : (k * 0x40 + n₁) / 0x40 = k := by omega
  have hlast : (k * 0x40 + n₁) % 0x40 = n₁ := by omega
  rw [encodeChar_ofNat (by omega), if_neg (by omega), if_pos (by omega), hlead, hlast]

theorem encodeChar_three (hk : k < 0x10) (h₁ : n₁ < 0x40) (h₂ : n₂ < 0x40)
    (hshort : k = 0 → 0xa0 ≤ 0x80 + n₁) (hsurrogate : k = 0xd → 0x80 + n₁ ≤ 0x9f) :
    encodeChar (Char.ofNat ((k * 0x40 + n₁) * 0x40 + n₂))
      = [(0xe0 + k).toUInt8, (0x80 + n₁).toUInt8, (0x80 + n₂).toUInt8] := by
  have hlead : ((k * 0x40 + n₁) * 0x40 + n₂) / 0x1000 = k := by omega
  have hmiddle : ((k * 0x40 + n₁) * 0x40 + n₂) / 0x40 % 0x40 = n₁ := by omega
  have hlast : ((k * 0x40 + n₁) * 0x40 + n₂) % 0x40 = n₂ := by omega
  rw [encodeChar_ofNat (by omega), if_neg (by omega), if_neg (by omega), if_pos (by omega), hlead,
    hmiddle, hlast]

theorem encodeChar_four (hk : k < 5) (h₁ : n₁ < 0x40) (h₂ : n₂ < 0x40) (h₃ : n₃ < 0x40)
    (hshort : k = 0 → 0x90 ≤ 0x80 + n₁) (hbeyond : k = 4 → 0x80 + n₁ ≤ 0x8f) :
    encodeChar (Char.ofNat (((k * 0x40 + n₁) * 0x40 + n₂) * 0x40 + n₃))
      = [(0xf0 + k).toUInt8, (0x80 + n₁).toUInt8, (0x80 + n₂).toUInt8, (0x80 + n₃).toUInt8] := by
  have hlead : (((k * 0x40 + n₁) * 0x40 + n₂) * 0x40 + n₃) / 0x40000 = k := by omega
  have hsecond : (((k * 0x40 + n₁) * 0x40 + n₂) * 0x40 + n₃) / 0x1000 % 0x40 = n₁ := by omega
  have hthird : (((k * 0x40 + n₁) * 0x40 + n₂) * 0x40 + n₃) / 0x40 % 0x40 = n₂ := by omega
  have hlast : (((k * 0x40 + n₁) * 0x40 + n₂) * 0x40 + n₃) % 0x40 = n₃ := by omega
  rw [encodeChar_ofNat (by omega), if_neg (by omega), if_neg (by omega), if_neg (by omega), hlead,
    hsecond, hthird, hlast]

end Pieces

/-- **What is decoded begins with the encoding of its first character.** -/
theorem exists_encodeChar_of_decodeFrom {b : UInt8}
    (h : decodeFrom position read none (b :: rest) = .ok cs) :
    ∃ c more behind, b :: rest = encodeChar c ++ more
      ∧ decodeFrom behind (c :: read) none more = .ok cs := by
  by_cases h₁ : b.toNat < 0x80
  · rw [decodeFrom, lead_eq, if_pos h₁] at h
    refine ⟨_, rest, _, ?_, h⟩
    rw [encodeChar_ofNat (by omega), if_pos h₁, toUInt8_eq rfl]
    rfl
  by_cases hbad : b.toNat < 0xc2
  · rw [decodeFrom, lead_eq, if_neg h₁, if_pos hbad] at h
    cases h
  by_cases h₂ : b.toNat < 0xe0
  · have hlead : b = (0xc0 + (b.toNat - 0xc0)).toUInt8 := (toUInt8_eq (by omega)).symm
    -- From here on the lead is known by what it leaves of the number.
    generalize hk : b.toNat - 0xc0 = k at hlead
    subst hlead
    rw [decodeFrom_lead_two (by omega)] at h
    obtain ⟨n₁, more, rfl, hn₁, -, -, h⟩ :=
      exists_tail_of_decodeFrom (Nat.le_refl _) (Nat.le_refl _) h
    refine ⟨Char.ofNat (k * 0x40 + n₁), more, _, ?_, h⟩
    rw [encodeChar_two (by omega) hn₁]
    rfl
  by_cases h₃ : b.toNat < 0xf0
  · have hlead : b = (0xe0 + (b.toNat - 0xe0)).toUInt8 := (toUInt8_eq (by omega)).symm
    generalize hk : b.toNat - 0xe0 = k at hlead
    subst hlead
    rw [decodeFrom_lead_three (by omega)] at h
    obtain ⟨n₁, rest₁, rfl, hn₁, hlow, hhigh, h⟩ := exists_tail_of_decodeFrom
      (by dsimp only; split <;> decide) (by dsimp only; split <;> decide) h
    obtain ⟨n₂, more, rfl, hn₂, -, -, h⟩ :=
      exists_tail_of_decodeFrom (Nat.le_refl _) (Nat.le_refl _) h
    refine ⟨Char.ofNat ((k * 0x40 + n₁) * 0x40 + n₂), more, _, ?_, h⟩
    rw [encodeChar_three (by omega) hn₁ hn₂ (toNat_low_le_iff.mp hlow)
      ((le_toNat_high_iff hn₁).mp hhigh)]
    rfl
  by_cases h₄ : b.toNat < 0xf5
  · have hlead : b = (0xf0 + (b.toNat - 0xf0)).toUInt8 := (toUInt8_eq (by omega)).symm
    generalize hk : b.toNat - 0xf0 = k at hlead
    subst hlead
    rw [decodeFrom_lead_four (by omega)] at h
    obtain ⟨n₁, rest₁, rfl, hn₁, hlow, hhigh, h⟩ := exists_tail_of_decodeFrom
      (by dsimp only; split <;> decide) (by dsimp only; split <;> decide) h
    obtain ⟨n₂, rest₂, rfl, hn₂, -, -, h⟩ :=
      exists_tail_of_decodeFrom (Nat.le_refl _) (Nat.le_refl _) h
    obtain ⟨n₃, more, rfl, hn₃, -, -, h⟩ :=
      exists_tail_of_decodeFrom (Nat.le_refl _) (Nat.le_refl _) h
    refine ⟨Char.ofNat (((k * 0x40 + n₁) * 0x40 + n₂) * 0x40 + n₃), more, _, ?_, h⟩
    rw [encodeChar_four (by omega) hn₁ hn₂ hn₃ (toNat_low_le_iff.mp hlow)
      ((le_toNat_high_iff hn₁).mp hhigh)]
    rfl
  · rw [decodeFrom, lead_eq, if_neg h₁, if_neg hbad, if_neg h₂, if_neg h₃, if_neg h₄] at h
    cases h

theorem encodeChar_length_pos (c : Char) : 0 < (encodeChar c).length := by
  unfold encodeChar
  dsimp only
  split
  · simp
  · split
    · simp
    · split <;> simp

theorem exists_flatMap_of_decodeFrom (h : decodeFrom position read none bytes = .ok cs) :
    ∃ more, cs = read.reverse ++ more ∧ bytes = more.flatMap encodeChar := by
  -- Each character takes bytes off the front.
  induction hlength : bytes.length using Nat.strongRecOn generalizing position read bytes with
  | ind n ih =>
      cases bytes with
      | nil =>
          cases h
          exact ⟨[], by simp, rfl⟩
      | cons b rest =>
          obtain ⟨c, more, behind, hsplit, h⟩ := exists_encodeChar_of_decodeFrom h
          have hshorter : more.length < n := by
            have hpos := encodeChar_length_pos c
            have := congrArg List.length hsplit
            simp only [List.length_append] at this
            omega
          obtain ⟨tail, rfl, rfl⟩ := ih _ hshorter h rfl
          exact ⟨c :: tail, by simp, hsplit⟩

/-- **The decoder accepts the encodings of texts, and nothing else.** -/
theorem decode_eq_ok_iff : decode bytes = .ok cs ↔ bytes = cs.flatMap encodeChar := by
  constructor
  · intro h
    obtain ⟨more, rfl, hbytes⟩ := exists_flatMap_of_decodeFrom h
    exact hbytes
  · rintro rfl
    exact decodeFrom_flatMap_encodeChar 0 [] cs

end Decoding

theorem decodeText_eq_ok_iff {bytes : List UInt8} {s : String} :
    decodeText bytes = .ok s ↔ bytes = encode s := by
  unfold decodeText encode
  constructor
  · intro h
    cases hdecode : decode bytes with
    | error fault =>
        rw [hdecode] at h
        cases h
    | ok cs =>
        rw [hdecode] at h
        cases h
        rw [String.toList_ofList]
        exact decode_eq_ok_iff.mp hdecode
  · intro h
    rw [decode_eq_ok_iff.mpr h]
    show Except.ok (String.ofList s.toList) = _
    rw [String.ofList_toList]

end ErrorContract.Utf8

namespace ErrorContract.Environment

open ErrorContract

/-- **A variable has a text if its bytes are the encoding of one.** -/
theorem text?_eq_some_iff {env : Environment} {name s : String} :
    env.text? name = some s ↔ env.bytes? name = some (Utf8.encode s) := by
  unfold text?
  cases hbytes : env.bytes? name with
  | none => simp
  | some bytes =>
      have hdecode : (Utf8.decodeText bytes).toOption = some s ↔ Utf8.decodeText bytes = .ok s := by
        cases Utf8.decodeText bytes <;> simp [Except.toOption]
      simp only [hdecode, Utf8.decodeText_eq_ok_iff, Option.some.injEq]

end ErrorContract.Environment
