/-
  ErrorContract.Proofs.Written
  ────────────────────────────
  **WHAT IS WRITTEN IS A TOKEN, AND THE TOKEN STANDS FOR IT.**

  Strings and whole numbers are written as tokens of the grammar, and the
  tokens are read back as what was written.  The bytes of a string are
  followed through the scanner one character at a time; `Scanned` is what
  one character hands on to the next: the text read so far, of which a part
  may still wait in the current run.
-/
import ErrorContract.Json.Writer
import ErrorContract.Proofs.Encoding
import ErrorContract.Proofs.Tokens

namespace ErrorContract.Json

open ErrorContract

/-! ## §1. Bytes that stand for themselves. -/

/-- Inside a string the byte stands for itself. -/
def StandsForItself (b : UInt8) : Prop := b ≠ 0x22 ∧ b ≠ 0x5c ∧ ¬ b < 0x20

theorem standsForItself_of_toNat {b : UInt8} (hquote : b.toNat ≠ 0x22)
    (hbackslash : b.toNat ≠ 0x5c) (hcontrol : 0x20 ≤ b.toNat) : StandsForItself b := by
  refine ⟨?_, ?_, ?_⟩
  · rintro rfl
    exact hquote rfl
  · rintro rfl
    exact hbackslash rfl
  · rw [UInt8.lt_iff_toNat_lt]
    exact Nat.not_lt.mpr hcontrol

/-- A character that is not escaped is written as bytes that stand for themselves. -/
theorem standsForItself_of_mem_encodeChar {c : Char} (hquote : c ≠ '"') (hbackslash : c ≠ '\\')
    (hcontrol : ¬ c.toNat < 32) : ∀ b ∈ Utf8.encodeChar c, StandsForItself b := by
  have hquote : c.toNat ≠ 0x22 := fun h => hquote (Char.toNat_inj.mp h)
  have hbackslash : c.toNat ≠ 0x5c := fun h => hbackslash (Char.toNat_inj.mp h)
  have hvalid := Utf8.toNat_cases c
  have hhigh : ∀ n, 0x80 ≤ n → n < 256 → StandsForItself n.toUInt8 := by
    intro n hlow hlimit
    refine standsForItself_of_toNat ?_ ?_ ?_ <;> rw [Utf8.toNat_toUInt8 hlimit] <;> omega
  unfold Utf8.encodeChar
  generalize c.toNat = n at *
  dsimp only
  intro b hb
  by_cases h₁ : n < 0x80
  · rw [if_pos h₁, List.mem_singleton] at hb
    subst hb
    refine standsForItself_of_toNat ?_ ?_ ?_ <;> rw [Utf8.toNat_toUInt8 (by omega)] <;> omega
  rw [if_neg h₁] at hb
  by_cases h₂ : n < 0x800
  · rw [if_pos h₂] at hb
    simp only [List.mem_cons, List.not_mem_nil, or_false] at hb
    rcases hb with rfl | rfl <;> exact hhigh _ (by omega) (by omega)
  rw [if_neg h₂] at hb
  by_cases h₃ : n < 0x10000
  · rw [if_pos h₃] at hb
    simp only [List.mem_cons, List.not_mem_nil, or_false] at hb
    rcases hb with rfl | rfl | rfl <;> exact hhigh _ (by omega) (by omega)
  · rw [if_neg h₃] at hb
    simp only [List.mem_cons, List.not_mem_nil, or_false] at hb
    rcases hb with rfl | rfl | rfl | rfl <;> exact hhigh _ (by omega) (by omega)

/-- Bytes that stand for themselves, as items. -/
def verbatim (bytes : List UInt8) (h : ∀ b ∈ bytes, StandsForItself b) : StringToken :=
  bytes.attach.map fun b => .byte b.1 (h b.1 b.2).1 (h b.1 b.2).2.1 (h b.1 b.2).2.2

theorem bytes_verbatim {bytes : List UInt8} (h : ∀ b ∈ bytes, StandsForItself b) :
    (verbatim bytes h).flatMap StringItem.bytes = bytes := by
  unfold verbatim
  rw [List.flatMap_map]
  show (bytes.attach.flatMap fun b => [b.1]) = bytes
  rw [← List.map_eq_flatMap, List.attach_map_subtype_val]

/-- The scanner takes them into its current run. -/
theorem scan_of_standsForItself {bytes : List UInt8} (h : ∀ b ∈ bytes, StandsForItself b)
    (offset start : Nat) (run : List UInt8) (ps : List Piece) (rest : List UInt8) :
    scan offset start run ps .plain (bytes ++ rest)
      = scan (offset + bytes.length) start (bytes.reverse ++ run) ps .plain rest := by
  induction bytes generalizing offset run with
  | nil => rfl
  | cons b bytes ih =>
      obtain ⟨hquote, hbackslash, hcontrol⟩ := h b List.mem_cons_self
      rw [List.cons_append, scan_byte hquote hbackslash hcontrol,
        ih fun d hd => h d (List.mem_cons_of_mem b hd)]
      simp [Nat.add_assoc, Nat.add_comm 1]

/-! ## §2. What has been scanned. -/

theorem decodePieces_append {ps qs : List Piece} {cs ds : List Char}
    (hps : decodePieces ps = .ok cs) (hqs : decodePieces qs = .ok ds) :
    decodePieces (ps ++ qs) = .ok (cs ++ ds) := by
  induction ps generalizing cs with
  | nil =>
      cases hps
      exact hqs
  | cons p ps ih =>
      cases p with
      | char c =>
          rw [decodePieces] at hps
          cases hrest : decodePieces ps with
          | error place =>
              rw [hrest] at hps
              cases hps
          | ok more =>
              rw [hrest] at hps
              cases hps
              rw [List.cons_append, decodePieces, ih hrest]
              rfl
      | run start bytes =>
          rw [decodePieces] at hps
          rw [List.cons_append, decodePieces]
          cases hrun : Utf8.decode bytes with
          | error fault =>
              rw [hrun] at hps
              cases hps
          | ok front =>
              rw [hrun] at hps
              cases hrest : decodePieces ps with
              | error place =>
                  rw [hrest] at hps
                  cases hps
              | ok more =>
                  rw [hrest] at hps
                  cases hps
                  simp only [ih hrest]
                  show Except.ok _ = Except.ok _
                  rw [List.append_assoc]

/-- **What has been scanned is this text**, its end perhaps in the current run. -/
def Scanned (run : List UInt8) (ps : List Piece) (cs : List Char) : Prop :=
  ∃ before last, decodePieces ps.reverse = .ok before
    ∧ run.reverse = last.flatMap Utf8.encodeChar ∧ cs = before ++ last

namespace Scanned

variable {run : List UInt8} {ps : List Piece} {cs : List Char}

theorem nil : Scanned [] [] [] := ⟨[], [], rfl, rfl, rfl⟩

/-- A character may be added to the run. -/
theorem encodeChar (h : Scanned run ps cs) (c : Char) :
    Scanned ((Utf8.encodeChar c).reverse ++ run) ps (cs ++ [c]) := by
  obtain ⟨before, last, hbefore, hlast, rfl⟩ := h
  refine ⟨before, last ++ [c], hbefore, ?_, List.append_assoc ..⟩
  simp [hlast]

/-- The run may become a piece. -/
theorem flush (h : Scanned run ps cs) (start : Nat) :
    decodePieces (Json.flush start run ps).reverse = .ok cs := by
  obtain ⟨before, last, hbefore, hlast, rfl⟩ := h
  unfold Json.flush
  by_cases hrun : run.isEmpty = true
  · rw [List.isEmpty_iff.mp hrun] at hlast
    -- Nothing is the encoding of nothing only.
    have hnil : Except.ok [] = Except.ok last := Utf8.decode_eq_ok_iff.mpr hlast
    rw [if_pos hrun, ← Except.ok.inj hnil, List.append_nil]
    exact hbefore
  · have hdecode : decodePieces [.run start run.reverse] = .ok last := by
      rw [decodePieces, Utf8.decode_eq_ok_iff.mpr hlast]
      show Except.ok (last ++ []) = _
      rw [List.append_nil]
    rw [if_neg hrun, List.reverse_cons]
    exact decodePieces_append hbefore hdecode

/-- A character may become a piece of its own. -/
theorem char (h : Scanned run ps cs) (start : Nat) (c : Char) :
    Scanned [] (.char c :: Json.flush start run ps) (cs ++ [c]) := by
  refine ⟨cs ++ [c], [], ?_, rfl, (List.append_nil _).symm⟩
  rw [List.reverse_cons]
  exact decodePieces_append (h.flush start) rfl

end Scanned

/-! ## §3. Strings. -/

/-- **Scanning the items adds these characters** to what has been scanned, whatever follows. -/
def Scans (items : StringToken) (cs : List Char) : Prop :=
  ∀ (offset start : Nat) (run : List UInt8) (ps : List Piece) (ds : List Char)
    (rest : List UInt8), Scanned run ps ds → ∃ offset' start' run' ps',
      Scanned run' ps' (ds ++ cs) ∧
      scan offset start run ps .plain (items.flatMap StringItem.bytes ++ rest)
        = scan offset' start' run' ps' .plain rest

namespace Scans

theorem nil : Scans [] [] := fun offset start run ps ds _ h =>
  ⟨offset, start, run, ps, (List.append_nil ds).symm ▸ h, rfl⟩

theorem append {items items' : StringToken} {cs cs' : List Char} (h : Scans items cs)
    (h' : Scans items' cs') : Scans (items ++ items') (cs ++ cs') := by
  intro offset start run ps ds rest hscanned
  obtain ⟨offset₁, start₁, run₁, ps₁, hscanned₁, hscan₁⟩ :=
    h offset start run ps ds (items'.flatMap StringItem.bytes ++ rest) hscanned
  obtain ⟨offset₂, start₂, run₂, ps₂, hscanned₂, hscan₂⟩ :=
    h' offset₁ start₁ run₁ ps₁ (ds ++ cs) rest hscanned₁
  refine ⟨offset₂, start₂, run₂, ps₂, List.append_assoc ds cs cs' ▸ hscanned₂, ?_⟩
  rw [List.flatMap_append, List.append_assoc, hscan₁, hscan₂]

/-- A character that is not escaped. -/
theorem verbatim {c : Char} (h : ∀ b ∈ Utf8.encodeChar c, StandsForItself b) :
    Scans (verbatim (Utf8.encodeChar c) h) [c] := by
  intro offset start run ps ds rest hscanned
  rw [bytes_verbatim, scan_of_standsForItself h]
  exact ⟨_, _, _, _, hscanned.encodeChar c, rfl⟩

/-- A character that is escaped by a letter. -/
theorem short {letter : UInt8} {c : Char} (hknown : (shortEscape letter).isSome = true)
    (hletter : shortEscape letter = some c) : Scans [.short letter hknown] [c] := by
  intro offset start run ps ds rest hscanned
  exact ⟨_, _, _, _, hscanned.char start c, scan_short hletter run rest⟩

/-- A character that is escaped by its number. -/
theorem code {c : Char} {a b d e : UInt8} (hisHex : ∀ x ∈ [a, b, d, e], (hexValue x).isSome = true)
    (hvalue : escapeMeaning none (codeValue a b d e) = .char c) :
    Scans [.code a b d e hisHex] [c] := by
  intro offset start run ps ds rest hscanned
  have hscan : scan offset start run ps .plain (0x5c :: 0x75 :: a :: b :: d :: e :: rest)
      = scan (offset + 2 + 4) (offset + 2 + 4) [] (.char c :: flush start run ps) .plain rest := by
    rw [scan_u, scan_code, hvalue]
  exact ⟨_, _, _, _, hscanned.char start c, hscan⟩

/-- **A token whose items are scanned stands for the text.** -/
theorem text? {items : StringToken} {cs : List Char} (h : Scans items cs) :
    StringToken.text? items = some (String.ofList cs) := by
  obtain ⟨offset, start, run, ps, hscanned, hscan⟩ := h 0 0 [] [] [] [0x22] Scanned.nil
  unfold StringToken.text? StringToken.bytes
  rw [hscan, scan, if_pos rfl]
  simp only [hscanned.flush start, List.nil_append]

end Scans

/-- **The items spell these characters**: they are what is written for them, and scanning them
adds the characters to what has been scanned, whatever follows. -/
structure Spells (items : StringToken) (cs : List Char) : Prop where
  written : items.flatMap StringItem.bytes = (cs.flatMap quoteChar).flatMap Utf8.encodeChar
  scanned : Scans items cs

namespace Spells

theorem nil : Spells [] [] := ⟨rfl, .nil⟩

theorem append {items items' : StringToken} {cs cs' : List Char} (h : Spells items cs)
    (h' : Spells items' cs') : Spells (items ++ items') (cs ++ cs') where
  written := by rw [List.flatMap_append, List.flatMap_append, List.flatMap_append, h.written,
    h'.written]
  scanned := h.scanned.append h'.scanned

/-- A character that is not escaped. -/
theorem unescaped {c : Char} (hwritten : quoteChar c = [c])
    (hplain : ∀ b ∈ Utf8.encodeChar c, StandsForItself b) : ∃ items, Spells items [c] :=
  ⟨verbatim (Utf8.encodeChar c) hplain, by simp [bytes_verbatim, hwritten], .verbatim hplain⟩

/-- A character that is escaped by a letter. -/
theorem short (letter : UInt8) {c : Char} (hletter : shortEscape letter = some c)
    (hwritten : (quoteChar c).flatMap Utf8.encodeChar = [0x5c, letter]) :
    ∃ items, Spells items [c] := by
  have hknown : (shortEscape letter).isSome = true := by
    rw [hletter]
    rfl
  exact ⟨[.short letter hknown], by simp [hwritten, StringItem.bytes], .short hknown hletter⟩

/-- A character that is escaped by its number. -/
theorem code {c : Char} {a b d e : UInt8} (hisHex : ∀ x ∈ [a, b, d, e], (hexValue x).isSome = true)
    (hvalue : escapeMeaning none (codeValue a b d e) = .char c)
    (hwritten : (quoteChar c).flatMap Utf8.encodeChar = [0x5c, 0x75, a, b, d, e]) :
    ∃ items, Spells items [c] :=
  ⟨[.code a b d e hisHex], by simp [hwritten, StringItem.bytes], .code hisHex hvalue⟩

end Spells

theorem escapeMeaning_of_lt {n : Nat} (h : n < 0xd800) :
    escapeMeaning none (some n) = .char (Char.ofNat n) := by
  unfold escapeMeaning
  dsimp only
  rw [if_neg (by simp; omega), if_neg (by simp; omega)]

/-- Every control is escaped by a letter or by its number. -/
theorem exists_spells_control (n : Fin 32) : ∃ items, Spells items [Char.ofNat n] := by
  have hhex : ∀ k : Fin 32, ∀ x ∈ [(0x30 : UInt8), 0x30, (hexDigit (k / 16)).toNat.toUInt8,
      (hexDigit (k % 16)).toNat.toUInt8], (hexValue x).isSome = true := by
    decide +kernel
  have hvalue : ∀ k : Fin 32, codeValue 0x30 0x30 (hexDigit (k / 16)).toNat.toUInt8
      (hexDigit (k % 16)).toNat.toUInt8 = some k.val := by decide +kernel
  have hwritten : ∀ k : Fin 32, k ∈ [(8 : Fin 32), 9, 10, 12, 13] ∨
      (quoteChar (Char.ofNat k)).flatMap Utf8.encodeChar
        = [0x5c, 0x75, 0x30, 0x30, (hexDigit (k / 16)).toNat.toUInt8,
          (hexDigit (k % 16)).toNat.toUInt8] := by decide +kernel
  rcases hwritten n with hshort | hcode
  · simp only [List.mem_cons, List.not_mem_nil, or_false] at hshort
    rcases hshort with rfl | rfl | rfl | rfl | rfl
    · exact Spells.short 0x62 rfl (by decide)
    · exact Spells.short 0x74 rfl (by decide)
    · exact Spells.short 0x6e rfl (by decide)
    · exact Spells.short 0x66 rfl (by decide)
    · exact Spells.short 0x72 rfl (by decide)
  · refine Spells.code (hhex n) ?_ hcode
    rw [hvalue n]
    exact escapeMeaning_of_lt (Nat.lt_trans n.isLt (by decide))

/-- **Every character is spelt somehow.** -/
theorem exists_spells_char (c : Char) : ∃ items, Spells items [c] := by
  by_cases hquote : c = '"'
  · subst hquote
    exact Spells.short 0x22 rfl (by decide)
  by_cases hbackslash : c = '\\'
  · subst hbackslash
    exact Spells.short 0x5c rfl (by decide)
  by_cases hcontrol : c.toNat < 32
  · have := exists_spells_control ⟨c.toNat, hcontrol⟩
    rwa [Char.ofNat_toNat] at this
  · -- The five letters of the writer belong to controls.
    have hne : ∀ k < 32, c ≠ Char.ofNat k := by
      rintro k hk rfl
      rw [Utf8.toNat_ofNat (by omega)] at hcontrol
      exact hcontrol hk
    refine Spells.unescaped ?_ (standsForItself_of_mem_encodeChar hquote hbackslash hcontrol)
    unfold quoteChar
    rw [if_neg hquote, if_neg hbackslash, if_neg (hne 8 (by decide)), if_neg (hne 12 (by decide)),
      if_neg (hne 10 (by decide)), if_neg (hne 13 (by decide)), if_neg (hne 9 (by decide)),
      if_neg hcontrol]

theorem exists_spells (cs : List Char) : ∃ items, Spells items cs := by
  induction cs with
  | nil => exact ⟨[], Spells.nil⟩
  | cons c cs ih =>
      obtain ⟨front, hfront⟩ := exists_spells_char c
      obtain ⟨items, hitems⟩ := ih
      exact ⟨front ++ items, hfront.append hitems⟩

/-- **A string is written as a token that stands for it.** -/
theorem exists_stringToken (s : String) : ∃ token : StringToken,
    (quote s).flatMap Utf8.encodeChar = 0x22 :: StringToken.bytes token
      ∧ StringToken.text? token = some s := by
  obtain ⟨items, hspells⟩ := exists_spells s.toList
  refine ⟨items, ?_, ?_⟩
  · have hquote : Utf8.encodeChar '"' = [0x22] := by decide
    simp [quote, StringToken.bytes, hspells.written, hquote]
  · rw [hspells.scanned.text?, String.ofList_toList]

/-- **A quoted string says where it ends**: what is written behind it does not blur it. -/
theorem quote_append_inj {s t : String} {cs ds : List Char} (h : quote s ++ cs = quote t ++ ds) :
    s = t ∧ cs = ds := by
  obtain ⟨tokenS, hbytesS, htextS⟩ := exists_stringToken s
  obtain ⟨tokenT, hbytesT, htextT⟩ := exists_stringToken t
  -- Both are read from the same bytes, and the reader has only one answer.
  have hbytes : StringToken.bytes tokenS ++ cs.flatMap Utf8.encodeChar
      = StringToken.bytes tokenT ++ ds.flatMap Utf8.encodeChar := by
    have := congrArg (List.flatMap Utf8.encodeChar) h
    rw [List.flatMap_append, List.flatMap_append, hbytesS, hbytesT] at this
    exact (List.cons.inj this).2
  have hread : ∀ (token : StringToken) (cs : List Char),
      Meets (cs.flatMap Utf8.encodeChar) (meaning token.text?)
        (string ⟨StringToken.bytes token ++ cs.flatMap Utf8.encodeChar, 0, .complete⟩) :=
    fun token _ => meets_string token ⟨rfl, rfl⟩
  have hreadS := hread tokenS cs
  have hreadT := hread tokenT ds
  rw [htextS, hbytes] at hreadS
  rw [htextT] at hreadT
  obtain ⟨c₁, hc₁, hrest₁, -⟩ := hreadS
  obtain ⟨c₂, hc₂, hrest₂, -⟩ := hreadT
  obtain ⟨rfl, rfl⟩ := EStateM.Result.ok.inj (hc₁.symm.trans hc₂)
  refine ⟨rfl, ?_⟩
  have hdecode := Utf8.decode_eq_ok_iff.mpr (hrest₁.symm.trans hrest₂)
  rw [Utf8.decode_eq_ok_iff.mpr rfl] at hdecode
  exact Except.ok.inj hdecode

/-! ## §4. Whole numbers. -/

/-- The number that digits behind a number make of it. -/
def appendDigits (n : Nat) (ds : List UInt8) : Nat := ds.foldl (fun n d => n * 10 + digitValue d) n

theorem le_appendDigits (n : Nat) (ds : List UInt8) : n ≤ appendDigits n ds := by
  induction ds generalizing n with
  | nil => exact Nat.le_refl n
  | cons d ds ih =>
      have : n * 10 + digitValue d ≤ appendDigits (n * 10 + digitValue d) ds := ih _
      show n ≤ appendDigits (n * 10 + digitValue d) ds
      omega

/-- Digits are gathered to the last if the number stays below the limit. -/
theorem gather_eq_appendDigits {limit n : Nat} {ds : List UInt8} (h : appendDigits n ds < limit) :
    gather limit n ds = (appendDigits n ds, []) := by
  induction ds generalizing n with
  | nil => rfl
  | cons d ds ih =>
      have hbelow : n * 10 + digitValue d < limit :=
        Nat.lt_of_le_of_lt (le_appendDigits (n * 10 + digitValue d) ds) h
      rw [gather]
      simp only [if_pos hbelow]
      exact ih h

theorem encodeChar_digitChar {d : Nat} (h : d < 10) :
    ∃ b, Utf8.encodeChar (Decimal.digitChar d) = [b] ∧ isDigit b = true ∧ digitValue b = d
      ∧ (b = 0x30 → d = 0) := by
  match d, h with
  | 0, _ | 1, _ | 2, _ | 3, _ | 4, _ | 5, _ | 6, _ | 7, _ | 8, _ | 9, _ =>
    exact ⟨_, rfl, by decide, by decide, by decide⟩

/-- **A numeral is written as digits that make its number**; only zero begins with a zero. -/
theorem exists_digits (n : Nat) : ∃ first more,
    (Decimal.digits n).flatMap Utf8.encodeChar = first :: more ∧ isDigit first = true
      ∧ (∀ d ∈ more, isDigit d = true) ∧ (first = 0x30 → n = 0 ∧ more = [])
      ∧ appendDigits (digitValue first) more = n := by
  fun_induction Decimal.digits n with
  | case1 n h =>
      obtain ⟨b, hb, hdigit, hvalue, hzero⟩ := encodeChar_digitChar h
      exact ⟨b, [], by simp [hb], hdigit, by simp, fun h => ⟨hzero h, rfl⟩, hvalue⟩
  | case2 n h ih =>
      obtain ⟨first, more, hwritten, hfirst, hmore, hzero, hvalue⟩ := ih
      obtain ⟨b, hb, hdigit, hlast, -⟩ := encodeChar_digitChar (Nat.mod_lt n (by decide : 10 > 0))
      refine ⟨first, more ++ [b], by simp [hwritten, hb], hfirst, ?_, ?_, ?_⟩
      · intro d hd
        rcases List.mem_append.mp hd with hd | hd
        · exact hmore d hd
        · rw [List.mem_singleton.mp hd]
          exact hdigit
      · intro h
        have := (hzero h).1
        omega
      · unfold appendDigits at hvalue ⊢
        rw [List.foldl_append, hvalue, List.foldl_cons, List.foldl_nil, hlast]
        omega

/-- **A whole number that fits a word is written as a token that stands for it.** -/
theorem exists_numberToken {i : Int} (hlow : -9223372036854775808 ≤ i)
    (hhigh : i < 18446744073709551616) :
    ∃ token : NumberToken, (Decimal.signedDigits i).flatMap Utf8.encodeChar = token.bytes
      ∧ token.value? = some (.int i) := by
  have htoken : ∀ (n : Nat) (negative : Bool), n < wordLimit → ∃ token : NumberToken,
      token.bytes
        = (if negative then [0x2d] else []) ++ (Decimal.digits n).flatMap Utf8.encodeChar
      ∧ token.value? = some (whole (!negative) n) := by
    intro n negative hn
    obtain ⟨first, more, hwritten, hfirst, hmore, hzero, hvalue⟩ := exists_digits n
    refine ⟨⟨negative, first, more, [], none, hfirst, hmore, fun h => (hzero h).2, by simp⟩, ?_, ?_⟩
    · simp [NumberToken.bytes, NumberToken.behindFirst, NumberToken.fractionBytes,
        NumberToken.exponentBytes, hwritten]
    · unfold NumberToken.value?
      rw [gather_eq_appendDigits (hvalue.symm ▸ hn), hvalue]
      rfl
  cases i with
  | ofNat n =>
      obtain ⟨token, hbytes, hvalue⟩ := htoken n false (Int.ofNat_lt.mp hhigh)
      exact ⟨token, hbytes.symm, hvalue⟩
  | negSucc n =>
      have hn : n + 1 ≤ Nat.pow 2 63 := by
        show n + 1 ≤ 9223372036854775808
        omega
      obtain ⟨token, hbytes, hvalue⟩ := htoken (n + 1) true (by
        show n + 1 < 18446744073709551616
        omega)
      refine ⟨token, ?_, ?_⟩
      · rw [hbytes]
        rfl
      · rw [hvalue]
        unfold whole
        rw [if_neg (by decide), if_pos (by simp [hn])]
        rfl

end ErrorContract.Json
