/-
  ErrorContract.Proofs.Spelling
  ─────────────────────────────
  **THE MANY WAYS TO SPELL A TEXT.**

  Each character of a text may stand as it is, be escaped by a letter or by
  its number, or be escaped by a pair of surrogates.  `Spelt` says so without
  the scanner, and the scanner reads a token as a text exactly if the token
  spells it.  So the only strings that are no text are those with half of a
  pair, or with bytes that encode nothing.

  Main statement: `text?_eq_some_iff`.
-/
import ErrorContract.Proofs.Skipping
import ErrorContract.Proofs.Written

namespace ErrorContract.Json

open ErrorContract

/-! ## §1. How text is spelt. -/

/-- **The items are one way to write a character.** -/
inductive SpeltChar : StringToken → Char → Prop where
  /-- As it stands, if it is no quote, backslash or control. -/
  | itself {c : Char} (hquote : c ≠ '"') (hbackslash : c ≠ '\\') (hcontrol : ¬ c.toNat < 32) :
      SpeltChar (verbatim (Utf8.encodeChar c)
        (standsForItself_of_mem_encodeChar hquote hbackslash hcontrol)) c
  /-- By its letter. -/
  | short {letter : UInt8} {c : Char} (known : (shortEscape letter).isSome = true)
      (hletter : shortEscape letter = some c) : SpeltChar [.short letter known] c
  /-- By its number. -/
  | code {a b d e : UInt8} {c : Char} (isHex : ∀ x ∈ [a, b, d, e], (hexValue x).isSome = true)
      (hnumber : codeValue a b d e = some c.toNat) : SpeltChar [.code a b d e isHex] c
  /-- By a leading surrogate and a trailing one. -/
  | surrogates {a b d e a' b' d' e' : UInt8} {high low : Nat} {c : Char}
      (isHex : ∀ x ∈ [a, b, d, e], (hexValue x).isSome = true)
      (isHex' : ∀ x ∈ [a', b', d', e'], (hexValue x).isSome = true)
      (hhigh : codeValue a b d e = some high) (hlow : codeValue a' b' d' e' = some low)
      (hleading : 0xd800 ≤ high ∧ high ≤ 0xdbff) (htrailing : 0xdc00 ≤ low ∧ low ≤ 0xdfff)
      (hnumber : c.toNat = 0x10000 + (high - 0xd800) * 0x400 + (low - 0xdc00)) :
      SpeltChar [.code a b d e isHex, .code a' b' d' e' isHex'] c

/-- **The token is one way to write a text.** -/
inductive Spelt : StringToken → List Char → Prop where
  | nil : Spelt [] []
  | cons {items token : StringToken} {c : Char} {cs : List Char} (hchar : SpeltChar items c)
      (hrest : Spelt token cs) : Spelt (items ++ token) (c :: cs)

/-- The number of a character means the character. -/
theorem escapeMeaning_toNat (c : Char) : escapeMeaning none (some c.toNat) = .char c := by
  have hvalid := Utf8.toNat_cases c
  unfold escapeMeaning
  dsimp only
  rw [if_neg (by simp; omega), if_neg (by simp; omega), Char.ofNat_toNat]

/-- A pair of surrogates means the character of the number that they make. -/
theorem escapeMeaning_surrogates {high low : Nat} {c : Char}
    (hleading : 0xd800 ≤ high ∧ high ≤ 0xdbff) (htrailing : 0xdc00 ≤ low ∧ low ≤ 0xdfff)
    (hnumber : c.toNat = 0x10000 + (high - 0xd800) * 0x400 + (low - 0xdc00)) :
    escapeMeaning none (some high) = .leading high
      ∧ escapeMeaning (some high) (some low) = .char c := by
  constructor
  · unfold escapeMeaning
    dsimp only
    rw [if_neg (by simp; omega), if_pos (by simp; omega)]
  · unfold escapeMeaning
    dsimp only
    rw [if_pos (by simp; omega), ← hnumber, Char.ofNat_toNat]

/-- However a character is written, the scanner adds that character. -/
theorem SpeltChar.scans {items : StringToken} {c : Char} (h : SpeltChar items c) :
    Scans items [c] := by
  cases h with
  | itself hquote hbackslash hcontrol => exact .verbatim _
  | short known hletter => exact .short known hletter
  | code isHex hnumber =>
      apply Scans.code isHex
      rw [hnumber]
      exact escapeMeaning_toNat c
  | @surrogates a b d e a' b' d' e' high low _ isHex isHex' hhigh hlow hleading htrailing hnumber =>
      obtain ⟨hfirst, hsecond⟩ := escapeMeaning_surrogates hleading htrailing hnumber
      intro offset start run ps ds rest hscanned
      -- Behind the leading surrogate the scanner waits for the trailing one.
      have hscan : scan offset start run ps .plain (0x5c :: 0x75 :: a :: b :: d :: e ::
          0x5c :: 0x75 :: a' :: b' :: d' :: e' :: rest)
          = scan (offset + 2 + 4 + 2 + 4) (offset + 2 + 4 + 2 + 4) []
            (.char c :: flush start run ps) .plain rest := by
        rw [scan_u, scan_code, hhigh, hfirst]
        dsimp only
        rw [scan_low_u, scan_code, hlow, hsecond]
      exact ⟨_, _, _, _, hscanned.char start c, hscan⟩

theorem Spelt.scans {token : StringToken} {cs : List Char} (h : Spelt token cs) :
    Scans token cs := by
  induction h with
  | nil => exact .nil
  | cons hchar hrest ih => exact hchar.scans.append ih

/-- **However a text is written, it is read as that text.** -/
theorem Spelt.text? {token : StringToken} {s : String} (h : Spelt token s.toList) :
    StringToken.text? token = some s := by
  rw [h.scans.text?, String.ofList_toList]

/-- May the character stand as it is? -/
def mayStand (c : Char) : Bool := c != '"' && c != '\\' && !(c.toNat < 32 : Bool)

theorem mayStand_iff {c : Char} : mayStand c = true ↔ c ≠ '"' ∧ c ≠ '\\' ∧ ¬ c.toNat < 32 := by
  simp [mayStand, and_assoc]

/-- The token in which every character stands as it is. -/
def standing : (cs : List Char) → cs.all mayStand = true → StringToken
  | [], _ => []
  | c :: cs, h =>
    have hfirst := mayStand_iff.mp (Bool.and_eq_true_iff.mp h).1
    verbatim (Utf8.encodeChar c)
        (standsForItself_of_mem_encodeChar hfirst.1 hfirst.2.1 hfirst.2.2)
      ++ standing cs (Bool.and_eq_true_iff.mp h).2

theorem spelt_standing (cs : List Char) (h : cs.all mayStand = true) :
    Spelt (standing cs h) cs := by
  induction cs with
  | nil => exact .nil
  | cons c cs ih =>
      obtain ⟨hquote, hbackslash, hcontrol⟩ := mayStand_iff.mp (Bool.and_eq_true_iff.mp h).1
      exact .cons (.itself hquote hbackslash hcontrol) (ih (Bool.and_eq_true_iff.mp h).2)

/-! ## §2. What is read as a text is spelt. -/

theorem Spelt.append {token token' : StringToken} {cs cs' : List Char} (h : Spelt token cs)
    (h' : Spelt token' cs') : Spelt (token ++ token') (cs ++ cs') := by
  induction h with
  | nil => exact h'
  | cons hchar hrest ih =>
      rw [List.append_assoc]
      exact .cons hchar ih

/-- A character whose bytes stand for themselves may stand as it is. -/
theorem mayStand_of_standsForItself {c : Char}
    (h : ∀ b ∈ Utf8.encodeChar c, StandsForItself b) : c ≠ '"' ∧ c ≠ '\\' ∧ ¬ c.toNat < 32 := by
  refine ⟨?_, ?_, ?_⟩
  · rintro rfl
    exact (h 0x22 (by decide)).1 rfl
  · rintro rfl
    exact (h 0x5c (by decide)).2.1 rfl
  · intro hcontrol
    have hbyte : Utf8.encodeChar c = [c.toNat.toUInt8] := by
      unfold Utf8.encodeChar
      exact if_pos (by omega)
    apply (h c.toNat.toUInt8 (by rw [hbyte]; exact List.mem_cons_self)).2.2
    rw [UInt8.lt_iff_toNat_lt, Utf8.toNat_toUInt8 (by omega)]
    exact hcontrol

theorem verbatim_append {bytes more : List UInt8} (h : ∀ b ∈ bytes ++ more, StandsForItself b) :
    verbatim (bytes ++ more) h
      = verbatim bytes (fun b hb => h b (List.mem_append_left more hb))
        ++ verbatim more (fun b hb => h b (List.mem_append_right bytes hb)) := by
  unfold verbatim
  rw [List.attach_append, List.map_append, List.map_map, List.map_map]
  rfl

/-- Bytes that stand for themselves spell the characters that they encode. -/
theorem spelt_verbatim {bytes : List UInt8} {cs : List Char} (h : ∀ b ∈ bytes, StandsForItself b)
    (hbytes : bytes = cs.flatMap Utf8.encodeChar) : Spelt (verbatim bytes h) cs := by
  subst hbytes
  induction cs with
  | nil => exact .nil
  | cons c cs ih =>
      obtain ⟨hquote, hbackslash, hcontrol⟩ :=
        mayStand_of_standsForItself fun b hb => h b (List.mem_append_left _ hb)
      show Spelt (verbatim (Utf8.encodeChar c ++ cs.flatMap Utf8.encodeChar) h) (c :: cs)
      rw [verbatim_append]
      exact .cons (.itself hquote hbackslash hcontrol) (ih _)

/-- Pieces that decode, decode piece by piece. -/
theorem exists_of_decodePieces_append {ps qs : List Piece} {cs : List Char}
    (h : decodePieces (ps ++ qs) = .ok cs) : ∃ before behind, decodePieces ps = .ok before
      ∧ decodePieces qs = .ok behind ∧ cs = before ++ behind := by
  induction ps generalizing cs with
  | nil => exact ⟨[], cs, rfl, h, rfl⟩
  | cons p ps ih =>
      -- What the first piece decodes to stands in front of what the others do.
      have hbehind : ∀ front : List Char, (decodePieces (ps ++ qs)).map (front ++ ·) = .ok cs →
          ∃ before behind, (decodePieces ps).map (front ++ ·) = .ok before
            ∧ decodePieces qs = .ok behind ∧ cs = before ++ behind := by
        intro front hmap
        cases hrest : decodePieces (ps ++ qs) with
        | error place =>
            rw [hrest] at hmap
            cases hmap
        | ok more =>
            rw [hrest] at hmap
            obtain ⟨before, behind, hbefore, hbehind, rfl⟩ := ih hrest
            refine ⟨front ++ before, behind, ?_, hbehind, ?_⟩
            · rw [hbefore]
              rfl
            · rw [← Except.ok.inj hmap, List.append_assoc]
      cases p with
      | char c => exact hbehind [c] h
      | run start bytes =>
          rw [List.cons_append, decodePieces] at h
          rw [decodePieces]
          cases hrun : Utf8.decode bytes with
          | error fault =>
              rw [hrun] at h
              cases h
          | ok front =>
              rw [hrun] at h
              exact hbehind front h

/-- What the pieces and the current run decode to has been scanned. -/
theorem scanned_of_flush {start : Nat} {run : List UInt8} {ps : List Piece} {cs : List Char}
    (h : decodePieces (flush start run ps).reverse = .ok cs) : Scanned run ps cs := by
  unfold flush at h
  by_cases hrun : run.isEmpty = true
  · rw [if_pos hrun] at h
    rw [List.isEmpty_iff.mp hrun]
    exact ⟨cs, [], h, rfl, (List.append_nil cs).symm⟩
  · rw [if_neg hrun, List.reverse_cons] at h
    obtain ⟨before, behind, hbefore, hbehind, rfl⟩ := exists_of_decodePieces_append h
    refine ⟨before, behind, hbefore, ?_, rfl⟩
    rw [decodePieces] at hbehind
    cases hdecode : Utf8.decode run.reverse with
    | error fault =>
        rw [hdecode] at hbehind
        cases hbehind
    | ok last =>
        rw [hdecode] at hbehind
        obtain rfl : last ++ [] = behind := Except.ok.inj hbehind
        rw [List.append_nil]
        exact Utf8.decode_eq_ok_iff.mp hdecode

/-- Four digits make a number of sixteen bits. -/
theorem codeValue_lt {a b d e : UInt8} {n : Nat} (h : codeValue a b d e = some n) :
    n < 0x10000 := by
  have hdigit : ∀ {b : UInt8} {d : Nat}, hexValue b = some d → d < 16 := by
    intro b d hd
    simp only [hexValue, Bool.and_eq_true, decide_eq_true_eq, UInt8.le_iff_toNat_le] at hd
    simp only [UInt8.toNat_ofNat] at hd
    split at hd
    · cases hd
      omega
    split at hd
    · cases hd
      omega
    split at hd
    · cases hd
      omega
    · cases hd
  have hpush : ∀ {digits : HexDigits} {b : UInt8} {n : Nat}, digits.push b = some n →
      ∃ m d, digits.value = some m ∧ d < 16 ∧ n = m * 16 + d := by
    intro digits b n hn
    unfold HexDigits.push at hn
    split at hn
    · next m d hm hd => exact ⟨m, d, hm, hdigit hd, (Option.some.inj hn).symm⟩
    · cases hn
  -- The number is taken apart from its last digit to its first.
  obtain ⟨m₃, d₃, h₃, hd₃, rfl⟩ := hpush h
  obtain ⟨m₂, d₂, h₂, hd₂, rfl⟩ := hpush h₃
  obtain ⟨m₁, d₁, h₁, hd₁, rfl⟩ := hpush h₂
  obtain ⟨m₀, d₀, h₀, hd₀, rfl⟩ := hpush h₁
  obtain rfl : 0 = m₀ := Option.some.inj h₀
  omega

/-- Four digits that mean a character are its number. -/
theorem eq_of_escapeMeaning_char {n : Nat} {c : Char} (hn : n < 0x10000)
    (h : escapeMeaning none (some n) = .char c) : n = c.toNat := by
  unfold escapeMeaning at h
  simp only [Bool.and_eq_true, decide_eq_true_eq] at h
  split at h
  · cases h
  split at h
  · cases h
  · cases h
    rw [Utf8.toNat_ofNat (by omega)]

/-- Four digits that mean a leading surrogate are its number. -/
theorem eq_of_escapeMeaning_leading {n high : Nat}
    (h : escapeMeaning none (some n) = .leading high) : n = high ∧ 0xd800 ≤ n ∧ n ≤ 0xdbff := by
  unfold escapeMeaning at h
  simp only [Bool.and_eq_true, decide_eq_true_eq] at h
  split at h
  · cases h
  split at h
  · next hrange =>
      cases h
      exact ⟨rfl, hrange⟩
  · cases h

/-- Behind a leading surrogate four digits that mean a character are a trailing one. -/
theorem eq_of_escapeMeaning_pair {n high : Nat} {c : Char}
    (hhigh : 0xd800 ≤ high ∧ high ≤ 0xdbff) (h : escapeMeaning (some high) (some n) = .char c) :
    (0xdc00 ≤ n ∧ n ≤ 0xdfff) ∧ c.toNat = 0x10000 + (high - 0xd800) * 0x400 + (n - 0xdc00) := by
  unfold escapeMeaning at h
  simp only [Bool.and_eq_true, decide_eq_true_eq] at h
  split at h
  · next hrange =>
      -- Two halves in their ranges make a number beyond those of sixteen bits.
      refine ⟨hrange, ?_⟩
      rw [← Escape.char.inj h, Utf8.toNat_ofNat (by omega)]
  · cases h

/-- **The current run and the token spell what stands behind the pieces.** -/
def SpellsOn (ps : List Piece) (run : List UInt8) (token : StringToken) (cs : List Char) : Prop :=
  ∃ before behind, decodePieces ps.reverse = .ok before ∧ cs = before ++ behind
    ∧ ∀ hrun : ∀ b ∈ run.reverse, StandsForItself b,
      Spelt (verbatim run.reverse hrun ++ token) behind

/-- Items that spell a character end the current run. -/
theorem SpellsOn.of_char {start : Nat} {run : List UInt8} {ps : List Piece}
    {items token : StringToken} {c : Char} {cs : List Char} (hchar : SpeltChar items c)
    (h : SpellsOn (.char c :: flush start run ps) [] token cs) :
    SpellsOn ps run (items ++ token) cs := by
  obtain ⟨front, behind, hfront, rfl, hspelt⟩ := h
  rw [List.reverse_cons] at hfront
  -- In front of the character stands what had been scanned, the current run at its end.
  obtain ⟨scanned, last, hscanned, hlast, rfl⟩ := exists_of_decodePieces_append hfront
  obtain rfl : [c] = last := Except.ok.inj hlast
  obtain ⟨before, last, hbefore, hrunBytes, rfl⟩ := scanned_of_flush hscanned
  refine ⟨before, last ++ c :: behind, hbefore, by simp, fun hrun => ?_⟩
  exact (spelt_verbatim hrun hrunBytes).append (.cons hchar (hspelt nofun))

section Scan

variable {offset start offset' : Nat} {run rest : List UInt8} {ps pieces : List Piece}
  {token : StringToken} {cs : List Char}

/-- At the closing quote the current run is all that is left. -/
theorem spellsOn_nil
    (hscan : scan offset start run ps .plain (StringToken.bytes []) = .closed pieces rest offset')
    (hdecode : decodePieces pieces = .ok cs) : SpellsOn ps run [] cs := by
  change scan offset start run ps .plain [0x22] = _ at hscan
  rw [scan, if_pos rfl] at hscan
  obtain rfl : (flush start run ps).reverse = pieces := (Scan.closed.inj hscan).1
  obtain ⟨before, last, hbefore, hlast, rfl⟩ := scanned_of_flush hdecode
  refine ⟨before, last, hbefore, rfl, fun hrun => ?_⟩
  rw [List.append_nil]
  exact spelt_verbatim hrun hlast

/-- A byte that stands for itself is the last one of the run, or the first one of the token. -/
theorem SpellsOn.of_byte {b : UInt8} (notQuote : b ≠ 0x22) (notBackslash : b ≠ 0x5c)
    (notControl : ¬ b < 0x20) (h : SpellsOn ps (b :: run) token cs) :
    SpellsOn ps run (.byte b notQuote notBackslash notControl :: token) cs := by
  obtain ⟨before, behind, hbefore, hcs, hspelt⟩ := h
  refine ⟨before, behind, hbefore, hcs, fun hrun => ?_⟩
  have hmore : ∀ d ∈ (b :: run).reverse, StandsForItself d := by
    intro d hd
    rcases List.mem_cons.mp (List.mem_reverse.mp hd) with rfl | hd
    · exact ⟨notQuote, notBackslash, notControl⟩
    · exact hrun d (List.mem_reverse.mpr hd)
  have hall := hspelt hmore
  simp only [List.reverse_cons] at hall
  rw [verbatim_append, List.append_assoc] at hall
  exact hall

/-- Behind a leading surrogate nothing is scanned on but four more digits. -/
theorem exists_code_of_scan {high : Nat}
    (hscan : scan offset start [] ps (.lowBackslash high) (StringToken.bytes token)
      = .closed pieces rest offset') :
    ∃ a b d e isHex more, token = .code a b d e isHex :: more := by
  cases token with
  | nil => cases hscan
  | cons item more =>
      cases item with
      | byte b notQuote notBackslash notControl =>
          change scan offset start [] ps (.lowBackslash high) (b :: StringToken.bytes more) = _
            at hscan
          rw [scan_low_byte notBackslash] at hscan
          cases hscan
      | short letter known =>
          obtain ⟨c, hletter⟩ := Option.isSome_iff_exists.mp known
          change scan offset start [] ps (.lowBackslash high)
            (0x5c :: letter :: StringToken.bytes more) = _ at hscan
          rw [scan_low_short (known_ne_u hletter)] at hscan
          cases hscan
      | code a b d e isHex => exact ⟨a, b, d, e, isHex, more, rfl⟩

/-- **An escape by digits that is scanned on is one of a character**, by itself or with the item
behind it. -/
theorem exists_spelt_of_scan_code {a b d e : UInt8}
    {isHex : ∀ x ∈ [a, b, d, e], (hexValue x).isSome = true}
    (hscan : scan offset start run ps .plain (StringToken.bytes (.code a b d e isHex :: token))
      = .closed pieces rest offset') :
    ∃ items more c offset₁ start₁, .code a b d e isHex :: token = items ++ more
      ∧ more.length ≤ token.length ∧ SpeltChar items c
      ∧ scan offset₁ start₁ [] (.char c :: flush start run ps) .plain (StringToken.bytes more)
        = .closed pieces rest offset' := by
  obtain ⟨value, hvalue⟩ := Option.isSome_iff_exists.mp (codeValue_isSome isHex)
  rw [StringToken.bytes_cons] at hscan
  change scan offset start run ps .plain
    (0x5c :: 0x75 :: a :: b :: d :: e :: StringToken.bytes token) = _ at hscan
  rw [scan_u, scan_code, hvalue] at hscan
  cases hmeaning : escapeMeaning none (some value) with
  | fault f =>
      rw [hmeaning] at hscan
      cases hscan
  | char c =>
      rw [hmeaning] at hscan
      have hnumber := eq_of_escapeMeaning_char (codeValue_lt hvalue) hmeaning
      exact ⟨[.code a b d e isHex], token, c, _, _, rfl, Nat.le_refl _,
        .code isHex (hnumber ▸ hvalue), hscan⟩
  | leading high =>
      rw [hmeaning] at hscan
      -- The other half of the pair must be the next item.
      obtain ⟨rfl, hleading⟩ := eq_of_escapeMeaning_leading hmeaning
      obtain ⟨a', b', d', e', isHex', more, rfl⟩ := exists_code_of_scan hscan
      obtain ⟨low, hlow⟩ := Option.isSome_iff_exists.mp (codeValue_isSome isHex')
      rw [StringToken.bytes_cons] at hscan
      change scan _ start [] _ (.lowBackslash value)
        (0x5c :: 0x75 :: a' :: b' :: d' :: e' :: StringToken.bytes more) = _ at hscan
      rw [scan_low_u, scan_code, hlow] at hscan
      cases hpair : escapeMeaning (some value) (some low) with
      | fault f =>
          rw [hpair] at hscan
          cases hscan
      | leading high =>
          unfold escapeMeaning at hpair
          dsimp only at hpair
          split at hpair <;> cases hpair
      | char c =>
          rw [hpair] at hscan
          obtain ⟨htrailing, hnumber⟩ := eq_of_escapeMeaning_pair hleading hpair
          exact ⟨[.code a b d e isHex, .code a' b' d' e' isHex'], more, c, _, _, rfl,
            Nat.le_succ _, .surrogates isHex isHex' hvalue hlow hleading htrailing hnumber, hscan⟩

/-- **A token that is scanned to its end spells what its pieces decode to.** The induction is on the
number of items, as a leading surrogate takes the item behind it as well. -/
theorem spellsOn_of_scan (n : Nat) (hn : token.length ≤ n)
    (hscan : scan offset start run ps .plain (StringToken.bytes token)
      = .closed pieces rest offset')
    (hdecode : decodePieces pieces = .ok cs) : SpellsOn ps run token cs := by
  induction n generalizing token offset start run ps with
  | zero =>
      obtain rfl : token = [] := List.eq_nil_of_length_eq_zero (Nat.le_zero.mp hn)
      exact spellsOn_nil hscan hdecode
  | succ n ih =>
      cases token with
      | nil => exact spellsOn_nil hscan hdecode
      | cons item token =>
          have hlength : token.length ≤ n := Nat.le_of_succ_le_succ hn
          cases item with
          | byte b notQuote notBackslash notControl =>
              change scan offset start run ps .plain (b :: StringToken.bytes token) = _ at hscan
              rw [scan_byte notQuote notBackslash notControl] at hscan
              exact (ih hlength hscan).of_byte notQuote notBackslash notControl
          | short letter known =>
              obtain ⟨c, hletter⟩ := Option.isSome_iff_exists.mp known
              change scan offset start run ps .plain (0x5c :: letter :: StringToken.bytes token) = _
                at hscan
              rw [scan_short hletter] at hscan
              exact (ih hlength hscan).of_char (.short known hletter)
          | code a b d e isHex =>
              obtain ⟨items, more, c, _, _, hsplit, hmore, hchar, hrest⟩ :=
                exists_spelt_of_scan_code hscan
              rw [hsplit]
              exact (ih (Nat.le_trans hmore hlength) hrest).of_char hchar

end Scan

/-- **A token is read as a text exactly if it spells the text.** -/
theorem text?_eq_some_iff {token : StringToken} {s : String} :
    StringToken.text? token = some s ↔ Spelt token s.toList := by
  constructor
  · intro h
    unfold StringToken.text? at h
    split at h
    · next pieces rest offset hscan =>
        split at h
        · next cs hdecode =>
            obtain ⟨before, behind, hbefore, rfl, hspelt⟩ :=
              spellsOn_of_scan token.length (Nat.le_refl _) hscan hdecode
            obtain rfl : [] = before := Except.ok.inj hbefore
            rw [← Option.some.inj h, String.toList_ofList]
            exact hspelt nofun
        · cases h
    · cases h
  · exact Spelt.text?

end ErrorContract.Json
