/-
  ErrorContract.Proofs.AsciiUrls
  ──────────────────────────────
  **URLS OF ASCII DO NOT DEPEND ON TABLES OF UNICODE.**

  A reader of URLs is given a conversion that brings domain names into ASCII.
  Of a `Lawful` one this is known and no more: of a name that is in ASCII
  already, with nothing escaped and no label in Punycode, it makes the
  letters small, and it refuses one with a character that no name may hold.

  Main statement `parse_eq_of_plain`: whatever the lawful conversions, a URL
  of such characters is read alike.  The tables of `Domain` are one of them
  (`lawful_toAscii`), so that what they lack beyond ASCII matters to no such
  URL in the settings (`readUrl_of_plain`).
-/
import Mathlib.Data.List.Infix
import Mathlib.Data.List.TakeDrop
import ErrorContract.Config.Schema
import ErrorContract.Proofs.Encoding

namespace ErrorContract

/-! ## §1. Pieces of a name, and its bytes. -/

namespace Pieces

theorem cut_eq_splitOnP (separates : α → Bool) (l : List α) :
    cut separates l = l.splitOnP separates := by
  induction l with
  | nil => rfl
  | cons a rest ih =>
      rw [List.splitOnP_cons_eq_if_modifyHead, cut, ih]
      cases hpieces : rest.splitOnP separates with
      | nil => exact absurd hpieces (List.splitOnP_ne_nil separates rest)
      | cons piece more => rfl

theorem intercalate_cut [DecidableEq α] (separator : α) (l : List α) :
    List.intercalate [separator] (cut (· == separator) l) = l := by
  rw [cut_eq_splitOnP]
  exact List.intercalate_splitOn separator

/-- A piece stands in the list as it is; the first one, in front of it. -/
theorem cut_spec (separates : α → Bool) (l : List α) :
    ∃ first more, cut separates l = first :: more ∧ first <+: l ∧ ∀ piece ∈ more, piece <:+: l := by
  induction l with
  | nil => exact ⟨[], [], rfl, List.prefix_rfl, nofun⟩
  | cons a rest ih =>
      obtain ⟨first, more, hcut, hfirst, hmore⟩ := ih
      have hbehind : ∀ piece ∈ more, piece <:+: a :: rest := fun piece hpiece =>
        List.infix_cons (hmore piece hpiece)
      rw [cut, hcut]
      by_cases ha : separates a = true
      · refine ⟨[], first :: more, if_pos ha, List.nil_prefix, ?_⟩
        rintro piece (_ | ⟨_, hpiece⟩)
        · exact List.infix_cons hfirst.isInfix
        · exact hbehind piece hpiece
      · exact ⟨a :: first, more, if_neg ha, List.cons_prefix_cons.mpr ⟨rfl, hfirst⟩, hbehind⟩

theorem infix_of_mem_cut {separates : α → Bool} {l piece : List α}
    (h : piece ∈ cut separates l) : piece <:+: l := by
  obtain ⟨first, more, hcut, hfirst, hmore⟩ := cut_spec separates l
  rw [hcut] at h
  rcases List.mem_cons.mp h with rfl | hpiece
  · exact hfirst.isInfix
  · exact hmore piece hpiece

end Pieces

theorem Percent.decode_of_not_mem {bytes : List UInt8} (h : 0x25 ∉ bytes) :
    decode bytes = bytes := by
  fun_induction decode bytes with
  | case1 a b rest => exact absurd List.mem_cons_self h
  | case2 a b rest => exact absurd List.mem_cons_self h
  | case3 b rest _ ih => rw [ih fun hb => h (List.mem_cons_of_mem b hb)]
  | case4 => rfl

namespace Url

/-- **Plain text**: characters of ASCII in which nothing is escaped, neither by percent signs nor
in Punycode. -/
structure Plain (cs : List Char) : Prop where
  ascii : ∀ c ∈ cs, Punycode.isBasic c = true
  unescaped : '%' ∉ cs
  unmarked : ¬ Domain.marker <:+: cs.map Char.toLower

instance (cs : List Char) : Decidable (Plain cs) :=
  decidable_of_iff (cs.all Punycode.isBasic = true ∧ '%' ∉ cs
      ∧ ¬ Domain.marker <:+: cs.map Char.toLower)
    ⟨fun ⟨hascii, hpercent, hmarker⟩ => ⟨List.all_eq_true.mp hascii, hpercent, hmarker⟩,
      fun h => ⟨List.all_eq_true.mpr h.ascii, h.unescaped, h.unmarked⟩⟩

theorem Plain.of_part {part cs : List Char} (h : Plain cs) (hpart : part <:+: cs) : Plain part where
  ascii c hc := h.ascii c (hpart.subset hc)
  unescaped hmem := h.unescaped (hpart.subset hmem)
  unmarked hmarker := h.unmarked (hmarker.trans (hpart.map Char.toLower))

theorem Plain.decode_eq {cs : List Char} (h : Plain cs) :
    Percent.decode (Utf8.encode (String.ofList cs)) = cs.flatMap Utf8.encodeChar := by
  rw [Utf8.encode, String.toList_ofList]
  refine Percent.decode_of_not_mem fun hmem => ?_
  obtain ⟨c, hc, hbyte⟩ := List.mem_flatMap.mp hmem
  have hbasic : c.toNat < 0x80 := of_decide_eq_true (h.ascii c hc)
  rw [Utf8.encodeChar, if_pos hbasic, List.mem_singleton] at hbyte
  have hnumber : c.toNat = 0x25 := by
    rw [← Utf8.toNat_toUInt8 (show c.toNat < 256 by omega), ← hbyte]
    rfl
  have hpercent : c = '%' := by rw [← Char.ofNat_toNat c, hnumber]
  exact h.unescaped (hpercent ▸ hc)

/-! ## §2. Lawful conversions. -/

/-- **What a conversion makes of plain names**, if it is one: it refuses what no name may hold,
and makes the letters of all others small. -/
def Lawful (toAscii : ToAscii) : Prop :=
  ∀ cs, Plain cs → toAscii (cs.flatMap Utf8.encodeChar)
    = if cs.any Domain.isForbidden then none else some (cs.map Char.toLower)

end Url

namespace Domain

/-- What holds of 128 characters holds of every one of ASCII. -/
theorem of_isBasic {P : Char → Prop} (h : ∀ n ∈ List.range 128, P (Char.ofNat n)) {c : Char}
    (hc : Punycode.isBasic c = true) : P c := by
  have hcode := h c.toNat (List.mem_range.mpr (of_decide_eq_true hc))
  rwa [Char.ofNat_toNat] at hcode

theorem replacement_of_isBasic {c : Char} (h : Punycode.isBasic c = true) :
    replacement c = [c.toLower] :=
  of_isBasic (P := fun c => replacement c = [c.toLower]) (by decide +kernel) h

theorem isForbidden_toLower {c : Char} (h : Punycode.isBasic c = true) :
    isForbidden c.toLower = isForbidden c :=
  of_isBasic (P := fun c => isForbidden c.toLower = isForbidden c) (by decide +kernel) h

theorem isBasic_toLower {c : Char} (h : Punycode.isBasic c = true) :
    Punycode.isBasic c.toLower = true :=
  of_isBasic (P := fun c => Punycode.isBasic c.toLower = true) (by decide +kernel) h

/-- A label of ASCII that is not in Punycode stands for itself. -/
theorem labelToAscii_of_isBasic {label : List Char} (hmarker : ¬ marker <+: label)
    (hbasic : ∀ c ∈ label, Punycode.isBasic c = true) : labelToAscii label = some label := by
  rw [labelToAscii, if_neg (by rwa [List.isPrefixOf_iff_prefix]),
    if_pos (List.all_eq_true.mpr hbasic)]

theorem mapM_labelToAscii {labels : List (List Char)}
    (h : ∀ label ∈ labels, labelToAscii label = some label) :
    labels.mapM labelToAscii = some labels := by
  induction labels with
  | nil => rfl
  | cons label labels ih =>
      rw [List.mapM_cons, h label List.mem_cons_self,
        ih fun other hother => h other (List.mem_cons_of_mem label hother)]
      rfl

/-- **The tables make a lawful conversion.** -/
theorem lawful_toAscii : Url.Lawful toAscii := by
  intro cs h
  have hdecode : Utf8.decode (cs.flatMap Utf8.encodeChar) = .ok cs := Utf8.decode_eq_ok_iff.mpr rfl
  have hreplaced : cs.flatMap replacement = cs.map Char.toLower := by
    rw [List.map_eq_flatMap]
    exact List.flatMap_congr fun c hc => replacement_of_isBasic (h.ascii c hc)
  have hforbidden : (cs.map Char.toLower).any isForbidden = cs.any isForbidden := by
    rw [List.any_map, Bool.eq_iff_iff, List.any_eq_true, List.any_eq_true]
    refine exists_congr fun c => and_congr_right fun hc => ?_
    rw [Function.comp_apply, isForbidden_toLower (h.ascii c hc)]
  -- Every label is a part of the name, so that what the name does not hold no label begins with.
  have hlabels : (Pieces.cut (· == '.') (cs.map Char.toLower)).mapM labelToAscii
      = some (Pieces.cut (· == '.') (cs.map Char.toLower)) := by
    refine mapM_labelToAscii fun label hlabel => ?_
    have hpart := Pieces.infix_of_mem_cut hlabel
    refine labelToAscii_of_isBasic (fun hmarker => ?_) fun c hc => ?_
    · exact h.unmarked (hmarker.isInfix.trans hpart)
    · obtain ⟨capital, hcapital, rfl⟩ := List.mem_map.mp (hpart.subset hc)
      exact isBasic_toLower (h.ascii capital hcapital)
  unfold toAscii
  rw [hdecode]
  dsimp only
  rw [hreplaced, hforbidden, hlabels]
  by_cases hany : cs.any isForbidden = true
  · rw [if_pos hany, if_pos hany]
  · rw [if_neg hany, if_neg hany]
    exact congrArg some (Pieces.intercalate_cut '.' _)

end Domain

namespace Url

/-! ## §3. Parts of a URL. -/

section Parts

variable {toAscii toAscii' : ToAscii} {cs : List Char}

/-- **A plain name as a host**: an address if it ends in a number, and else the name in small
letters. -/
theorem readHost_of_plain (h : Lawful toAscii) (hcs : Plain cs) (hopen : cs.head? ≠ some '[') :
    readHost toAscii cs
      = if cs.any Domain.isForbidden then .error .invalidDomain
        else nameHost (cs.map Char.toLower) := by
  unfold readHost
  split
  · exact absurd rfl hopen
  · rw [hcs.decode_eq, h cs hcs]
    by_cases hany : cs.any Domain.isForbidden = true
    · rw [if_pos hany, if_pos hany]
    · rw [if_neg hany, if_neg hany]

theorem readHost_congr (h : Lawful toAscii) (h' : Lawful toAscii') (hcs : Plain cs) :
    readHost toAscii cs = readHost toAscii' cs := by
  by_cases hopen : cs.head? = some '['
  · -- an address in brackets is read without a conversion
    obtain ⟨inside, rfl⟩ : ∃ inside, cs = '[' :: inside := by
      cases cs with
      | nil => cases hopen
      | cons c inside => exact ⟨inside, by rw [Option.some.inj hopen]⟩
    rfl
  · rw [readHost_of_plain h hcs hopen, readHost_of_plain h' hcs hopen]

theorem splitHost_append (special bracketed : Bool) (cs : List Char) :
    (splitHost special bracketed cs).1 ++ (splitHost special bracketed cs).2 = cs := by
  induction cs generalizing bracketed with
  | nil => rfl
  | cons c rest ih =>
      unfold splitHost
      split
      · rfl
      · exact congrArg (c :: ·) (ih _)

theorem suffix_of_splitCredentials {special : Bool} {credentials : String × String}
    {rest : List Char} (h : splitCredentials special cs = .ok (credentials, rest)) :
    rest <:+ cs := by
  unfold splitCredentials at h
  split at h
  · cases h
    exact List.suffix_rfl
  · dsimp only at h
    split at h
    · cases h
    · cases h
      exact List.drop_suffix _ cs

theorem suffix_of_splitScheme {scheme : String} {rest : List Char}
    (h : splitScheme cs = some (scheme, rest)) : rest <:+ cs := by
  unfold splitScheme at h
  split at h
  · next c front behind hhead hspan =>
      rw [List.span_eq_takeWhile_dropWhile] at hspan
      have hbehind : ':' :: behind <:+ cs := (Prod.mk.inj hspan).2 ▸ List.dropWhile_suffix _
      split at h
      · cases h
        exact (List.suffix_cons ':' _).trans hbehind
      · cases h
  · cases h

/-! ## §4. Whole URLs. -/

theorem readAuthority_congr (h : Lawful toAscii) (h' : Lawful toAscii') (hcs : Plain cs)
    (scheme : String) : readAuthority toAscii scheme cs = readAuthority toAscii' scheme cs := by
  unfold readAuthority
  dsimp only
  cases hsplit : splitCredentials (isSpecial scheme) cs with
  | error fault => rfl
  | ok parts =>
      obtain ⟨⟨username, password⟩, rest⟩ := parts
      have hhost : readHost toAscii (splitHost (isSpecial scheme) false rest).1
          = readHost toAscii' (splitHost (isSpecial scheme) false rest).1 := by
        have hrest : rest <:+: cs := (suffix_of_splitCredentials hsplit).isInfix
        have hfront : (splitHost (isSpecial scheme) false rest).1 <+: rest :=
          ⟨_, splitHost_append _ _ rest⟩
        exact readHost_congr h h' (hcs.of_part (hfront.isInfix.trans hrest))
      dsimp only [bind, Except.bind]
      rw [hhost]

theorem readHosted_congr (h : Lawful toAscii) (h' : Lawful toAscii') (hcs : Plain cs)
    (scheme : String) : readHosted toAscii scheme cs = readHosted toAscii' scheme cs := by
  rw [readHosted, readHosted, readAuthority_congr h h' hcs]

theorem readFile_congr (h : Lawful toAscii) (h' : Lawful toAscii') (hcs : Plain cs) :
    readFile toAscii cs = readFile toAscii' cs := by
  unfold readFile
  dsimp only
  split
  · rename_i a b rest
    have hrest : rest.takeWhile (!endsAuthority true ·) <:+: a :: b :: rest :=
      (List.takeWhile_prefix _).isInfix.trans ((List.suffix_cons b rest).trans
        (List.suffix_cons a _)).isInfix
    rw [List.span_eq_takeWhile_dropWhile]
    dsimp only
    rw [readHost_congr h h' (hcs.of_part hrest)]
  · rfl

/-- **A plain URL is read alike with all lawful conversions.** -/
theorem parse_eq_of_plain (h : Lawful toAscii) (h' : Lawful toAscii') {s : String}
    (hs : Plain (clean s.toList)) : parse toAscii s = parse toAscii' s := by
  unfold parse
  cases hscheme : splitScheme (clean s.toList) with
  | none => rfl
  | some parts =>
      obtain ⟨scheme, rest⟩ := parts
      have hrest : Plain rest := hs.of_part (suffix_of_splitScheme hscheme).isInfix
      dsimp only
      -- Three branches read a host, each behind a different part of what the scheme leaves.
      have hslashes : Plain (rest.dropWhile fun c => c == '/' || c == '\\') :=
        hrest.of_part (List.dropWhile_suffix _).isInfix
      rw [readFile_congr h h' hrest, readHosted_congr h h' hslashes]
      split
      · rfl
      · split
        · rfl
        · split
          · rename_i behind
            have hbehind : behind <:+ '/' :: '/' :: behind :=
              (List.suffix_cons '/' behind).trans (List.suffix_cons '/' _)
            exact readHosted_congr h h' (hrest.of_part hbehind.isInfix) scheme
          · rfl

end Parts

end Url

/-- **A plain URL in the settings does not depend on the tables**: any lawful conversion would
make the same of it. -/
theorem Schema.readUrl_of_plain {toAscii : Url.ToAscii} (h : Url.Lawful toAscii) {s : String}
    (hs : Url.Plain (Url.clean s.toList)) :
    readUrl (.text s) = (Url.parse toAscii s).mapError fun fault =>
      .other (fault.message ++ ": " ++ Quoted.text s) := by
  rw [readUrl, Url.parse_eq_of_plain Domain.lawful_toAscii h hs]

example : Url.Plain (Url.clean "http://Collector:4317 ".toList) := by decide +kernel

end ErrorContract
