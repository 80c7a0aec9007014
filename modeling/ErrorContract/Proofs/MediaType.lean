/-
  ErrorContract.Proofs.MediaType
  ──────────────────────────────
  **WHICH CONTENT TYPES NAME JSON.**

  Of all headers only the first content type is looked at, and of its value
  only the essence: what stands in front of the first semicolon, between
  margins.  `HasEssence value e` says so of the bytes, and `NamesJson e` lists
  the names of JSON, capitals or not.  All that is asked of the rest of the
  value is that its bytes are visible.

  Main statement `json_type_by_essence`: the check says yes exactly for these
  values, so that parameters, capitals, margins and further headers make no
  difference (`Variant`).
-/
import Mathlib.Data.List.Forall2
import Mathlib.Data.List.TakeWhile
import Mathlib.Logic.Relation
import ErrorContract.Http.Extract

namespace ErrorContract.Http

open ErrorContract

/-! ## §1. The first content type. -/

/-- Is a header a content type? Capitals in its name make no difference. -/
def Header.IsType (h : Header) : Prop := h.name.toLower = "content-type"

/-- **The value of the first content type** among headers. -/
inductive FirstType : List Header → List UInt8 → Prop where
  | here {h : Header} {rest : List Header} (hname : h.IsType) : FirstType (h :: rest) h.value
  | later {h : Header} {rest : List Header} {value : List UInt8} (hname : ¬ h.IsType)
      (hrest : FirstType rest value) : FirstType (h :: rest) value

theorem header?_cons_of_isType {h : Header} (hname : h.IsType) (rest : List Header) :
    header? (h :: rest) "content-type" = some h.value := by
  have hsame : (h.name.toLower == "content-type") = true := beq_iff_eq.mpr hname
  simp only [header?, List.find?_cons, hsame, Option.map_some]

theorem header?_cons_of_not_isType {h : Header} (hname : ¬ h.IsType) (rest : List Header) :
    header? (h :: rest) "content-type" = header? rest "content-type" := by
  have hother : (h.name.toLower == "content-type") = false := beq_eq_false_iff_ne.mpr hname
  simp only [header?, List.find?_cons, hother]

theorem header?_eq_some_iff {headers : List Header} {value : List UInt8} :
    header? headers "content-type" = some value ↔ FirstType headers value := by
  constructor
  · intro h
    induction headers with
    | nil => cases h
    | cons first rest ih =>
        by_cases hname : first.IsType
        · rw [header?_cons_of_isType hname] at h
          cases h
          exact .here hname
        · rw [header?_cons_of_not_isType hname] at h
          exact .later hname (ih h)
  · intro h
    induction h with
    | here hname => exact header?_cons_of_isType hname _
    | later hname _ ih => rw [header?_cons_of_not_isType hname, ih]

/-- Headers of which one is a content type have the same first one, whatever follows them. -/
theorem header?_append_of_isType {front : List Header} (h : ∃ f ∈ front, f.IsType)
    (back : List Header) :
    header? (front ++ back) "content-type" = header? front "content-type" := by
  induction front with
  | nil =>
      obtain ⟨f, hmem, -⟩ := h
      cases hmem
  | cons first rest ih =>
      rw [List.cons_append]
      by_cases hname : first.IsType
      · rw [header?_cons_of_isType hname, header?_cons_of_isType hname]
      · obtain ⟨f, hmem, hf⟩ := h
        rcases List.mem_cons.mp hmem with rfl | hmem
        · exact absurd hf hname
        · rw [header?_cons_of_not_isType hname, header?_cons_of_not_isType hname,
            ih ⟨f, hmem, hf⟩]

/-- Headers of which none is a content type are passed over. -/
theorem header?_append_of_not_isType {front : List Header} (h : ∀ f ∈ front, ¬ f.IsType)
    (back : List Header) :
    header? (front ++ back) "content-type" = header? back "content-type" := by
  induction front with
  | nil => rfl
  | cons first rest ih =>
      obtain ⟨hfirst, hrest⟩ := List.forall_mem_cons.mp h
      rw [List.cons_append, header?_cons_of_not_isType hfirst, ih hrest]

/-! ## §2. Bytes. -/

/-- Visible ASCII, a space or a tab. -/
def IsVisible (b : UInt8) : Prop := b = 0x09 ∨ 0x20 ≤ b ∧ b ≤ 0x7e

/-- A space or a tab. -/
def IsMarginal (b : UInt8) : Prop := b = 0x20 ∨ b = 0x09

/-- **Two bytes that differ in nothing but being a capital.** -/
inductive SameLetter : UInt8 → UInt8 → Prop where
  | same (b : UInt8) : SameLetter b b
  | capital {b : UInt8} (h : 0x41 ≤ b ∧ b ≤ 0x5a) : SameLetter b (b + 0x20)
  | small {b : UInt8} (h : 0x41 ≤ b ∧ b ≤ 0x5a) : SameLetter (b + 0x20) b

/-- Two texts that differ in nothing but their capitals. -/
abbrev SameLetters : List UInt8 → List UInt8 → Prop := List.Forall₂ SameLetter

theorem isPrintable_iff (b : UInt8) : isPrintable b = true ↔ IsVisible b := by
  simp only [isPrintable, IsVisible, Bool.or_eq_true, Bool.and_eq_true, decide_eq_true_eq,
    beq_iff_eq, UInt8.le_iff_toNat_le, UInt8.lt_iff_toNat_lt, ← UInt8.toNat_inj]
  simp
  omega

theorem isMargin_iff (b : UInt8) : isMargin b = true ↔ IsMarginal b := by
  simp [isMargin, IsMarginal]

theorem IsMarginal.visible {b : UInt8} (h : IsMarginal b) : IsVisible b := by
  rcases h with rfl | rfl
  · exact .inr (by decide)
  · exact .inl rfl

theorem IsMarginal.ne_semicolon {b : UInt8} (h : IsMarginal b) : b ≠ 0x3b := by
  rcases h with rfl | rfl <;> decide

theorem lowerByte_of_capital {b : UInt8} (h : 0x41 ≤ b ∧ b ≤ 0x5a) : lowerByte b = b + 0x20 := by
  rw [lowerByte, if_pos (by simpa using h)]

theorem lowerByte_of_not_capital {b : UInt8} (h : ¬ (0x41 ≤ b ∧ b ≤ 0x5a)) : lowerByte b = b := by
  rw [lowerByte, if_neg (by simpa using h)]

/-- What has been made small is no capital. -/
theorem lowerByte_add {b : UInt8} (h : 0x41 ≤ b ∧ b ≤ 0x5a) : lowerByte (b + 0x20) = b + 0x20 := by
  refine lowerByte_of_not_capital fun hsmall => ?_
  simp only [UInt8.le_iff_toNat_le, UInt8.toNat_add] at h hsmall
  simp at h hsmall
  omega

theorem lowerByte_lowerByte (b : UInt8) : lowerByte (lowerByte b) = lowerByte b := by
  by_cases h : 0x41 ≤ b ∧ b ≤ 0x5a
  · rw [lowerByte_of_capital h, lowerByte_add h]
  · rw [lowerByte_of_not_capital h, lowerByte_of_not_capital h]

/-- **Letters are the same if they are when made small.** -/
theorem lowerByte_eq_iff (a b : UInt8) : lowerByte a = lowerByte b ↔ SameLetter a b := by
  constructor
  · intro h
    by_cases ha : 0x41 ≤ a ∧ a ≤ 0x5a <;> by_cases hb : 0x41 ≤ b ∧ b ≤ 0x5a
    · rw [lowerByte_of_capital ha, lowerByte_of_capital hb, UInt8.add_left_inj] at h
      exact h ▸ .same a
    · rw [lowerByte_of_capital ha, lowerByte_of_not_capital hb] at h
      exact h ▸ .capital ha
    · rw [lowerByte_of_not_capital ha, lowerByte_of_capital hb] at h
      exact h ▸ .small hb
    · rw [lowerByte_of_not_capital ha, lowerByte_of_not_capital hb] at h
      exact h ▸ .same a
  · intro h
    cases h with
    | same => rfl
    | capital h => rw [lowerByte_of_capital h, lowerByte_add h]
    | small h => rw [lowerByte_of_capital h, lowerByte_add h]

theorem map_lowerByte_eq_iff {a b : List UInt8} :
    a.map lowerByte = b.map lowerByte ↔ SameLetters a b := by
  rw [← List.forall₂_eq_eq_eq, List.forall₂_map_left_iff, List.forall₂_map_right_iff]
  simp only [lowerByte_eq_iff]

/-- Capitals are told from no byte that is looked for. -/
theorem isPrintable_lowerByte (b : UInt8) : isPrintable (lowerByte b) = isPrintable b := by
  simp only [isPrintable, lowerByte]
  grind

theorem isMargin_lowerByte (b : UInt8) : isMargin (lowerByte b) = isMargin b := by
  simp only [isMargin, lowerByte]
  grind

theorem lowerByte_bne_semicolon (b : UInt8) : (lowerByte b != 0x3b) = (b != 0x3b) := by
  simp only [lowerByte]
  grind

/-! ## §3. The essence. -/

/-- **The essence of a value**: what stands in front of the first semicolon, without margins. -/
inductive HasEssence (value e : List UInt8) : Prop where
  | intro {left right tail : List UInt8} (hvalue : value = left ++ e ++ right ++ tail)
      (hleft : ∀ b ∈ left, IsMarginal b) (hright : ∀ b ∈ right, IsMarginal b)
      (hsemicolon : 0x3b ∉ e) (hfirst : ∀ b ∈ e.head?, ¬ IsMarginal b)
      (hlast : ∀ b ∈ e.getLast?, ¬ IsMarginal b) (htail : ∀ b ∈ tail.head?, b = 0x3b)

/-- What is dropped in front of a text that does not begin with it. -/
theorem dropWhile_append_of_head? {p : UInt8 → Bool} {front back : List UInt8}
    (hfront : ∀ b ∈ front, p b = true) (hback : ∀ b ∈ back.head?, p b = false) :
    (front ++ back).dropWhile p = back := by
  rw [List.dropWhile_append_of_pos hfront]
  cases back with
  | nil => rfl
  | cons b back => rw [List.dropWhile_cons_of_neg (by simp [hback b rfl])]

theorem takeWhile_append_of_head? {p : UInt8 → Bool} {front back : List UInt8}
    (hfront : ∀ b ∈ front, p b = true) (hback : ∀ b ∈ back.head?, p b = false) :
    (front ++ back).takeWhile p = front := by
  rw [List.takeWhile_append_of_pos hfront]
  cases back with
  | nil => simp
  | cons b back => rw [List.takeWhile_cons_of_neg (by simp [hback b rfl]), List.append_nil]

theorem trimMargins_append {left e right : List UInt8} (hleft : ∀ b ∈ left, IsMarginal b)
    (hright : ∀ b ∈ right, IsMarginal b) (hfirst : ∀ b ∈ e.head?, ¬ IsMarginal b)
    (hlast : ∀ b ∈ e.getLast?, ¬ IsMarginal b) : trimMargins (left ++ e ++ right) = e := by
  simp only [← isMargin_iff, Bool.not_eq_true] at hleft hright hfirst hlast
  unfold trimMargins
  cases e with
  | nil =>
      -- nothing but margins, all of which are dropped from the left
      have hall : (left ++ [] ++ right).dropWhile isMargin = [] := by
        rw [List.append_nil, List.dropWhile_append_of_pos hleft,
          List.dropWhile_eq_nil_iff.mpr hright]
      rw [hall]
      rfl
  | cons b e =>
      have hdropped : (left ++ (b :: e) ++ right).dropWhile isMargin = (b :: e) ++ right := by
        rw [List.append_assoc]
        exact dropWhile_append_of_head? hleft hfirst
      have hreversed : ∀ c ∈ (b :: e).reverse.head?, isMargin c = false := by
        rwa [List.head?_reverse]
      rw [hdropped, List.reverse_append,
        dropWhile_append_of_head? (by simpa using hright) hreversed, List.reverse_reverse]

/-- Whatever is dropped from the front, what is left does not begin with it. -/
theorem head?_dropWhile {p : UInt8 → Bool} {bytes : List UInt8} :
    ∀ b ∈ (bytes.dropWhile p).head?, p b = false := by
  intro b hb
  have hnot := List.head?_dropWhile_not p bytes
  rwa [hb] at hnot

/-- A text is what is left of it without margins, and margins. -/
theorem exists_margins (bytes : List UInt8) :
    ∃ left right, bytes = left ++ trimMargins bytes ++ right
      ∧ (∀ b ∈ left, IsMarginal b) ∧ (∀ b ∈ right, IsMarginal b)
      ∧ (∀ b ∈ (trimMargins bytes).head?, ¬ IsMarginal b)
      ∧ ∀ b ∈ (trimMargins bytes).getLast?, ¬ IsMarginal b := by
  obtain ⟨right, hright, hkept⟩ : ∃ right, (∀ b ∈ right, IsMarginal b)
      ∧ bytes.dropWhile isMargin = trimMargins bytes ++ right := by
    refine ⟨((bytes.dropWhile isMargin).reverse.takeWhile isMargin).reverse, fun b hb => ?_, ?_⟩
    · exact (isMargin_iff b).mp (List.mem_takeWhile_imp (List.mem_reverse.mp hb))
    · rw [trimMargins, ← List.reverse_append, List.takeWhile_append_dropWhile, List.reverse_reverse]
  refine ⟨bytes.takeWhile isMargin, right, ?_, fun b hb => ?_, hright, fun b hb => ?_,
    fun b hb => ?_⟩
  · rw [List.append_assoc, ← hkept, List.takeWhile_append_dropWhile]
  · exact (isMargin_iff b).mp (List.mem_takeWhile_imp hb)
  · -- what is left begins as it did when only the left was trimmed
    have hb : b ∈ (bytes.dropWhile isMargin).head? := by
      rw [hkept, List.head?_append, Option.mem_def.mp hb]
      rfl
    rw [← isMargin_iff, head?_dropWhile b hb]
    decide
  · have hb : b ∈ ((bytes.dropWhile isMargin).reverse.dropWhile isMargin).head? := by
      rwa [trimMargins, List.getLast?_reverse] at hb
    rw [← isMargin_iff, head?_dropWhile b hb]
    decide

/-- **A value has one essence**, the one that is looked at. -/
theorem hasEssence_iff {value e : List UInt8} :
    HasEssence value e ↔ trimMargins (value.takeWhile (· != 0x3b)) = e := by
  constructor
  · rintro ⟨rfl, hleft, hright, hsemicolon, hfirst, hlast, htail⟩
    rw [takeWhile_append_of_head?, trimMargins_append hleft hright hfirst hlast]
    · simp only [List.mem_append, bne_iff_ne]
      rintro b ((hb | hb) | hb)
      · exact (hleft b hb).ne_semicolon
      · exact ne_of_mem_of_not_mem hb hsemicolon
      · exact (hright b hb).ne_semicolon
    · simpa using htail
  · rintro rfl
    obtain ⟨left, right, hnamed, hleft, hright, hfirst, hlast⟩ :=
      exists_margins (value.takeWhile (· != 0x3b))
    have hvalue : value = left ++ trimMargins (value.takeWhile (· != 0x3b)) ++ right
        ++ value.dropWhile (· != 0x3b) := by
      rw [← hnamed, List.takeWhile_append_dropWhile]
    refine .intro hvalue hleft hright (fun hmem => ?_) hfirst hlast fun b hb => ?_
    · have hmem : (0x3b : UInt8) ∈ value.takeWhile (· != 0x3b) := by
        rw [hnamed]
        simp [hmem]
      exact absurd (List.mem_takeWhile_imp hmem) (by decide)
    · simpa using head?_dropWhile b hb

/-! ## §4. Names of JSON. -/

/-- **The names of JSON**, capitals or not: the type itself, and the types of applications that say
at their end that they are written as JSON. -/
inductive NamesJson : List UInt8 → Prop where
  | itself {e : List UInt8} (h : SameLetters e (Utf8.encode "application/json")) : NamesJson e
  | suffixed {start middle ending : List UInt8}
      (hstart : SameLetters start (Utf8.encode "application/"))
      (hend : SameLetters ending (Utf8.encode "+json")) : NamesJson (start ++ middle ++ ending)

/-- **The start and the end of a name do not overlap**: no plus sign stands in the start. -/
theorem exists_middle {e : List UInt8} (hstart : applicationStart <+: e) (hend : jsonEnd <:+ e) :
    ∃ middle, e = applicationStart ++ middle ++ jsonEnd := by
  obtain ⟨behind, hbehind⟩ := hstart
  obtain ⟨front, hfront⟩ := hend
  rcases List.append_eq_append_iff.mp (hbehind.trans hfront.symm) with
    ⟨middle, -, hmiddle⟩ | ⟨shared, hshared, hplus⟩
  · exact ⟨middle, by rw [← hbehind, hmiddle, List.append_assoc]⟩
  · cases shared with
    | nil => exact ⟨[], by rw [← hbehind, List.append_nil, hplus, List.nil_append]⟩
    | cons b shared =>
        have hb : jsonEnd.head? = some b := by rw [hplus]; rfl
        have hmem : b ∈ applicationStart := by rw [hshared]; simp
        rw [show jsonEnd.head? = some 0x2b from by decide] at hb
        cases hb
        exact absurd hmem (by decide)

/-- The small letters of a text that is the same as a small one. -/
theorem sameLetters_iff {a small : List UInt8} (hsmall : small.map lowerByte = small) :
    SameLetters a small ↔ a.map lowerByte = small := by
  rw [← map_lowerByte_eq_iff, hsmall]

theorem namesJson_essence_iff {e : List UInt8} :
    (e.map lowerByte == jsonType
      || (applicationStart.isPrefixOf (e.map lowerByte) && jsonEnd.isSuffixOf (e.map lowerByte)))
      = true ↔ NamesJson e := by
  have hitself : jsonType.map lowerByte = jsonType := by decide
  have hstart : applicationStart.map lowerByte = applicationStart := by decide
  have hend : jsonEnd.map lowerByte = jsonEnd := by decide
  rw [Bool.or_eq_true, Bool.and_eq_true, beq_iff_eq, List.isPrefixOf_iff_prefix,
    List.isSuffixOf_iff_suffix]
  constructor
  · rintro (h | ⟨hbegins, hends⟩)
    · exact .itself ((sameLetters_iff hitself).mpr h)
    · obtain ⟨middle, hmiddle⟩ := exists_middle hbegins hends
      obtain ⟨front, ending, rfl, hfront, hending⟩ := List.map_eq_append_iff.mp hmiddle
      obtain ⟨start, middle, rfl, hstarts, -⟩ := List.map_eq_append_iff.mp hfront
      exact .suffixed ((sameLetters_iff hstart).mpr hstarts) ((sameLetters_iff hend).mpr hending)
  · rintro (h | ⟨hstarts, hending⟩)
    · exact .inl ((sameLetters_iff hitself).mp h)
    · rw [List.map_append, List.map_append, (sameLetters_iff hstart).mp hstarts,
        (sameLetters_iff hend).mp hending]
      exact .inr ⟨⟨_, (List.append_assoc ..).symm⟩, ⟨_, rfl⟩⟩

/-- **The values that name JSON.** -/
theorem namesJson_iff {value : List UInt8} :
    namesJson value = true
      ↔ (∀ b ∈ value, IsVisible b) ∧ ∃ e, HasEssence value e ∧ NamesJson e := by
  simp only [namesJson, Bool.and_eq_true, List.all_eq_true, isPrintable_iff, essence,
    namesJson_essence_iff, hasEssence_iff, exists_eq_left']

/-! ## §5. What makes no difference. -/

/-- Values with the same essence and nothing to be refused beside it are the same. -/
theorem namesJson_congr {value value' : List UInt8}
    (hessence : ∀ e, HasEssence value e → HasEssence value' e)
    (hvisible : (∀ b ∈ value, IsVisible b) ↔ ∀ b ∈ value', IsVisible b) :
    namesJson value = namesJson value' := by
  have hsame : trimMargins (value.takeWhile (· != 0x3b))
      = trimMargins (value'.takeWhile (· != 0x3b)) :=
    (hasEssence_iff.mp (hessence _ (hasEssence_iff.mpr rfl))).symm
  rw [Bool.eq_iff_iff, namesJson_iff, namesJson_iff, hvisible]
  simp only [hasEssence_iff, hsame]

/-- **Parameters make no difference**, if their bytes are visible. -/
theorem namesJson_parameters (value : List UInt8) {parameters : List UInt8}
    (hparameters : ∀ b ∈ parameters, IsVisible b) :
    namesJson (value ++ 0x3b :: parameters) = namesJson value := by
  refine (namesJson_congr (fun e h => ?_) ?_).symm
  · obtain ⟨rfl, hleft, hright, hsemicolon, hfirst, hlast, htail⟩ := h
    refine .intro (List.append_assoc ..) hleft hright hsemicolon hfirst hlast fun b hb => ?_
    -- the tail begins with a semicolon, or with the one that is added
    rw [List.head?_append] at hb
    rcases Option.or_eq_some_iff.mp hb with hb | ⟨-, hb⟩
    · exact htail b hb
    · exact (Option.some.inj hb).symm
  · have hsemicolon : IsVisible 0x3b := .inr (by decide)
    simp only [List.forall_mem_append, List.forall_mem_cons]
    exact ⟨fun h => ⟨h, hsemicolon, hparameters⟩, And.left⟩

/-- **Margins make no difference.** -/
theorem namesJson_margins (value : List UInt8) {left right : List UInt8}
    (hleft : ∀ b ∈ left, IsMarginal b) (hright : ∀ b ∈ right, IsMarginal b) :
    namesJson (left ++ value ++ right) = namesJson value := by
  refine (namesJson_congr (fun e h => ?_) ?_).symm
  · obtain @⟨left', right', tail, rfl, hinner, houter, hsemicolon, hfirst, hlast, htail⟩ := h
    have hleft' : ∀ b ∈ left ++ left', IsMarginal b := List.forall_mem_append.mpr ⟨hleft, hinner⟩
    cases tail with
    | nil =>
        have hvalue : left ++ (left' ++ e ++ right' ++ []) ++ right
            = (left ++ left') ++ e ++ (right' ++ right) ++ [] := by simp
        exact .intro hvalue hleft' (List.forall_mem_append.mpr ⟨houter, hright⟩) hsemicolon hfirst
          hlast nofun
    | cons b tail =>
        -- what is added on the right belongs to the parameters
        have hvalue : left ++ (left' ++ e ++ right' ++ b :: tail) ++ right
            = (left ++ left') ++ e ++ right' ++ (b :: tail ++ right) := by simp
        exact .intro hvalue hleft' houter hsemicolon hfirst hlast htail
  · simp only [List.forall_mem_append]
    exact ⟨fun h => ⟨⟨fun b hb => (hleft b hb).visible, h⟩, fun b hb => (hright b hb).visible⟩,
      fun h => h.1.2⟩

/-- **Capitals make no difference.** -/
theorem namesJson_letters {value value' : List UInt8} (h : SameLetters value value') :
    namesJson value = namesJson value' := by
  have hmap : ∀ value, namesJson (value.map lowerByte) = namesJson value := by
    intro value
    have hprintable : isPrintable ∘ lowerByte = isPrintable := funext isPrintable_lowerByte
    have hmargin : isMargin ∘ lowerByte = isMargin := funext isMargin_lowerByte
    have hsemicolon : (fun b : UInt8 => b != 0x3b) ∘ lowerByte = fun b => b != 0x3b :=
      funext lowerByte_bne_semicolon
    have hlower : lowerByte ∘ lowerByte = lowerByte := funext lowerByte_lowerByte
    simp only [namesJson, essence, trimMargins, List.all_map, List.takeWhile_map,
      List.dropWhile_map, ← List.map_reverse, List.map_map, hprintable, hmargin, hsemicolon, hlower]
  rw [← hmap value, map_lowerByte_eq_iff.mpr h, hmap]

/-- **A change that makes no difference** to whether a request is one of JSON. -/
inductive Variant : List Header → List Header → Prop where
  /-- Visible parameters are appended to a value. -/
  | parameters {front back : List Header} {name : String} {value parameters : List UInt8}
      (h : ∀ b ∈ parameters, IsVisible b) :
      Variant (front ++ ⟨name, value⟩ :: back)
        (front ++ ⟨name, value ++ 0x3b :: parameters⟩ :: back)
  /-- Capitals are changed, in a name or in a value. -/
  | letters {front back : List Header} {name name' : String} {value value' : List UInt8}
      (hname : name.toLower = name'.toLower) (hvalue : SameLetters value value') :
      Variant (front ++ ⟨name, value⟩ :: back) (front ++ ⟨name', value'⟩ :: back)
  /-- Spaces and tabs are set around a value. -/
  | margins {front back : List Header} {name : String} {value left right : List UInt8}
      (hleft : ∀ b ∈ left, IsMarginal b) (hright : ∀ b ∈ right, IsMarginal b) :
      Variant (front ++ ⟨name, value⟩ :: back) (front ++ ⟨name, left ++ value ++ right⟩ :: back)
  /-- Headers are added, of which none comes to be the first content type. -/
  | further {front added back : List Header}
      (h : ∀ a ∈ added, a.IsType → ∃ f ∈ front, f.IsType) :
      Variant (front ++ back) (front ++ added ++ back)

theorem hasJsonType_eq (headers : List Header) :
    hasJsonType headers = (header? headers "content-type").any namesJson := by
  unfold hasJsonType
  cases header? headers "content-type" <;> rfl

/-- A header may be changed, if its name stays the same and its value names JSON or not as before.
-/
theorem hasJsonType_exchange (front back : List Header) {h h' : Header}
    (hname : h.name.toLower = h'.name.toLower) (hvalue : namesJson h.value = namesJson h'.value) :
    hasJsonType (front ++ h :: back) = hasJsonType (front ++ h' :: back) := by
  rw [hasJsonType_eq, hasJsonType_eq]
  by_cases hfront : ∃ f ∈ front, f.IsType
  · rw [header?_append_of_isType hfront, header?_append_of_isType hfront]
  · have hnone : ∀ f ∈ front, ¬ f.IsType := fun f hf hf' => hfront ⟨f, hf, hf'⟩
    rw [header?_append_of_not_isType hnone, header?_append_of_not_isType hnone]
    by_cases htype : h.IsType
    · have htype' : h'.IsType := hname.symm.trans htype
      rw [header?_cons_of_isType htype, header?_cons_of_isType htype', Option.any_some,
        Option.any_some, hvalue]
    · have htype' : ¬ h'.IsType := fun h' => htype (hname.trans h')
      rw [header?_cons_of_not_isType htype, header?_cons_of_not_isType htype']

theorem hasJsonType_further (front back : List Header) {added : List Header}
    (h : ∀ a ∈ added, a.IsType → ∃ f ∈ front, f.IsType) :
    hasJsonType (front ++ back) = hasJsonType (front ++ added ++ back) := by
  rw [hasJsonType_eq, hasJsonType_eq, List.append_assoc]
  by_cases hfront : ∃ f ∈ front, f.IsType
  · rw [header?_append_of_isType hfront, header?_append_of_isType hfront]
  · have hnone : ∀ f ∈ front, ¬ f.IsType := fun f hf hf' => hfront ⟨f, hf, hf'⟩
    have hadded : ∀ a ∈ added, ¬ a.IsType := fun a ha ha' => hfront (h a ha ha')
    rw [header?_append_of_not_isType hnone, header?_append_of_not_isType hnone,
      header?_append_of_not_isType hadded]

theorem Variant.hasJsonType_eq {headers headers' : List Header} (h : Variant headers headers') :
    hasJsonType headers = hasJsonType headers' := by
  cases h with
  | parameters h => exact hasJsonType_exchange _ _ rfl (namesJson_parameters _ h).symm
  | letters hname hvalue => exact hasJsonType_exchange _ _ hname (namesJson_letters hvalue)
  | margins hleft hright =>
      exact hasJsonType_exchange _ _ rfl (namesJson_margins _ hleft hright).symm
  | further h => exact hasJsonType_further _ _ h

/-! ## §6. The check. -/

/-- **A request is one of JSON by the essence of its first content type alone.**  There must be a
content type, the bytes of the first must be visible to the last of its parameters, and its
essence must be a name of JSON.  So the answer is the same for headers with the same first content
type, and after any number of changes that make no difference. -/
theorem json_type_by_essence (headers : List Header) :
    (hasJsonType headers = true
      ↔ ∃ value e, FirstType headers value ∧ (∀ b ∈ value, IsVisible b) ∧ HasEssence value e
        ∧ NamesJson e)
    ∧ (∀ headers', (∀ value, FirstType headers value ↔ FirstType headers' value) →
      hasJsonType headers = hasJsonType headers')
    ∧ ∀ headers', Relation.ReflTransGen Variant headers headers' →
      hasJsonType headers = hasJsonType headers' := by
  refine ⟨?_, fun headers' h => ?_, fun headers' h => ?_⟩
  · rw [hasJsonType_eq, Option.any_eq_true]
    simp only [header?_eq_some_iff, namesJson_iff]
    constructor
    · rintro ⟨value, hfirst, hvisible, e, hessence, hnames⟩
      exact ⟨value, e, hfirst, hvisible, hessence, hnames⟩
    · rintro ⟨value, e, hfirst, hvisible, hessence, hnames⟩
      exact ⟨value, hfirst, hvisible, e, hessence, hnames⟩
  · have hsame : header? headers "content-type" = header? headers' "content-type" :=
      Option.ext fun value => by simp only [header?_eq_some_iff, h]
    rw [hasJsonType_eq, hasJsonType_eq, hsame]
  · induction h with
    | refl => rfl
    | tail _ hlast ih => rw [ih, hlast.hasJsonType_eq]

/-- A byte that is not visible makes no JSON of a type, also among its parameters. -/
example : hasJsonType [⟨"Content-Type", Utf8.encode "\tApplication/vnd.api+JSON ; q=\"x\""⟩] = true
    ∧ hasJsonType [⟨"content-type", Utf8.encode "application/json; q=\"é\""⟩] = false := by
  decide +kernel

end ErrorContract.Http
