/-
  ErrorContract.Proofs.Matching
  ─────────────────────────────
  **WHICH PATTERN A PATH IS MEANT FOR.**

  `Pattern.Fits p path κ` says that a pattern fits a path as a whole and what
  it captures of it.  More than one pattern may fit; one precedes another if
  it has a character where the other captures, or captures a segment where
  the other captures all that is left, and they are the same up to there.

  The search reads the path once from left to right, with all patterns that
  may still fit, and comes back when what looked better leads nowhere.  Main
  statement `finds_findMatch`: it finds nothing only if no pattern fits, and
  otherwise one that fits and that no other one that fits precedes.  Where
  no two patterns conflict there is only one such (`findRoute_eq_some_iff`).
-/
import Mathlib.Data.List.Pairwise
import ErrorContract.Http.Router

namespace ErrorContract.Http

/-! ## §1. Patterns that fit. -/

/-- **A pattern fits a path**, and captures parts of it.  A capture holds no slash, and at the end
of the path it is not empty. -/
inductive Pattern.Fits : Pattern → List Char → Captures → Prop where
  | nil : Fits [] [] []
  | char {c : Char} {p : Pattern} {path : List Char} {κ : Captures} (h : Fits p path κ) :
      Fits (.char c :: p) (c :: path) κ
  | last {name : String} {text : List Char} (hne : text ≠ []) (hslash : '/' ∉ text) :
      Fits [.capture name] text [(name, text)]
  | capture {name : String} {text path : List Char} {p : Pattern} {κ : Captures}
      (hslash : '/' ∉ text) (h : Fits p path κ) :
      Fits (.capture name :: .char '/' :: p) (text ++ '/' :: path) ((name, text) :: κ)
  | rest {name : String} {p : Pattern} {text : List Char} (hne : text ≠ []) :
      Fits (.rest name :: p) text [(name, text)]

theorem splitSegment_of_not_mem {text : List Char} (h : '/' ∉ text) :
    splitSegment text = (text, none) := by
  induction text with
  | nil => rfl
  | cons c text ih =>
      obtain ⟨hc, htext⟩ := not_or.mp (mt List.mem_cons.mpr h)
      rw [splitSegment, if_neg (Ne.symm hc), ih htext]

theorem splitSegment_append {text : List Char} (h : '/' ∉ text) (path : List Char) :
    splitSegment (text ++ '/' :: path) = (text, some path) := by
  induction text with
  | nil => rfl
  | cons c text ih =>
      obtain ⟨hc, htext⟩ := not_or.mp (mt List.mem_cons.mpr h)
      rw [List.cons_append, splitSegment, if_neg (Ne.symm hc), ih htext]

/-- **A path is its first segment, or that and what follows a slash.** -/
theorem splitSegment_spec (path : List Char) :
    '/' ∉ (splitSegment path).1
      ∧ path = match (splitSegment path).2 with
        | none => (splitSegment path).1
        | some after => (splitSegment path).1 ++ '/' :: after := by
  induction path with
  | nil => simp [splitSegment]
  | cons c path ih =>
      by_cases hc : c = '/'
      · simp [splitSegment, hc]
      · obtain ⟨hslash, hpath⟩ := ih
        rw [splitSegment, if_neg hc]
        dsimp only
        refine ⟨by simp [hslash, Ne.symm hc], ?_⟩
        cases hafter : (splitSegment path).2 with
        | none =>
            rw [hafter] at hpath
            exact congrArg (c :: ·) hpath
        | some after =>
            rw [hafter] at hpath
            exact congrArg (c :: ·) hpath

theorem Pattern.fits_nil_iff {p : Pattern} {κ : Captures} : p.Fits [] κ ↔ p = [] ∧ κ = [] := by
  constructor
  · intro h
    generalize hpath : ([] : List Char) = path at h
    cases h with
    | nil => exact ⟨rfl, rfl⟩
    | char => cases hpath
    | last hne => exact absurd hpath.symm hne
    | capture => simp at hpath
    | rest hne => exact absurd hpath.symm hne
  · rintro ⟨rfl, rfl⟩
    exact .nil

theorem Pattern.eq_nil_of_fits {path : List Char} {κ : Captures} (h : Fits [] path κ) :
    path = [] := by
  cases h
  rfl

/-- **What a capture takes is the first segment**, and what is behind it must fit the rest. -/
inductive CaptureFits (name : String) (p : Pattern) (κ : Captures) :
    List Char × Option (List Char) → Prop where
  | last {text : List Char} (hp : p = []) (hne : text ≠ []) (hκ : κ = [(name, text)]) :
      CaptureFits name p κ (text, none)
  | more {text after : List Char} {q : Pattern} {κ' : Captures} (hp : p = .char '/' :: q)
      (hfits : q.Fits after κ') (hκ : κ = (name, text) :: κ') :
      CaptureFits name p κ (text, some after)

theorem Pattern.fits_capture_iff {name : String} {p : Pattern} {path : List Char} {κ : Captures} :
    Fits (.capture name :: p) path κ ↔ CaptureFits name p κ (splitSegment path) := by
  constructor
  · intro h
    cases h with
    | last hne hslash =>
        rw [splitSegment_of_not_mem hslash]
        exact .last rfl hne rfl
    | capture hslash h =>
        rw [splitSegment_append hslash]
        exact .more rfl h rfl
  · intro h
    obtain ⟨hslash, hpath⟩ := splitSegment_spec path
    generalize splitSegment path = split at h hslash hpath
    cases h with
    | last hp hne hκ =>
        subst hp hκ hpath
        exact .last hne hslash
    | more hp hfits hκ =>
        subst hp hκ hpath
        exact .capture hslash hfits

/-- **A pattern captures in one way only.** -/
theorem Pattern.Fits.unique {p : Pattern} {path : List Char} {κ κ' : Captures}
    (h : p.Fits path κ) (h' : p.Fits path κ') : κ = κ' := by
  induction h generalizing κ' with
  | nil =>
      cases h'
      rfl
  | char h ih =>
      cases h' with
      | char h' => exact ih h'
  | last hne hslash =>
      rw [fits_capture_iff, splitSegment_of_not_mem hslash] at h'
      cases h' with
      | last _ _ hκ => exact hκ.symm
  | capture hslash h ih =>
      rw [fits_capture_iff, splitSegment_append hslash] at h'
      cases h' with
      | more hp hfits hκ =>
          cases hp
          rw [hκ, ih hfits]
  | rest =>
      cases h'
      rfl

/-! ## §2. Patterns that go before others. -/

/-- **One pattern precedes another**: where they part it is the more special of the two. -/
inductive Pattern.Precedes : Pattern → Pattern → Prop where
  | charCapture {c : Char} {name : String} {p q : Pattern} :
      Precedes (.char c :: p) (.capture name :: q)
  | charRest {c : Char} {name : String} {p q : Pattern} : Precedes (.char c :: p) (.rest name :: q)
  | captureRest {name name' : String} {p q : Pattern} :
      Precedes (.capture name :: p) (.rest name' :: q)
  | char {c : Char} {p q : Pattern} (h : Precedes p q) : Precedes (.char c :: p) (.char c :: q)
  | capture {name name' : String} {p q : Pattern} (h : Precedes p q) :
      Precedes (.capture name :: p) (.capture name' :: q)

/-- **Of two patterns that fit one path, one precedes the other or they conflict.** -/
theorem Pattern.Fits.precedes_or_conflict {p q : Pattern} {path : List Char} {κ κ' : Captures}
    (hp : p.Fits path κ) (hq : q.Fits path κ') :
    p.Precedes q ∨ q.Precedes p ∨ p.conflict q = true := by
  induction hp generalizing q κ' with
  | nil =>
      obtain ⟨rfl, -⟩ := fits_nil_iff.mp hq
      exact .inr (.inr rfl)
  | @char c p path κ hp ih =>
      cases q with
      | nil => exact absurd (eq_nil_of_fits hq) (by simp)
      | cons part q =>
          cases part with
          | char d =>
              cases hq with
              | char hq =>
                  rcases ih hq with h | h | h
                  · exact .inl (.char h)
                  · exact .inr (.inl (.char h))
                  · exact .inr (.inr (by simp [conflict, h]))
          | capture => exact .inl .charCapture
          | rest => exact .inl .charRest
  | @last name text hne hslash =>
      cases q with
      | nil => exact absurd (eq_nil_of_fits hq) hne
      | cons part q =>
          cases part with
          | char => exact .inr (.inl .charCapture)
          | capture =>
              rw [fits_capture_iff, splitSegment_of_not_mem hslash] at hq
              cases hq with
              | last hq =>
                  subst hq
                  exact .inr (.inr rfl)
          | rest => exact .inl .captureRest
  | @capture name text path p κ hslash hp ih =>
      cases q with
      | nil => exact absurd (eq_nil_of_fits hq) (by simp)
      | cons part q =>
          cases part with
          | char => exact .inr (.inl .charCapture)
          | capture =>
              rw [fits_capture_iff, splitSegment_append hslash] at hq
              cases hq with
              | more hq hfits =>
                  subst hq
                  rcases ih hfits with h | h | h
                  · exact .inl (.capture (.char h))
                  · exact .inr (.inl (.capture (.char h)))
                  · exact .inr (.inr (by simp [conflict, h]))
          | rest => exact .inl .captureRest
  | @rest name p text hne =>
      cases q with
      | nil => exact absurd (eq_nil_of_fits hq) hne
      | cons part q =>
          cases part with
          | char => exact .inr (.inl .charRest)
          | capture => exact .inr (.inl .captureRest)
          | rest => exact .inr (.inr rfl)

/-! ## §3. One step of the search. -/

section Search

variable {α : Type}

/-- **What is found for a path among the candidates with patterns of a kind**: nothing if none of
them fits, and otherwise one that fits and that none that fits precedes. -/
inductive Finds (Kind : Pattern → Prop) (ks : List (Candidate α)) (path : List Char) :
    Option (Candidate α) → Prop where
  | nothing (h : ∀ k ∈ ks, Kind k.pattern → ∀ κ, ¬ k.pattern.Fits path κ) : Finds Kind ks path none
  | best {k : Candidate α} {κ : Captures} (hk : k ∈ ks) (hkind : Kind k.pattern)
      (hfits : k.pattern.Fits path κ)
      (hbest : ∀ k' ∈ ks, Kind k'.pattern → ∀ κ', k'.pattern.Fits path κ' →
        ¬ k'.pattern.Precedes k.pattern) :
      Finds Kind ks path (some ⟨[], k.captures ++ κ, k.endpoint⟩)

/-- Patterns of a kind are looked for before those of another that never precede them. -/
theorem Finds.or {Kind Kind' : Pattern → Prop} {ks : List (Candidate α)} {path : List Char}
    {found found' : Option (Candidate α)} (h : Finds Kind ks path found)
    (h' : Finds Kind' ks path found')
    (hbefore : ∀ p q, Kind p → Kind' q → ¬ Pattern.Precedes q p) :
    Finds (fun p => Kind p ∨ Kind' p) ks path (found.or found') := by
  cases h with
  | best hk hkind hfits hbest =>
      refine .best hk (.inl hkind) hfits fun k' hk' hkind' κ' hfits' => ?_
      rcases hkind' with hkind' | hkind'
      · exact hbest k' hk' hkind' κ' hfits'
      · exact hbefore _ _ hkind hkind'
  | nothing hnone =>
      cases h' with
      | nothing hnone' =>
          refine .nothing fun k hk hkind κ => ?_
          rcases hkind with hkind | hkind
          · exact hnone k hk hkind κ
          · exact hnone' k hk hkind κ
      | best hk hkind hfits hbest =>
          refine .best hk (.inr hkind) hfits fun k' hk' hkind' κ' hfits' => ?_
          rcases hkind' with hkind' | hkind'
          · exact absurd hfits' (hnone k' hk' hkind' κ')
          · exact hbest k' hk' hkind' κ' hfits'

/-- What is found among patterns of which all that fit are of a kind is found among all. -/
theorem Finds.of_kind {Kind : Pattern → Prop} {ks : List (Candidate α)} {path : List Char}
    {found : Option (Candidate α)} (h : Finds Kind ks path found)
    (hkind : ∀ p κ, Pattern.Fits p path κ → Kind p) : Finds (fun _ => True) ks path found := by
  cases h with
  | nothing hnone =>
      exact .nothing fun k hk _ κ hfits => hnone k hk (hkind _ κ hfits) κ hfits
  | best hk _ hfits hbest =>
      exact .best hk trivial hfits fun k' hk' _ κ' hfits' =>
        hbest k' hk' (hkind _ κ' hfits') κ' hfits'

/-- A pattern that begins with given parts, but for the names of its captures. -/
def Pattern.Begins (front : String → Pattern) (p : Pattern) : Prop := ∃ name q, p = front name ++ q

/-- **What is found behind a part of the path is found**, among the patterns that begin with what
fits that part. -/
theorem finds_behind {path left : List Char} (front : String → Pattern)
    (caught : String → Captures) {take : Candidate α → Option (Candidate α)}
    (htake : ∀ k k', take k = some k' ↔ ∃ name p, k.pattern = front name ++ p
      ∧ k' = ⟨p, k.captures ++ caught name, k.endpoint⟩)
    (hfits : ∀ name p κ, Pattern.Fits (front name ++ p) path κ
      ↔ ∃ κ', Pattern.Fits p left κ' ∧ κ = caught name ++ κ')
    (hprecedes : ∀ name name' p q, Pattern.Precedes (front name ++ p) (front name' ++ q) →
      Pattern.Precedes p q)
    {ks : List (Candidate α)} {found : Option (Candidate α)}
    (h : Finds (fun _ => True) (ks.filterMap take) left found) :
    Finds (Pattern.Begins front) ks path found := by
  -- a candidate that begins so and fits the path is taken to one that fits what is left
  have htaken : ∀ k ∈ ks, ∀ name p κ, k.pattern = front name ++ p → k.pattern.Fits path κ →
      ∃ k' ∈ ks.filterMap take, k'.pattern = p ∧ ∃ κ', p.Fits left κ' := by
    intro k hk name p κ hp hk'
    rw [hp, hfits] at hk'
    obtain ⟨κ', hleft, -⟩ := hk'
    exact ⟨_, List.mem_filterMap.mpr ⟨k, hk, (htake k _).mpr ⟨name, p, hp, rfl⟩⟩, rfl, κ', hleft⟩
  cases h with
  | nothing hnone =>
      refine .nothing fun k hk hkind κ hfit => ?_
      obtain ⟨name, p, hp⟩ := hkind
      obtain ⟨k', hk', rfl, κ', hleft⟩ := htaken k hk name p κ hp hfit
      exact hnone k' hk' trivial κ' hleft
  | @best k' κ' hk' _ hleft hbest =>
      obtain ⟨k, hk, htook⟩ := List.mem_filterMap.mp hk'
      obtain ⟨name, p, hp, rfl⟩ := (htake k k').mp htook
      have hfit : k.pattern.Fits path (caught name ++ κ') := by
        rw [hp, hfits]
        exact ⟨κ', hleft, rfl⟩
      rw [List.append_assoc]
      refine .best hk ⟨name, p, hp⟩ hfit fun l hl hkind κ₁ hfit₁ hbefore => ?_
      obtain ⟨name', q, hq⟩ := hkind
      obtain ⟨l', hl', rfl, κ₂, hleft₂⟩ := htaken l hl name' q κ₁ hq hfit₁
      rw [hp, hq] at hbefore
      exact hbest l' hl' trivial κ₂ hleft₂ (hprecedes _ _ _ _ hbefore)

/-! ## §4. Characters, captures and the rest. -/

theorem Candidate.takeChar_eq_some_iff {c : Char} {k k' : Candidate α} :
    k.takeChar c = some k' ↔ ∃ p, k.pattern = .char c :: p
      ∧ k' = ⟨p, k.captures, k.endpoint⟩ := by
  unfold takeChar
  split
  · next d p hp =>
      by_cases hc : c = d
      · subst hc
        simp [hp, eq_comm]
      · simp [hp, hc, Ne.symm hc]
  · next hp =>
      refine ⟨nofun, ?_⟩
      rintro ⟨p, hchar, -⟩
      exact absurd hchar (hp c p)

theorem Candidate.takeCapture_eq_some_iff {text : List Char} {k k' : Candidate α} :
    k.takeCapture text = some k' ↔ ∃ name p, k.pattern = .capture name :: p
      ∧ k' = ⟨p, k.captures ++ [(name, text)], k.endpoint⟩ := by
  unfold takeCapture
  split
  · next name p hp =>
      constructor
      · rintro ⟨⟩
        exact ⟨name, p, hp, rfl⟩
      · rintro ⟨name', p', hp', rfl⟩
        cases hp.symm.trans hp'
        rfl
  · next hp =>
      refine ⟨nofun, ?_⟩
      rintro ⟨name, p, hcapture, -⟩
      exact absurd hcapture (hp name p)

theorem Candidate.takeRest_eq_some_iff {text : List Char} {k k' : Candidate α} :
    k.takeRest text = some k' ↔ ∃ name p, k.pattern = .rest name :: p
      ∧ k' = ⟨[], k.captures ++ [(name, text)], k.endpoint⟩ := by
  unfold takeRest
  split
  · next name p hp =>
      constructor
      · rintro ⟨⟩
        exact ⟨name, p, hp, rfl⟩
      · rintro ⟨name', p', hp', rfl⟩
        cases hp.symm.trans hp'
        rfl
  · next hp =>
      refine ⟨nofun, ?_⟩
      rintro ⟨name, p, hrest, -⟩
      exact absurd hrest (hp name p)

/-- **At the end of the path** the patterns fit of which nothing is left. -/
theorem finds_end (ks : List (Candidate α)) :
    Finds (fun _ => True) ks [] (ks.find? fun k => k.pattern.isEmpty) := by
  cases hfound : ks.find? fun k => k.pattern.isEmpty with
  | none =>
      refine .nothing fun k hk _ κ hfits => ?_
      obtain ⟨hp, -⟩ := Pattern.fits_nil_iff.mp hfits
      exact List.find?_eq_none.mp hfound k hk (by simp [hp])
  | some k =>
      have hp : k.pattern = [] := by simpa using List.find?_some hfound
      have hk : k = ⟨[], k.captures ++ [], k.endpoint⟩ := by
        rw [List.append_nil, ← hp]
      rw [hk]
      refine .best (List.mem_of_find?_eq_some hfound) trivial (hp ▸ .nil)
        fun k' _ _ κ' hfits hbefore => ?_
      rw [(Pattern.fits_nil_iff.mp hfits).1, hp] at hbefore
      cases hbefore

theorem finds_char {c : Char} {path : List Char} {ks : List (Candidate α)}
    {found : Option (Candidate α)}
    (h : Finds (fun _ => True) (ks.filterMap (·.takeChar c)) path found) :
    Finds (Pattern.Begins fun _ => [.char c]) ks (c :: path) found := by
  refine finds_behind _ (fun _ => []) (fun k k' => ?_) (fun _ p κ => ?_)
    (fun _ _ p q hbefore => ?_) h
  · rw [Candidate.takeChar_eq_some_iff]
    simp
  · constructor
    · rintro ⟨⟩
      next h => exact ⟨κ, h, rfl⟩
    · rintro ⟨κ', h, rfl⟩
      exact .char h
  · cases hbefore with
    | char hbefore => exact hbefore

/-- A capture that is the last segment. -/
theorem finds_last {path : List Char} (hne : path ≠ []) (hslash : '/' ∉ path)
    (ks : List (Candidate α)) :
    Finds (Pattern.Begins fun name => [.capture name]) ks path
      ((ks.filterMap (·.takeCapture path)).find? fun k => k.pattern.isEmpty) := by
  refine finds_behind _ (fun name => [(name, path)]) (fun k k' => ?_) (fun name p κ => ?_)
    (fun _ _ p q hbefore => ?_) (finds_end _)
  · exact Candidate.takeCapture_eq_some_iff
  · rw [List.singleton_append, Pattern.fits_capture_iff, splitSegment_of_not_mem hslash]
    constructor
    · rintro (⟨rfl, -, rfl⟩)
      exact ⟨[], .nil, rfl⟩
    · rintro ⟨κ', hp, rfl⟩
      obtain ⟨rfl, rfl⟩ := Pattern.fits_nil_iff.mp hp
      exact .last rfl hne rfl
  · cases hbefore with
    | capture hbefore => exact hbefore

/-- A capture in front of a slash. -/
theorem finds_capture {text path : List Char} (hslash : '/' ∉ text) {ks : List (Candidate α)}
    {found : Option (Candidate α)}
    (h : Finds (fun _ => True)
      (ks.filterMap fun k => (k.takeCapture text).bind (·.takeChar '/')) path found) :
    Finds (Pattern.Begins fun name => [.capture name, .char '/']) ks (text ++ '/' :: path)
      found := by
  refine finds_behind _ (fun name => [(name, text)]) (fun k k' => ?_) (fun name p κ => ?_)
    (fun _ _ p q hbefore => ?_) h
  · simp only [Option.bind_eq_some_iff, Candidate.takeCapture_eq_some_iff,
      Candidate.takeChar_eq_some_iff]
    constructor
    · rintro ⟨_, ⟨name, p, hp, rfl⟩, q, rfl, rfl⟩
      exact ⟨name, q, hp, rfl⟩
    · rintro ⟨name, p, hp, rfl⟩
      exact ⟨_, ⟨name, _, hp, rfl⟩, p, rfl, rfl⟩
  · rw [List.cons_append, Pattern.fits_capture_iff, splitSegment_append hslash]
    constructor
    · rintro (_ | ⟨⟨⟩, h, rfl⟩)
      exact ⟨_, h, rfl⟩
    · rintro ⟨κ', h, rfl⟩
      exact .more rfl h rfl
  · cases hbefore with
    | capture hbefore =>
        cases hbefore with
        | char hbefore => exact hbefore

theorem finds_rest {path : List Char} (hne : path ≠ []) (ks : List (Candidate α)) :
    Finds (fun p => ∃ name q, p = .rest name :: q) ks path (ks.findSome? (·.takeRest path)) := by
  cases hfound : ks.findSome? (·.takeRest path) with
  | none =>
      refine .nothing fun k hk hkind κ hfits => ?_
      obtain ⟨name, q, hq⟩ := hkind
      have htook : k.takeRest path = some ⟨[], k.captures ++ [(name, path)], k.endpoint⟩ :=
        Candidate.takeRest_eq_some_iff.mpr ⟨name, q, hq, rfl⟩
      rw [List.findSome?_eq_none_iff.mp hfound k hk] at htook
      cases htook
  | some k' =>
      obtain ⟨k, hk, htook⟩ := List.exists_of_findSome?_eq_some hfound
      obtain ⟨name, q, hq, rfl⟩ := Candidate.takeRest_eq_some_iff.mp htook
      refine .best hk ⟨name, q, hq⟩ (hq ▸ .rest hne) fun l _ hkind κ' _ hbefore => ?_
      -- nothing that captures all there is precedes another pattern that does
      obtain ⟨name', q', hq'⟩ := hkind
      rw [hq, hq'] at hbefore
      cases hbefore

/-! ## §5. The search. -/

/-- **Characters, then captures, then all there is**: so no pattern that precedes is passed over. -/
theorem finds_in_order {c : Char} {path : List Char} {behind : Pattern} {ks : List (Candidate α)}
    {found found' found'' : Option (Candidate α)}
    (hchar : Finds (Pattern.Begins fun _ => [.char c]) ks (c :: path) found)
    (hcapture : Finds (Pattern.Begins fun name => .capture name :: behind) ks (c :: path) found')
    (hrest : Finds (fun p => ∃ name q, p = .rest name :: q) ks (c :: path) found'')
    (hbehind : ∀ name p κ, Pattern.Fits (.capture name :: p) (c :: path) κ → ∃ q, p = behind ++ q) :
    Finds (fun _ => True) ks (c :: path) (found.or (found'.or found'')) := by
  refine (hchar.or (hcapture.or hrest ?_) ?_).of_kind fun p κ hfits => ?_
  · rintro _ _ ⟨name, p, rfl⟩ ⟨name', q, rfl⟩ ⟨⟩
  · rintro _ _ ⟨name, p, rfl⟩ (⟨name', q, rfl⟩ | ⟨name', q, rfl⟩) ⟨⟩
  · cases p with
    | nil => exact absurd (Pattern.eq_nil_of_fits hfits) (List.cons_ne_nil c path)
    | cons part p =>
        cases part with
        | char d =>
            cases hfits
            exact .inl ⟨"", p, rfl⟩
        | capture name =>
            obtain ⟨q, rfl⟩ := hbehind name p κ hfits
            exact .inr (.inl ⟨name, q, rfl⟩)
        | rest name => exact .inr (.inr ⟨name, p, rfl⟩)

/-- **The search finds the most special pattern that fits**, and nothing only if none fits. -/
theorem finds_findMatch (ks : List (Candidate α)) (path : List Char) :
    Finds (fun _ => True) ks path (findMatch ks path) := by
  fun_induction findMatch ks path with
  | case1 path => exact .nothing nofun
  | case2 k ks => exact finds_end (k :: ks)
  | case3 k ks c path ihChar ihAfter =>
      have hchar := finds_char ihChar
      have hrest := finds_rest (List.cons_ne_nil c path) (k :: ks)
      obtain ⟨hslash, hpath⟩ := splitSegment_spec (c :: path)
      split
      · -- the segment is the last one, so nothing may be left behind a capture
        next segment hsplit =>
          rw [hsplit] at hslash hpath
          dsimp only at hslash hpath
          subst hpath
          refine finds_in_order hchar (finds_last (List.cons_ne_nil c path) hslash (k :: ks)) hrest
            fun name p κ hfits => ?_
          exact ⟨p, rfl⟩
      · -- a slash follows, and must do so in the pattern
        next segment after hsplit =>
          rw [hsplit] at hslash hpath
          dsimp only at hslash hpath
          have hcapture := finds_capture hslash (ihAfter segment after hsplit)
          rw [← hpath] at hcapture
          refine finds_in_order hchar hcapture hrest fun name p κ hfits => ?_
          rw [Pattern.fits_capture_iff, hsplit] at hfits
          cases hfits with
          | more hp => exact ⟨_, hp⟩

/-! ## §6. Patterns without conflicts. -/

/-- Conflicts are mutual. -/
theorem Pattern.conflict_comm (p q : Pattern) : p.conflict q = q.conflict p := by
  induction p generalizing q with
  | nil => cases q <;> simp [conflict]
  | cons part p ih =>
      cases q with
      | nil => simp [conflict]
      | cons part' q =>
          cases part <;> cases part' <;> simp [conflict, ih q, Bool.beq_comm]

/-- **A registered route leads where a path is meant for**: it fits, and none that fits precedes. -/
structure Best (routes : List (Registered α)) (path : String) (r : Registered α) (κ : Captures) :
    Prop where
  mem : r ∈ routes
  fits : r.pattern.Fits path.toList κ
  first : ∀ r' ∈ routes, ∀ κ', r'.pattern.Fits path.toList κ' → ¬ r'.pattern.Precedes r.pattern

/-- No two registered routes conflict. -/
def Apart (routes : List (Registered α)) : Prop :=
  routes.Pairwise fun r r' => r.pattern.conflict r'.pattern = false

variable {routes : List (Registered α)} {path : String}

/-- **Without conflicts there is only one best route**, which captures in one way only. -/
theorem Best.unique (hapart : Apart routes) {r r' : Registered α} {κ κ' : Captures}
    (h : Best routes path r κ) (h' : Best routes path r' κ') : r = r' ∧ κ = κ' := by
  have hsame : r = r' := by
    by_contra hne
    have hsymm : Std.Symm fun r r' : Registered α => r.pattern.conflict r'.pattern = false :=
      ⟨fun r r' hr => (Pattern.conflict_comm _ _).trans hr⟩
    have hno := hapart.forall h.mem h'.mem hne
    rcases h.fits.precedes_or_conflict h'.fits with hbefore | hbefore | hconflict
    · exact h'.first r h.mem κ h.fits hbefore
    · exact h.first r' h'.mem κ' h'.fits hbefore
    · rw [hno] at hconflict
      cases hconflict
  subst hsame
  exact ⟨rfl, h.fits.unique h'.fits⟩

/-- What the search finds among registered routes. -/
theorem findRoute_cases (routes : List (Registered α)) (path : String) :
    (findRoute routes path = none ∧ ∀ r ∈ routes, ∀ κ, ¬ r.pattern.Fits path.toList κ)
      ∨ ∃ r κ, Best routes path r κ ∧ findRoute routes path = some (r.endpoint, κ) := by
  have hfinds := finds_findMatch (routes.map Registered.candidate) path.toList
  unfold findRoute
  generalize findMatch (routes.map Registered.candidate) path.toList = found at hfinds
  cases hfinds with
  | nothing hnone =>
      exact .inl ⟨rfl, fun r hr => hnone _ (List.mem_map_of_mem hr) trivial⟩
  | @best k κ hk _ hfits hbest =>
      obtain ⟨r, hr, rfl⟩ := List.mem_map.mp hk
      exact .inr ⟨r, κ, ⟨hr, hfits, fun r' hr' => hbest _ (List.mem_map_of_mem hr') trivial⟩, rfl⟩

/-- **Nothing is found for a path only if no pattern fits it.** -/
theorem findRoute_eq_none_iff :
    findRoute routes path = none ↔ ∀ r ∈ routes, ∀ κ, ¬ r.pattern.Fits path.toList κ := by
  rcases findRoute_cases routes path with ⟨hnone, hfits⟩ | ⟨r, κ, hbest, hsome⟩
  · exact ⟨fun _ => hfits, fun _ => hnone⟩
  · rw [hsome]
    exact ⟨nofun, fun h => absurd hbest.fits (h r hbest.mem κ)⟩

/-- **What is found for a path is who answers at the best route.** -/
theorem findRoute_eq_some_iff (hapart : Apart routes) {endpoint : Endpoint α} {κ : Captures} :
    findRoute routes path = some (endpoint, κ)
      ↔ ∃ r, Best routes path r κ ∧ r.endpoint = endpoint := by
  rcases findRoute_cases routes path with ⟨hnone, hfits⟩ | ⟨r, κ', hbest, hsome⟩
  · rw [hnone]
    refine ⟨nofun, ?_⟩
    rintro ⟨r, hbest, -⟩
    exact absurd hbest.fits (hfits r hbest.mem κ)
  · rw [hsome]
    constructor
    · rintro ⟨⟩
      exact ⟨r, hbest, rfl⟩
    · rintro ⟨r', hbest', rfl⟩
      obtain ⟨rfl, rfl⟩ := hbest.unique hapart hbest'
      rfl

end Search

end ErrorContract.Http
