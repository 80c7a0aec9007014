/-
  ErrorContract.Proofs.Specificity
  ────────────────────────────────
  **WHEN THE MOST SPECIFIC LAYER WINS.**

  Layers and classifications are ranked: an unreadable body before an error
  of a statement, of the database client, of the SQL layer, and those before
  everything else.  A failure ranks as what it was made from.  The rule of
  thumb is that the classification has the least rank among the visible
  layers.  It holds of errors that were raised as they are, but of several
  failures only the outermost is looked at, and a vendor's error inside a
  failure only when there is no vendor's error outside of one.

  `classify_eq_decision` says what the classification depends on: the most
  specific raw layer and the outermost failure.  From it follows exactly
  when the rule holds, when a context makes an error less specific, and when
  an error may be raised as a failure without changing the classification.
-/
import Mathlib.Tactic.FinCases
import Mathlib.Tactic.SplitIfs
import ErrorContract.Proofs.Classification

namespace ErrorContract

open Failure

/-! ## §1. Ranks. -/

/-- The rank of a category, the most specific one first. -/
def Category.rank : Category → Nat
  | .unreadableBody => 1
  | .statement => 2
  | .client => 3
  | .sql => 4
  | _ => 5

/-- The rank of a failure is that of its category. -/
def Failure.rank (f : Failure) : Nat := f.category.rank

/-- The rank of a layer; a failure ranks as what it was made from. -/
def Layer.rank : Layer → Nat
  | .body _ => 1
  | .statement _ => 2
  | .client _ => 3
  | .sql _ => 4
  | .failure raised => raised.rank
  | _ => 5

/-- Is the layer a vendor's error or an unreadable body that was raised as it is? -/
def Layer.isRaw : Layer → Bool
  | .body _ | .statement _ | .client _ | .sql _ => true
  | _ => false

theorem Failure.rank_pos (f : Failure) : 1 ≤ f.rank := by
  cases f <;> simp [rank, category, Category.rank]

theorem Failure.rank_le (f : Failure) : f.rank ≤ 5 := by
  cases f <;> simp [rank, category, Category.rank]

theorem Layer.rank_pos (l : Layer) : 1 ≤ l.rank := by
  cases l <;> simp [rank, Failure.rank_pos]

theorem Layer.rank_le (l : Layer) : l.rank ≤ 5 := by
  cases l <;> simp [rank, Failure.rank_le]

theorem Layer.rank_lt_of_isRaw {l : Layer} (h : l.isRaw = true) : l.rank < 5 := by
  cases l <;> simp_all [rank, isRaw]

/-- Reading a layer as a failure keeps its rank. -/
theorem Layer.rank_of_reading {l : Layer} {f : Failure} (h : l.reading = some f) :
    f.rank = l.rank := by
  cases l with
  | common kind message =>
      cases kind <;> (cases h; rfl)
  | other message => cases h
  | _ => cases h; rfl

/-- The failures of the first rank are the unreadable bodies. -/
theorem asBody_eq (f : Failure) : asBody f = if f.rank = 1 then some f else none := by
  cases f <;> rfl

/-! ## §2. The most specific raw layer. -/

/-- The more specific of two layers that may be absent; of two equals the first. -/
def moreSpecific : Option Layer → Option Layer → Option Layer
  | none, other => other
  | some l, none => some l
  | some l, some m => if m.rank < l.rank then some m else some l

/-- **The most specific raw layer**, the outermost if there are several. -/
def mostSpecific : List Layer → Option Layer
  | [] => none
  | l :: rest => moreSpecific (if l.isRaw then some l else none) (mostSpecific rest)

theorem moreSpecific_none (l : Option Layer) : moreSpecific l none = l := by
  cases l <;> rfl

theorem moreSpecific_assoc (a b c : Option Layer) :
    moreSpecific (moreSpecific a b) c = moreSpecific a (moreSpecific b c) := by
  cases a with
  | none => rfl
  | some a =>
      cases b with
      | none => rfl
      | some b =>
          cases c with
          | none => simp [moreSpecific_none]
          | some c =>
              -- The three ranks can be compared in every possible way.
              by_cases hab : b.rank < a.rank <;> by_cases hbc : c.rank < b.rank <;>
                by_cases hac : c.rank < a.rank <;> simp [moreSpecific, hab, hbc, hac] <;> omega

theorem mostSpecific_append (above below : List Layer) :
    mostSpecific (above ++ below) = moreSpecific (mostSpecific above) (mostSpecific below) := by
  induction above with
  | nil => rfl
  | cons l rest ih => rw [List.cons_append, mostSpecific, ih, mostSpecific, moreSpecific_assoc]

/-- Of two layers the more specific is one of them, and neither has a lesser rank. -/
theorem moreSpecific_spec {a b : Option Layer} {m : Layer} (h : moreSpecific a b = some m) :
    (a = some m ∨ b = some m) ∧ (∀ l, a = some l → m.rank ≤ l.rank)
      ∧ (∀ l, b = some l → m.rank ≤ l.rank) := by
  cases a with
  | none => cases h; simp
  | some a =>
      cases b with
      | none => cases h; simp
      | some b =>
          by_cases hab : b.rank < a.rank <;> simp [moreSpecific, hab] at h <;> subst h <;>
            simp <;> omega

theorem mostSpecific_eq_none_iff {layers : List Layer} :
    mostSpecific layers = none ↔ ∀ l ∈ layers, l.isRaw = false := by
  induction layers with
  | nil => simp [mostSpecific]
  | cons l rest ih =>
      rw [mostSpecific, List.forall_mem_cons, ← ih]
      cases l.isRaw <;> cases mostSpecific rest <;> simp [moreSpecific]
      split <;> simp

/-- **Where the most specific raw layer stands**: no raw layer above it is as specific, and none
below it is more specific. -/
theorem exists_split_of_mostSpecific {layers : List Layer} {m : Layer}
    (h : mostSpecific layers = some m) :
    m.isRaw = true ∧ ∃ above below, layers = above ++ m :: below
      ∧ (∀ a ∈ above, a.isRaw = true → m.rank < a.rank)
      ∧ (∀ b ∈ below, b.isRaw = true → m.rank ≤ b.rank) := by
  induction layers generalizing m with
  | nil => cases h
  | cons l rest ih =>
      rw [mostSpecific] at h
      cases hrest : mostSpecific rest with
      | none =>
          -- the head is the only raw layer
          rw [hrest, moreSpecific_none] at h
          have hl : l.isRaw = true ∧ l = m := by simpa using h
          obtain ⟨hraw, rfl⟩ := hl
          have hnone := mostSpecific_eq_none_iff.mp hrest
          refine ⟨hraw, [], rest, rfl, by simp, fun b hb hb' => ?_⟩
          rw [hnone b hb] at hb'
          cases hb'
      | some n =>
          obtain ⟨hn, above, below, rfl, habove, hbelow⟩ := ih hrest
          rw [hrest] at h
          by_cases hl : l.isRaw = true ∧ l.rank ≤ n.rank
          · -- the head is at least as specific as all that follows
            obtain ⟨hraw, hle⟩ := hl
            have hm : l = m := by
              rw [if_pos hraw, moreSpecific, if_neg (by omega)] at h
              exact Option.some.inj h
            subst hm
            refine ⟨hraw, [], above ++ n :: below, rfl, by simp, fun b hb hb' => ?_⟩
            rcases List.mem_append.mp hb with hb | hb
            · exact Nat.le_trans hle (Nat.le_of_lt (habove b hb hb'))
            · rcases List.mem_cons.mp hb with rfl | hb
              · exact hle
              · exact Nat.le_trans hle (hbelow b hb hb')
          -- the head is not raw, or less specific than what follows
          · have hm : n = m := by
              by_cases hraw : l.isRaw = true
              · have hlt : n.rank < l.rank := Nat.lt_of_not_le fun hle => hl ⟨hraw, hle⟩
                rw [if_pos hraw, moreSpecific, if_pos hlt] at h
                exact Option.some.inj h
              · rw [if_neg hraw] at h
                exact Option.some.inj h
            subst hm
            refine ⟨hn, l :: above, below, rfl, fun a ha ha' => ?_, hbelow⟩
            rcases List.mem_cons.mp ha with rfl | ha
            · exact Nat.lt_of_not_le fun hle => hl ⟨ha', hle⟩
            · exact habove a ha ha'

theorem le_rank_of_mostSpecific {layers : List Layer} {m : Layer}
    (h : mostSpecific layers = some m) : ∀ l ∈ layers, l.isRaw = true → m.rank ≤ l.rank := by
  obtain ⟨-, above, below, rfl, habove, hbelow⟩ := exists_split_of_mostSpecific h
  intro l hl hraw
  rcases List.mem_append.mp hl with hl | hl
  · exact Nat.le_of_lt (habove l hl hraw)
  · rcases List.mem_cons.mp hl with rfl | hl
    · exact Nat.le_refl _
    · exact hbelow l hl hraw

theorem mem_of_mostSpecific {layers : List Layer} {m : Layer}
    (h : mostSpecific layers = some m) : m ∈ layers := by
  obtain ⟨-, above, below, rfl, -⟩ := exists_split_of_mostSpecific h
  exact List.mem_append_right above List.mem_cons_self

/-! ## §3. What the classification depends on. -/

/-- The outermost failure among the layers. -/
def outermostFailure (layers : List Layer) : Option Failure := layers.findSome? Layer.failure?

/-- The most specific raw layer, read as a failure. -/
def rawReading (layers : List Layer) : Option Failure := (mostSpecific layers).bind Layer.reading

/-- What a classification comes to: an unreadable body, raw or as the outermost failure, then
the most specific raw layer, then the outermost failure, then the rest. -/
def decision (raw outer : Option Failure) (rest : Failure) : Failure :=
  ((raw.bind asBody).or ((outer.bind asBody).or (raw.or outer))).getD rest

theorem find_on_eq_none {kind : LayerKind} {layers : List Layer}
    (h : ∀ l ∈ layers, l.kind ≠ kind) : (Criterion.on kind).find layers = none := by
  have hfind : layers.find? (fun a => decide (a.kind = kind)) = none := by
    simpa [List.find?_eq_none] using h
  show (layers.find? fun a => decide (a.kind = kind)).bind _ = _
  rw [hfind]
  rfl

theorem find_on_kind {above below : List Layer} {m : Layer}
    (h : ∀ a ∈ above, a.kind ≠ m.kind) :
    (Criterion.on m.kind).find (above ++ m :: below) = m.reading := by
  have hm : IsOutermost m.kind (above ++ m :: below) m := ⟨rfl, above, below, rfl, h⟩
  show ((above ++ m :: below).find? fun a => decide (a.kind = m.kind)).bind _ = _
  rw [isOutermost_iff.mp hm]
  rfl

/-- The kinds of raw layers, most specific first. -/
def rawKinds : List LayerKind := [.body, .statement, .client, .sql]

/-- The rank of the raw layers of a kind. -/
def LayerKind.rank : LayerKind → Nat
  | .body => 1
  | .statement => 2
  | .client => 3
  | .sql => 4
  | _ => 5

theorem Layer.isRaw_iff (l : Layer) : l.isRaw = true ↔ l.kind ∈ rawKinds := by
  cases l <;> simp [isRaw, kind, rawKinds]

theorem Layer.rank_of_isRaw {l : Layer} (h : l.isRaw = true) : l.rank = l.kind.rank := by
  cases l <;> first | rfl | cases h

theorem Layer.isSome_reading_of_isRaw {l : Layer} (h : l.isRaw = true) :
    l.reading.isSome = true := by
  cases l <;> first | rfl | cases h

/-- Among the kinds of raw layers a lesser rank comes first. -/
theorem exists_split_rawKinds {kind : LayerKind} (h : kind ∈ rawKinds) :
    ∃ before after, rawKinds = before ++ kind :: after ∧ ∀ k ∈ before, k.rank < kind.rank := by
  fin_cases h
  · exact ⟨[], _, rfl, by decide⟩
  · exact ⟨[.body], _, rfl, by decide⟩
  · exact ⟨[.body, .statement], _, rfl, by decide⟩
  · exact ⟨[.body, .statement, .client], _, rfl, by decide⟩

/-- **The criteria of raw layers, one after the other, find the most specific raw layer.** -/
theorem findSome?_rawKinds (layers : List Layer) :
    (rawKinds.findSome? fun kind => (Criterion.on kind).find layers) = rawReading layers := by
  unfold rawReading
  cases h : mostSpecific layers with
  | none =>
      rw [Option.bind_none, List.findSome?_eq_none_iff]
      intro kind hkind
      apply find_on_eq_none
      intro l hl heq
      have hraw := mostSpecific_eq_none_iff.mp h l hl
      rw [← heq, ← Layer.isRaw_iff, hraw] at hkind
      cases hkind
  | some m =>
      obtain ⟨hraw, above, below, rfl, habove, hbelow⟩ := exists_split_of_mostSpecific h
      -- Its own criterion finds it, since no layer of its kind stands above it.
      have hm : (Criterion.on m.kind).find (above ++ m :: below) = m.reading := by
        apply find_on_kind
        intro a ha heq
        have haraw : a.isRaw = true := by rwa [Layer.isRaw_iff, heq, ← Layer.isRaw_iff]
        have hlt := habove a ha haraw
        rw [Layer.rank_of_isRaw haraw, Layer.rank_of_isRaw hraw, heq] at hlt
        exact Nat.lt_irrefl _ hlt
      -- The criteria before its own find nothing, or a more specific layer would be there.
      have hless : ∀ kind ∈ rawKinds, kind.rank < m.rank →
          (Criterion.on kind).find (above ++ m :: below) = none := by
        intro kind hkind hlt
        apply find_on_eq_none
        intro l hl heq
        have hlraw : l.isRaw = true := by rwa [Layer.isRaw_iff, heq]
        have hle := le_rank_of_mostSpecific h l hl hlraw
        rw [Layer.rank_of_isRaw hlraw, heq] at hle
        omega
      obtain ⟨before, after, hkinds, hbefore⟩ :=
        exists_split_rawKinds ((Layer.isRaw_iff m).mp hraw)
      have hnone : ∀ kind ∈ before, (Criterion.on kind).find (above ++ m :: below) = none := by
        intro kind hkind
        apply hless kind (hkinds ▸ List.mem_append_left _ hkind)
        rw [Layer.rank_of_isRaw hraw]
        exact hbefore kind hkind
      obtain ⟨f, hf⟩ := Option.isSome_iff_exists.mp (Layer.isSome_reading_of_isRaw hraw)
      rw [hkinds, List.findSome?_append, List.findSome?_eq_none_iff.mpr hnone, Option.none_or,
        findSome?_cons_eq_or, hm, Option.bind_some, hf]
      rfl

/-- The criteria that neither raw layers nor failures meet. -/
def commonCriteria : List Criterion := criteria.drop 6

theorem rank_of_commonCriteria {layers : List Layer} {f : Failure}
    (h : commonCriteria.findSome? (·.find layers) = some f) : f.rank = 5 := by
  obtain ⟨before, c, after, hsplit, hc, -⟩ := List.findSome?_eq_some_iff.mp h
  have hmem : c ∈ commonCriteria := hsplit ▸ List.mem_append_right before List.mem_cons_self
  have hcommon : ∃ kind, c = .on (.common kind) := by
    fin_cases hmem <;> exact ⟨_, rfl⟩
  obtain ⟨kind, rfl⟩ := hcommon
  obtain ⟨l, ⟨hkind, -⟩, hreading⟩ := Criterion.finds_iff.mpr hc
  rw [Layer.rank_of_reading hreading]
  cases l <;> first | rfl | cases hkind

/-- **The classification depends on the most specific raw layer and the outermost failure**, and
only without either on anything else, which is then of the last rank. -/
theorem classify_eq_decision (e : Raised) :
    ∃ rest, rest.rank = 5
      ∧ classify e = decision (rawReading e.layers) (outermostFailure e.layers) rest := by
  have houter : e.outermost Layer.failure? = outermostFailure e.layers :=
    e.outermost_eq_findSome?_layers fun _ => rfl
  refine ⟨(commonCriteria.findSome? (·.find e.layers)).getD (ofText e.message), ?_, ?_⟩
  · cases h : commonCriteria.findSome? (·.find e.layers) with
    | none => rfl
    | some f => exact rank_of_commonCriteria h
  · have hcriteria : criteria = [.on .body, ⟨.failure, Layer.bodyReading⟩, .on .statement,
        .on .client, .on .sql, .on .failure] ++ commonCriteria := rfl
    have hraw := findSome?_rawKinds e.layers
    have hbody : (rawReading e.layers).bind asBody = (Criterion.on .body).find e.layers := by
      rw [← hraw, rawKinds]
      simp only [findSome?_cons_eq_or, List.findSome?_nil, find_on_body, find_on_statement,
        find_on_client, find_on_sql]
      cases e.outermost Layer.body? <;> cases e.outermost Layer.statement? <;>
        cases e.outermost Layer.client? <;> cases e.outermost Layer.sql? <;> rfl
    rw [decision, hbody, ← houter, ← find_bodyReading, ← hraw, classify, findSome?_rules, hcriteria,
      ← find_on_failure, rawKinds]
    simp only [List.findSome?_append, findSome?_cons_eq_or, List.findSome?_nil]
    -- A raw unreadable body settles it; without one the criteria are in the order of the decision.
    cases (Criterion.on .body).find e.layers with
    | some f => rfl
    | none => simp [Option.or_assoc, Option.getD_or]

/-! ## §4. The rank of the classification. -/

/-- The rank of the most specific raw layer; the last rank without one. -/
def rawRank (layers : List Layer) : Nat := ((mostSpecific layers).map Layer.rank).getD 5

/-- The rank of the outermost failure; the last rank without one. -/
def outermostRank (layers : List Layer) : Nat :=
  ((outermostFailure layers).map Failure.rank).getD 5

/-- The rank that a classification comes to. -/
def decidedRank (raw outer : Nat) : Nat :=
  if outer = 1 then 1 else if raw < 5 then raw else outer

theorem one_le_rawRank (layers : List Layer) : 1 ≤ rawRank layers := by
  unfold rawRank
  cases mostSpecific layers with
  | none => decide
  | some m => exact m.rank_pos

theorem rank_decision {raw outer : Option Failure} {rest : Failure}
    (hraw : ∀ f, raw = some f → f.rank < 5) (hrest : rest.rank = 5) :
    (decision raw outer rest).rank
      = decidedRank ((raw.map Failure.rank).getD 5) ((outer.map Failure.rank).getD 5) := by
  unfold decision decidedRank
  cases raw with
  | none =>
      cases outer with
      | none => exact hrest
      | some g => by_cases hg : g.rank = 1 <;> simp [asBody_eq, hg]
  | some f =>
      have hf := hraw f rfl
      cases outer with
      | none => by_cases h : f.rank = 1 <;> simp [asBody_eq, h, hf]
      | some g =>
          by_cases h : f.rank = 1 <;> by_cases hg : g.rank = 1 <;> simp [asBody_eq, h, hg, hf]

/-- **The rank of a classification.** -/
theorem rank_classify (e : Raised) :
    (classify e).rank = decidedRank (rawRank e.layers) (outermostRank e.layers) := by
  obtain ⟨rest, hrest, hclassify⟩ := classify_eq_decision e
  have hraw : ∀ f, rawReading e.layers = some f → f.rank < 5 := by
    intro f hf
    obtain ⟨m, hm, hreading⟩ := Option.bind_eq_some_iff.mp hf
    rw [Layer.rank_of_reading hreading]
    exact Layer.rank_lt_of_isRaw (exists_split_of_mostSpecific hm).1
  have hrank : ((rawReading e.layers).map Failure.rank).getD 5 = rawRank e.layers := by
    rw [rawReading, rawRank]
    cases hm : mostSpecific e.layers with
    | none => rfl
    | some m =>
        have hisRaw := (exists_split_of_mostSpecific hm).1
        obtain ⟨f, hf⟩ := Option.isSome_iff_exists.mp (Layer.isSome_reading_of_isRaw hisRaw)
        rw [Option.bind_some, hf]
        exact Layer.rank_of_reading hf
  rw [hclassify, rank_decision hraw hrest, hrank, outermostRank]

/-! ### What the two ranks say of the layers. -/

theorem rawRank_le_iff {layers : List Layer} {r : Nat} (hr : r < 5) :
    rawRank layers ≤ r ↔ ∃ l ∈ layers, l.isRaw = true ∧ l.rank ≤ r := by
  rw [rawRank]
  cases h : mostSpecific layers with
  | none =>
      have hnone := mostSpecific_eq_none_iff.mp h
      constructor
      · intro hle
        simp at hle
        omega
      · rintro ⟨l, hl, hraw, -⟩
        rw [hnone l hl] at hraw
        cases hraw
  | some m =>
      constructor
      · intro hle
        exact ⟨m, mem_of_mostSpecific h, (exists_split_of_mostSpecific h).1, hle⟩
      · rintro ⟨l, hl, hraw, hle⟩
        exact Nat.le_trans (le_rank_of_mostSpecific h l hl hraw) hle

theorem rawRank_eq_five_iff {layers : List Layer} :
    ¬ rawRank layers < 5 ↔ ∀ l ∈ layers, l.isRaw = false := by
  rw [rawRank, ← mostSpecific_eq_none_iff]
  cases h : mostSpecific layers with
  | none => simp
  | some m =>
      have hlt := Layer.rank_lt_of_isRaw (exists_split_of_mostSpecific h).1
      simpa using hlt

theorem rawRank_cons (l : Layer) (layers : List Layer) :
    rawRank (l :: layers) = if l.isRaw then min l.rank (rawRank layers) else rawRank layers := by
  rw [rawRank, rawRank, mostSpecific]
  by_cases hraw : l.isRaw = true
  · have hlt := Layer.rank_lt_of_isRaw hraw
    rw [if_pos hraw, if_pos hraw]
    cases mostSpecific layers with
    | none =>
        show l.rank = min l.rank 5
        omega
    | some m =>
        show ((if m.rank < l.rank then some m else some l).map Layer.rank).getD 5
          = min l.rank m.rank
        by_cases h : m.rank < l.rank
        · rw [if_pos h]
          show m.rank = _
          omega
        · rw [if_neg h]
          show l.rank = _
          omega
  · rw [if_neg hraw, if_neg hraw]
    rfl

theorem outermostFailure_cons (l : Layer) (layers : List Layer) :
    outermostFailure (l :: layers) = l.failure?.or (outermostFailure layers) :=
  findSome?_cons_eq_or Layer.failure? l layers

theorem outermostRank_of_eq_some {layers : List Layer} {g : Failure}
    (h : outermostFailure layers = some g) : outermostRank layers = g.rank := by
  rw [outermostRank, h]
  rfl

theorem mem_of_outermostFailure {layers : List Layer} {g : Failure}
    (h : outermostFailure layers = some g) : Layer.failure g ∈ layers := by
  obtain ⟨above, l, below, rfl, hl, -⟩ := List.findSome?_eq_some_iff.mp h
  cases l with
  | failure raised =>
      cases hl
      exact List.mem_append_right above List.mem_cons_self
  | _ => cases hl

theorem exists_outermostFailure {layers : List Layer} {f : Failure}
    (h : Layer.failure f ∈ layers) : ∃ g, outermostFailure layers = some g := by
  cases houter : outermostFailure layers with
  | some g => exact ⟨g, rfl⟩
  | none => cases List.findSome?_eq_none_iff.mp houter _ h

/-! ## §5. When the least rank wins. -/

/-- **No failure among the layers goes unheard**: a raw layer is as specific, or the outermost
failure is as specific and is listened to, being an unreadable body or alone. -/
def NothingMuffled (layers : List Layer) : Prop :=
  ∀ f, Layer.failure f ∈ layers →
    (∃ l ∈ layers, l.isRaw = true ∧ l.rank ≤ f.rank)
    ∨ ∃ g, outermostFailure layers = some g ∧ g.rank ≤ f.rank
        ∧ (g.rank = 1 ∨ ∀ l ∈ layers, l.isRaw = false)

theorem exists_rank_eq_rawRank {layers : List Layer} (h : rawRank layers < 5) :
    ∃ l ∈ layers, l.rank = rawRank layers := by
  obtain ⟨l, hl, hraw, hle⟩ := (rawRank_le_iff h).mp (Nat.le_refl _)
  have hge := (rawRank_le_iff (Layer.rank_lt_of_isRaw hraw)).mpr ⟨l, hl, hraw, Nat.le_refl _⟩
  exact ⟨l, hl, Nat.le_antisymm hle hge⟩

/-- A classification never is more specific than all layers. -/
theorem exists_rank_eq_rank_classify (e : Raised) :
    ∃ l ∈ e.layers, l.rank = (classify e).rank := by
  rw [rank_classify, decidedRank]
  cases houter : outermostFailure e.layers with
  | some g =>
      have hg : ∃ l ∈ e.layers, l.rank = outermostRank e.layers :=
        ⟨.failure g, mem_of_outermostFailure houter, (outermostRank_of_eq_some houter).symm⟩
      by_cases hbody : outermostRank e.layers = 1
      · rw [if_pos hbody, ← hbody]
        exact hg
      · rw [if_neg hbody]
        by_cases hraw : rawRank e.layers < 5
        · rw [if_pos hraw]
          exact exists_rank_eq_rawRank hraw
        · rw [if_neg hraw]
          exact hg
  | none =>
      have hrank : outermostRank e.layers = 5 := by rw [outermostRank, houter]; rfl
      rw [hrank, if_neg (by decide)]
      by_cases hraw : rawRank e.layers < 5
      · rw [if_pos hraw]
        exact exists_rank_eq_rawRank hraw
      · -- neither raw layers nor failures: every layer is of the last rank
        obtain ⟨top, rest, hlayers, -⟩ := e.exists_layers_eq_cons
        have htop : top ∈ e.layers := hlayers ▸ List.mem_cons_self
        have hnot := rawRank_eq_five_iff.mp hraw top htop
        have hfailure := List.findSome?_eq_none_iff.mp houter top htop
        refine ⟨top, htop, ?_⟩
        rw [if_neg hraw]
        cases top <;> simp_all [Layer.rank, Layer.isRaw, Layer.failure?]

/-- **The classification is as specific as every layer exactly if no failure goes unheard.** -/
theorem rank_classify_le_iff (e : Raised) :
    (∀ l ∈ e.layers, (classify e).rank ≤ l.rank) ↔ NothingMuffled e.layers := by
  rw [rank_classify]
  constructor
  · intro hle f hf
    have hf' : decidedRank (rawRank e.layers) (outermostRank e.layers) ≤ f.rank := hle _ hf
    have hf5 := f.rank_le
    obtain ⟨g, hg⟩ := exists_outermostFailure hf
    rw [outermostRank_of_eq_some hg, decidedRank] at hf'
    -- The outermost failure is listened to if it is an unreadable body, or if nothing is raw.
    by_cases hbody : g.rank = 1
    · rw [if_pos hbody] at hf'
      exact .inr ⟨g, hg, hbody ▸ hf', .inl hbody⟩
    · rw [if_neg hbody] at hf'
      by_cases hraw : rawRank e.layers < 5
      · rw [if_pos hraw] at hf'
        obtain ⟨l, hl, hisRaw, hlr⟩ := (rawRank_le_iff hraw).mp (Nat.le_refl _)
        exact .inl ⟨l, hl, hisRaw, Nat.le_trans hlr hf'⟩
      · rw [if_neg hraw] at hf'
        exact .inr ⟨g, hg, hf', .inr (rawRank_eq_five_iff.mp hraw)⟩
  · intro h l hl
    -- Raw layers are never passed over.
    have hraw_le : ∀ k ∈ e.layers, k.isRaw = true →
        decidedRank (rawRank e.layers) (outermostRank e.layers) ≤ k.rank := by
      intro k hk hisRaw
      have hlt := Layer.rank_lt_of_isRaw hisRaw
      have hpos := k.rank_pos
      have hle := (rawRank_le_iff hlt).mpr ⟨k, hk, hisRaw, Nat.le_refl _⟩
      unfold decidedRank
      by_cases hbody : outermostRank e.layers = 1
      · rw [if_pos hbody]
        exact hpos
      · rw [if_neg hbody, if_pos (by omega)]
        exact hle
    cases l with
    | failure f =>
        rcases h f hl with ⟨k, hk, hisRaw, hkf⟩ | ⟨g, hg, hgf, halone⟩
        · exact Nat.le_trans (hraw_le k hk hisRaw) hkf
        · rw [outermostRank_of_eq_some hg, decidedRank]
          show _ ≤ f.rank
          have hpos := f.rank_pos
          rcases halone with hbody | hnone
          · rw [if_pos hbody]
            exact hpos
          · rw [if_neg (rawRank_eq_five_iff.mpr hnone)]
            by_cases hbody : g.rank = 1
            · rw [if_pos hbody]
              exact hpos
            · rw [if_neg hbody]
              exact hgf
    | common kind message =>
        rw [← rank_classify]
        exact Failure.rank_le _
    | other message =>
        rw [← rank_classify]
        exact Failure.rank_le _
    | _ => exact hraw_le _ hl rfl

/-! ## §6. When a context makes an error less specific. -/

/-- **A layer on top muffles the layers beneath**: they are classified as their outermost
failure, which is more specific than the new layer.  An unreadable body is muffled by other
failures only, and by none if it is also raw. -/
def Muffles (l : Layer) (layers : List Layer) : Prop :=
  ∃ g, outermostFailure layers = some g ∧ g.rank < l.rank
    ∧ ((g.rank = 1 ∧ l.kind = .failure ∧ ∀ k ∈ layers, k.kind ≠ .body)
      ∨ (g.rank ≠ 1 ∧ (l.kind = .failure ∨ l.isRaw = true) ∧ ∀ k ∈ layers, k.isRaw = false))

theorem rawRank_eq_one_iff {layers : List Layer} :
    rawRank layers = 1 ↔ ∃ l ∈ layers, l.kind = .body := by
  have hpos := one_le_rawRank layers
  have hle : rawRank layers ≤ 1 ↔ ∃ l ∈ layers, l.isRaw = true ∧ l.rank ≤ 1 :=
    rawRank_le_iff (by decide)
  constructor
  · intro h
    obtain ⟨l, hl, hraw, hrank⟩ := hle.mp (by omega)
    refine ⟨l, hl, ?_⟩
    cases l <;> simp_all [Layer.isRaw, Layer.rank, Layer.kind]
  · rintro ⟨l, hl, hkind⟩
    have h1 : rawRank layers ≤ 1 := by
      refine hle.mpr ⟨l, hl, ?_⟩
      cases l <;> simp_all [Layer.isRaw, Layer.rank, Layer.kind]
    omega

/-- The same in terms of ranks, for a layer on top that is a failure or raw. -/
theorem muffles_iff {l : Layer} {layers : List Layer} (hl : l.rank ≤ 5) :
    Muffles l layers ↔ outermostRank layers < l.rank
      ∧ ((outermostRank layers = 1 ∧ l.kind = .failure ∧ rawRank layers ≠ 1)
        ∨ (outermostRank layers ≠ 1 ∧ (l.kind = .failure ∨ l.isRaw = true)
          ∧ ¬ rawRank layers < 5)) := by
  have hbody : (∀ k ∈ layers, k.kind ≠ .body) ↔ rawRank layers ≠ 1 := by
    rw [ne_eq, rawRank_eq_one_iff]
    simp
  unfold Muffles
  rw [← rawRank_eq_five_iff, hbody]
  cases houter : outermostFailure layers with
  | some g => simp [outermostRank_of_eq_some houter]
  | none =>
      have hrank : outermostRank layers = 5 := by rw [outermostRank, houter]; rfl
      simp [hrank]
      omega

theorem outermostRank_cons (l : Layer) (layers : List Layer) :
    outermostRank (l :: layers) = if l.kind = .failure then l.rank else outermostRank layers := by
  unfold outermostRank
  rw [outermostFailure_cons]
  cases l <;> rfl

/-- **A context makes an error less specific exactly if it muffles it.** -/
theorem rank_classify_within_le_iff (e c : Raised) :
    (classify (.within e [c])).rank ≤ (classify e).rank ↔ ¬ Muffles c.asLayer e.layers := by
  have hlayers : (Raised.within e [c]).layers = c.asLayer :: e.layers := by
    simp [Raised.layers]
  have hpos := one_le_rawRank e.layers
  have hlpos := c.asLayer.rank_pos
  have hle := c.asLayer.rank_le
  rw [rank_classify, rank_classify, hlayers, rawRank_cons, outermostRank_cons, muffles_iff hle]
  unfold decidedRank
  -- A context is a failure, which becomes the outermost one, or raw, or neither.
  by_cases hfailure : c.asLayer.kind = .failure
  · have hraw : c.asLayer.isRaw = false := by
      cases h : c.asLayer <;> simp_all [Layer.kind, Layer.isRaw]
    simp only [hfailure, hraw]
    split_ifs <;> simp_all <;> omega
  · by_cases hraw : c.asLayer.isRaw = true
    · have hlt := Layer.rank_lt_of_isRaw hraw
      simp only [hfailure, hraw]
      split_ifs <;> simp_all
      omega
    · simp [hfailure, hraw]

/-! ## §7. When a raw layer may as well be a failure. -/

/-- **A raw layer decides the classification**: no other raw layer comes before it, and no
failure around it is an unreadable body, unless it is one itself. -/
def Decides (above : List Layer) (l : Layer) (below : List Layer) : Prop :=
  (∀ k ∈ above, k.isRaw = true → l.rank < k.rank)
  ∧ (∀ k ∈ below, k.isRaw = true → l.rank ≤ k.rank)
  ∧ (l.rank = 1 ∨ ∀ g, outermostFailure (above ++ below) = some g → g.rank ≠ 1)

/-- **Another layer speaks for a raw layer** that became the failure `f`.  If the layer decided,
then an equal one below decides in its stead, or no raw layer does and `f` is the outermost
failure.  If it did not, then it must not hide the unreadable body inside a failure below. -/
def SpokenFor (above : List Layer) (l : Layer) (f : Failure) (below : List Layer) : Prop :=
  (Decides above l below → mostSpecific below = some l
    ∨ (∀ k ∈ above ++ below, k.isRaw = true → l.rank = 1 ∧ k.rank ≠ 1)
      ∧ ∀ g, outermostFailure above = some g → g = f)
  ∧ (¬ Decides above l below → ¬ ((∀ k ∈ above ++ below, k.kind ≠ .body)
      ∧ outermostFailure above = none
      ∧ ∃ g, outermostFailure below = some g ∧ g.rank = 1))

section Decision

variable {raw outer : Option Failure} {rest f g : Failure}

theorem decision_of_outer_body (hraw : ∀ f, raw = some f → f.rank ≠ 1) (hg : g.rank = 1) :
    decision raw (some g) rest = g := by
  cases raw with
  | none => simp [decision, asBody_eq, hg]
  | some f => simp [decision, asBody_eq, hg, hraw f rfl]

theorem decision_of_raw_body (hf : f.rank = 1) : decision (some f) outer rest = f := by
  simp [decision, asBody_eq, hf]

theorem decision_of_raw (houter : ∀ g, outer = some g → g.rank ≠ 1) :
    decision (some f) outer rest = f := by
  by_cases hf : f.rank = 1
  · exact decision_of_raw_body hf
  · cases outer with
    | none => simp [decision, asBody_eq, hf]
    | some g => simp [decision, asBody_eq, hf, houter g rfl]

theorem decision_of_outer : decision none (some g) rest = g := by
  by_cases hg : g.rank = 1
  · exact decision_of_outer_body (by simp) hg
  · simp [decision, asBody_eq, hg]

end Decision

/-- Raw layers are told apart by the failures that they read as. -/
theorem Layer.reading_injective {l m : Layer} {f : Failure} (hl : l.isRaw = true)
    (hm : m.isRaw = true) (hlf : l.reading = some f) (hmf : m.reading = some f) : l = m := by
  cases l <;> cases hl <;> cases hlf <;> cases m <;> cases hm <;> cases hmf <;> rfl

theorem forall_raw_le_iff {layers : List Layer} {r : Nat} :
    (∀ k ∈ layers, k.isRaw = true → r ≤ k.rank)
      ↔ ∀ m, mostSpecific layers = some m → r ≤ m.rank := by
  constructor
  · intro h m hm
    exact h m (mem_of_mostSpecific hm) (exists_split_of_mostSpecific hm).1
  · intro h k hk hraw
    cases hm : mostSpecific layers with
    | none =>
        rw [mostSpecific_eq_none_iff.mp hm k hk] at hraw
        cases hraw
    | some m => exact Nat.le_trans (h m hm) (le_rank_of_mostSpecific hm k hk hraw)

section Replacement

variable {above below : List Layer} {l : Layer}

theorem mostSpecific_insert (hl : l.isRaw = true) :
    mostSpecific (above ++ l :: below)
      = moreSpecific (mostSpecific above) (moreSpecific (some l) (mostSpecific below)) := by
  rw [mostSpecific_append, mostSpecific, if_pos hl]

theorem mostSpecific_insert_of_decides (hl : l.isRaw = true)
    (habove : ∀ k ∈ above, k.isRaw = true → l.rank < k.rank)
    (hbelow : ∀ k ∈ below, k.isRaw = true → l.rank ≤ k.rank) :
    mostSpecific (above ++ l :: below) = some l := by
  have ha : ∀ m, mostSpecific above = some m → l.rank < m.rank := forall_raw_le_iff.mp habove
  have hb := forall_raw_le_iff.mp hbelow
  rw [mostSpecific_insert hl]
  have hinner : moreSpecific (some l) (mostSpecific below) = some l := by
    cases h : mostSpecific below with
    | none => rfl
    | some b =>
        have := hb b h
        rw [moreSpecific, if_neg (by omega)]
  rw [hinner]
  cases h : mostSpecific above with
  | none => rfl
  | some a => rw [moreSpecific, if_pos (ha a h)]

/-- With a raw layer above that is as specific, or one below that is more specific, a raw layer
makes no difference. -/
theorem mostSpecific_insert_of_not_decides (hl : l.isRaw = true)
    (h : ¬ ((∀ k ∈ above, k.isRaw = true → l.rank < k.rank)
      ∧ (∀ k ∈ below, k.isRaw = true → l.rank ≤ k.rank))) :
    mostSpecific (above ++ l :: below) = mostSpecific (above ++ below)
      ∧ ∃ m, mostSpecific (above ++ below) = some m ∧ m.rank ≤ l.rank := by
  rw [mostSpecific_insert hl, mostSpecific_append]
  have hiff : (∀ k ∈ above, k.isRaw = true → l.rank < k.rank)
      ↔ ∀ m, mostSpecific above = some m → l.rank < m.rank := forall_raw_le_iff
  rw [hiff, forall_raw_le_iff] at h
  cases ha : mostSpecific above with
  | none =>
      cases hb : mostSpecific below with
      | none => simp [ha, hb] at h
      | some b =>
          have hlt : b.rank < l.rank := by simpa [ha, hb] using h
          simp only [moreSpecific, if_pos hlt]
          exact ⟨trivial, b, rfl, by omega⟩
  | some a =>
      cases hb : mostSpecific below with
      | none =>
          have hle : a.rank ≤ l.rank := by simpa [ha, hb] using h
          simp only [moreSpecific, if_neg (Nat.not_lt.mpr hle)]
          exact ⟨trivial, a, rfl, hle⟩
      | some b =>
          have hor : a.rank ≤ l.rank ∨ b.rank < l.rank := by
            by_cases hle : a.rank ≤ l.rank
            · exact .inl hle
            · right
              simpa [ha, hb, Nat.lt_of_not_le hle] using h
          -- The layer loses against the one below it, or else against the one above.
          by_cases hbl : b.rank < l.rank
          · simp only [moreSpecific, if_pos hbl]
            by_cases hba : b.rank < a.rank
            · exact ⟨trivial, b, by rw [if_pos hba], by omega⟩
            · exact ⟨trivial, a, by rw [if_neg hba], by omega⟩
          · have hle : a.rank ≤ l.rank := by omega
            have hab : ¬ b.rank < a.rank := by omega
            simp only [moreSpecific, if_neg hbl, if_neg (Nat.not_lt.mpr hle), if_neg hab]
            exact ⟨trivial, a, rfl, hle⟩

/-! ### What the layers look like with the failure in the place of the raw layer. -/

theorem outermostFailure_append (above below : List Layer) :
    outermostFailure (above ++ below)
      = (outermostFailure above).or (outermostFailure below) :=
  List.findSome?_append

theorem outermostFailure_insert (hl : l.isRaw = true) :
    outermostFailure (above ++ l :: below) = outermostFailure (above ++ below) := by
  have hnone : l.failure? = none := by cases l <;> first | rfl | cases hl
  rw [outermostFailure_append, outermostFailure_append, outermostFailure_cons, hnone,
    Option.none_or]

theorem outermostFailure_insert_failure (f : Failure) :
    outermostFailure (above ++ .failure f :: below) = some ((outermostFailure above).getD f) := by
  rw [outermostFailure_append, outermostFailure_cons]
  cases outermostFailure above <;> rfl

theorem mostSpecific_insert_failure (f : Failure) :
    mostSpecific (above ++ .failure f :: below) = mostSpecific (above ++ below) := by
  rw [mostSpecific_append, mostSpecific_append, mostSpecific, if_neg (by simp [Layer.isRaw])]
  rfl

/-- There is no raw unreadable body if the most specific raw layer is none. -/
theorem forall_kind_ne_body_iff {layers : List Layer} :
    (∀ k ∈ layers, k.kind ≠ .body) ↔ ∀ m, mostSpecific layers = some m → m.rank ≠ 1 := by
  have hrank : rawRank layers ≠ 1 ↔ ∀ k ∈ layers, k.kind ≠ .body := by
    rw [ne_eq, rawRank_eq_one_iff]
    simp
  rw [← hrank, rawRank]
  cases mostSpecific layers <;> simp

end Replacement

section Exchange

variable {above below : List Layer} {l m : Layer} {f fm g : Failure} {rest rest' : Failure}

/-- Where another raw layer is the most specific one, the exchange hides nothing but the
unreadable body inside a failure below. -/
theorem exchange_of_other (hfm : fm.rank = m.rank) (hmf : m.rank ≤ f.rank)
    (hm : mostSpecific (above ++ below) = some m) :
    decision (some fm) (some ((outermostFailure above).getD f)) rest'
        = decision (some fm) (outermostFailure (above ++ below)) rest
      ↔ ¬ ((∀ k ∈ above ++ below, k.kind ≠ .body) ∧ outermostFailure above = none
        ∧ ∃ g, outermostFailure below = some g ∧ g.rank = 1) := by
  rw [forall_kind_ne_body_iff, hm, outermostFailure_append]
  by_cases hbody : m.rank = 1
  · rw [decision_of_raw_body (hfm.trans hbody), decision_of_raw_body (hfm.trans hbody)]
    simp [hbody]
  · have hpos := m.rank_pos
    have hraw : ∀ h, some fm = some h → h.rank ≠ 1 := by
      rintro h ⟨⟩
      omega
    cases ha : outermostFailure above with
    | some g =>
        -- the outermost failure stays the outermost
        rw [Option.some_or, Option.getD_some]
        by_cases hg : g.rank = 1
        · rw [decision_of_outer_body hraw hg, decision_of_outer_body hraw hg]
          simp
        · have hout : ∀ h, some g = some h → h.rank ≠ 1 := by rintro h ⟨⟩; exact hg
          rw [decision_of_raw hout, decision_of_raw hout]
          simp
    | none =>
        have hf : ∀ h, some f = some h → h.rank ≠ 1 := by
          rintro h ⟨⟩
          omega
        rw [Option.none_or, Option.getD_none, decision_of_raw hf]
        by_cases hb : ∃ g, outermostFailure below = some g ∧ g.rank = 1
        · obtain ⟨g, hg, hg1⟩ := hb
          rw [hg, decision_of_outer_body hraw hg1]
          have hne : fm ≠ g := fun h => by
            rw [h, hg1] at hfm
            omega
          simp [hne, hbody, hg1]
        · have hout : ∀ h, outermostFailure below = some h → h.rank ≠ 1 :=
            fun h hh hh1 => hb ⟨h, hh, hh1⟩
          rw [decision_of_raw hout]
          simp [hb]

/-- Where the unreadable body inside a failure decides in spite of the raw layer, it must be
above the raw layer. -/
theorem exchange_of_body (hf : f.rank ≠ 1) (hg : g.rank = 1)
    (hraw : ∀ m, mostSpecific (above ++ below) = some m → m.rank ≠ 1)
    (hout : outermostFailure (above ++ below) = some g) :
    decision (rawReading (above ++ below)) (some ((outermostFailure above).getD f)) rest' = g
      ↔ ¬ ((∀ k ∈ above ++ below, k.kind ≠ .body) ∧ outermostFailure above = none
        ∧ ∃ g, outermostFailure below = some g ∧ g.rank = 1) := by
  have hrank : ∀ h, rawReading (above ++ below) = some h → h.rank ≠ 1 := by
    intro h hh
    obtain ⟨m, hm, hreading⟩ := Option.bind_eq_some_iff.mp hh
    rw [Layer.rank_of_reading hreading]
    exact hraw m hm
  rw [forall_kind_ne_body_iff, iff_true_intro hraw, true_and]
  rw [outermostFailure_append] at hout
  cases ha : outermostFailure above with
  | some h =>
      rw [ha, Option.some_or] at hout
      cases hout
      rw [Option.getD_some, decision_of_outer_body hrank hg]
      simp
  | none =>
      rw [ha, Option.none_or] at hout
      rw [Option.getD_none, hout]
      have hne : decision (rawReading (above ++ below)) (some f) rest' ≠ g := by
        intro heq
        cases hr : rawReading (above ++ below) with
        | none =>
            rw [hr, decision_of_outer] at heq
            exact hf (heq ▸ hg)
        | some fm =>
            rw [hr, decision_of_raw (by rintro h ⟨⟩; exact hf)] at heq
            exact hrank fm hr (heq ▸ hg)
      simp [hne, hg]

/-- Where the raw layer itself decides, an equal layer must decide in its stead, or no raw layer
and the failure that it became. -/
theorem exchange_of_decides (hl : l.isRaw = true) (hf : l.reading = some f)
    (habove : ∀ k ∈ above, k.isRaw = true → l.rank < k.rank)
    (hbelow : ∀ k ∈ below, k.isRaw = true → l.rank ≤ k.rank)
    (hbody : l.rank = 1 ∨ ∀ g, outermostFailure (above ++ below) = some g → g.rank ≠ 1) :
    decision (rawReading (above ++ below)) (some ((outermostFailure above).getD f)) rest' = f
      ↔ mostSpecific below = some l
        ∨ (∀ k ∈ above ++ below, k.isRaw = true → l.rank = 1 ∧ k.rank ≠ 1)
          ∧ ∀ g, outermostFailure above = some g → g = f := by
  have hfl := Layer.rank_of_reading hf
  have houter : (outermostFailure above).getD f = f
      ↔ ∀ g, outermostFailure above = some g → g = f := by
    cases outermostFailure above <;> simp
  rw [← houter, rawReading]
  cases hm : mostSpecific (above ++ below) with
  | none =>
      have hnone := mostSpecific_eq_none_iff.mp hm
      have hbelow' : mostSpecific below ≠ some l := fun h => by
        have := hnone l (List.mem_append_right above (mem_of_mostSpecific h))
        rw [hl] at this
        cases this
      have hvacuous : ∀ k ∈ above ++ below, k.isRaw = true → l.rank = 1 ∧ k.rank ≠ 1 := by
        intro k hk hraw
        rw [hnone k hk] at hraw
        cases hraw
      rw [Option.bind_none, decision_of_outer]
      constructor
      · exact fun h => .inr ⟨hvacuous, h⟩
      · rintro (h | ⟨-, h⟩)
        · exact absurd h hbelow'
        · exact h
  | some m =>
      obtain ⟨hmraw, -⟩ := exists_split_of_mostSpecific hm
      obtain ⟨fm, hfm⟩ := Option.isSome_iff_exists.mp (Layer.isSome_reading_of_isRaw hmraw)
      have hmrank := Layer.rank_of_reading hfm
      have hmmem := mem_of_mostSpecific hm
      have hleast := le_rank_of_mostSpecific hm
      rw [Option.bind_some, hfm]
      rw [mostSpecific_append] at hm
      by_cases heq : m = l
      · -- an equal layer is the most specific one, and it stands below
        subst heq
        rw [hf] at hfm
        cases hfm
        have htwin : mostSpecific below = some m := by
          rcases (moreSpecific_spec hm).1 with ha | hb
          · exact absurd (habove m (mem_of_mostSpecific ha) hl) (Nat.lt_irrefl _)
          · exact hb
        have hdecision : decision (some f) (some ((outermostFailure above).getD f)) rest' = f := by
          rcases hbody with h1 | hout
          · exact decision_of_raw_body (hfl.trans h1)
          · by_cases h1 : f.rank = 1
            · exact decision_of_raw_body h1
            · apply decision_of_raw
              rintro h ⟨⟩
              cases ha : outermostFailure above with
              | none => exact h1
              | some g =>
                  rw [outermostFailure_append, ha, Option.some_or] at hout
                  exact hout g rfl
        exact ⟨fun _ => .inl htwin, fun _ => hdecision⟩
      · have hfne : fm ≠ f := fun h => heq (Layer.reading_injective hmraw hl (h ▸ hfm) hf)
        have hbelow' : mostSpecific below ≠ some l := by
          intro hb
          have ha : ∀ a, mostSpecific above = some a → l.rank < a.rank :=
            forall_raw_le_iff.mp habove
          rw [hb] at hm
          cases hx : mostSpecific above with
          | none =>
              rw [hx] at hm
              exact heq (Option.some.inj hm).symm
          | some a =>
              rw [hx, moreSpecific, if_pos (ha a hx)] at hm
              exact heq (Option.some.inj hm).symm
        by_cases hm1 : m.rank = 1
        · -- the raw unreadable body decides, and it is another
          rw [decision_of_raw_body (hmrank.trans hm1)]
          constructor
          · exact fun h => absurd h hfne
          · rintro (h | ⟨h, -⟩)
            · exact absurd h hbelow'
            · exact absurd hm1 (h m hmmem hmraw).2
        · have hraw : ∀ h, some fm = some h → h.rank ≠ 1 := by
            rintro h ⟨⟩
            rwa [hmrank]
          by_cases hl1 : l.rank = 1
          · by_cases hh : ((outermostFailure above).getD f).rank = 1
            · -- the outermost failure decides
              rw [decision_of_outer_body hraw hh]
              constructor
              · refine fun h => .inr ⟨fun k hk hkraw => ⟨hl1, ?_⟩, h⟩
                have := hleast k hk hkraw
                have := m.rank_pos
                omega
              · rintro (h | ⟨-, h⟩)
                · exact absurd h hbelow'
                · exact h
            · rw [decision_of_raw (by rintro h ⟨⟩; exact hh)]
              constructor
              · exact fun h => absurd h hfne
              · rintro (h | ⟨-, h⟩)
                · exact absurd h hbelow'
                · rw [h, hfl] at hh
                  exact absurd hl1 hh
          · have hh : ((outermostFailure above).getD f).rank ≠ 1 := by
              have hout := hbody.resolve_left hl1
              rw [outermostFailure_append] at hout
              cases ha : outermostFailure above with
              | none => rwa [Option.getD_none, hfl]
              | some g =>
                  rw [ha, Option.some_or] at hout
                  exact hout g rfl
            rw [decision_of_raw (by rintro h ⟨⟩; exact hh)]
            constructor
            · exact fun h => absurd h hfne
            · rintro (h | ⟨h, -⟩)
              · exact absurd h hbelow'
              · exact absurd (h m hmmem hmraw).1 hl1

/-- **Raising a raw layer as a failure keeps the classification exactly if another layer speaks
for it.** -/
theorem classify_exchange_iff {e e' : Raised} (hl : l.isRaw = true) (hf : l.reading = some f)
    (he : e.layers = above ++ l :: below) (he' : e'.layers = above ++ .failure f :: below) :
    classify e' = classify e ↔ SpokenFor above l f below := by
  obtain ⟨rest, -, hclassify⟩ := classify_eq_decision e
  obtain ⟨rest', -, hclassify'⟩ := classify_eq_decision e'
  have hfl := Layer.rank_of_reading hf
  have hraw' : rawReading e'.layers = rawReading (above ++ below) := by
    rw [he', rawReading, rawReading, mostSpecific_insert_failure]
  have houter : outermostFailure e.layers = outermostFailure (above ++ below) := by
    rw [he, outermostFailure_insert hl]
  have houter' : outermostFailure e'.layers = some ((outermostFailure above).getD f) := by
    rw [he', outermostFailure_insert_failure]
  rw [hclassify, hclassify', hraw', houter, houter']
  unfold SpokenFor
  by_cases hfirst : (∀ k ∈ above, k.isRaw = true → l.rank < k.rank)
      ∧ (∀ k ∈ below, k.isRaw = true → l.rank ≤ k.rank)
  · have hmost : mostSpecific e.layers = some l :=
      he ▸ mostSpecific_insert_of_decides hl hfirst.1 hfirst.2
    have hreading : rawReading e.layers = some f := by
      rw [rawReading, hmost, Option.bind_some, hf]
    by_cases hbody : l.rank = 1 ∨ ∀ g, outermostFailure (above ++ below) = some g → g.rank ≠ 1
    · -- the raw layer decides
      have hdecides : Decides above l below := ⟨hfirst.1, hfirst.2, hbody⟩
      have hdecision : decision (some f) (outermostFailure (above ++ below)) rest = f := by
        rcases hbody with h1 | hout
        · exact decision_of_raw_body (hfl.trans h1)
        · exact decision_of_raw hout
      rw [hreading, hdecision, exchange_of_decides hl hf hfirst.1 hfirst.2 hbody]
      simp only [hdecides, not_true_eq_false, forall_true_left, false_implies, and_true]
    · -- an unreadable body inside the outermost failure decides
      have hdecides : ¬ Decides above l below := fun h => hbody h.2.2
      rw [not_or] at hbody
      obtain ⟨hl1, hout⟩ := hbody
      obtain ⟨g, hg, hg1⟩ : ∃ g, outermostFailure (above ++ below) = some g ∧ g.rank = 1 := by
        by_contra hnone
        exact hout fun g hg hg1 => hnone ⟨g, hg, hg1⟩
      have hrank : ∀ m, mostSpecific (above ++ below) = some m → m.rank ≠ 1 := by
        intro m hm hm1
        have hmraw := (exists_split_of_mostSpecific hm).1
        have hpos := l.rank_pos
        rcases List.mem_append.mp (mem_of_mostSpecific hm) with h | h
        · have := hfirst.1 m h hmraw
          omega
        · have := hfirst.2 m h hmraw
          omega
      have hdecision : decision (some f) (some g) rest = g :=
        decision_of_outer_body (by rintro h ⟨⟩; rwa [hfl]) hg1
      rw [hreading, hg, hdecision, exchange_of_body (by rwa [hfl]) hg1 hrank hg]
      simp only [hdecides, not_false_eq_true, forall_true_left, false_implies, true_and]
  · -- another raw layer is the most specific one
    have hdecides : ¬ Decides above l below := fun h => hfirst ⟨h.1, h.2.1⟩
    obtain ⟨hsame, m, hm, hmle⟩ := mostSpecific_insert_of_not_decides hl hfirst
    have hmraw := (exists_split_of_mostSpecific hm).1
    obtain ⟨fm, hfm⟩ := Option.isSome_iff_exists.mp (Layer.isSome_reading_of_isRaw hmraw)
    have hreading : rawReading (above ++ below) = some fm := by
      rw [rawReading, hm, Option.bind_some, hfm]
    have hreading' : rawReading e.layers = some fm := by
      rw [rawReading, he, hsame, hm, Option.bind_some, hfm]
    rw [hreading, hreading', exchange_of_other (Layer.rank_of_reading hfm) (hfl ▸ hmle) hm]
    simp only [hdecides, not_false_eq_true, forall_true_left, false_implies, true_and]

end Exchange

/-! ## §8. The rule of thumb and its limits. -/

/-- **Exactly when the more specific layer wins.**  The classification is of the least rank among
the visible layers unless a failure goes unheard.  A context makes an error no less specific
unless it muffles the error.  And a raw layer may be raised as a failure, with all other layers
as they are, if another layer speaks for it, and only then. -/
theorem specificity_law (e : Raised) :
    ((e.layers.map Layer.rank).min? = some (classify e).rank ↔ NothingMuffled e.layers)
    ∧ (∀ c : Raised, (classify (.within e [c])).rank ≤ (classify e).rank
        ↔ ¬ Muffles c.asLayer e.layers)
    ∧ (∀ (e' : Raised) (above below : List Layer) (l : Layer) (f : Failure),
        l.isRaw = true → l.reading = some f → e.layers = above ++ l :: below →
        e'.layers = above ++ .failure f :: below →
        (classify e' = classify e ↔ SpokenFor above l f below)) := by
  refine ⟨?_, rank_classify_within_le_iff e, fun e' above below l f hl hf he he' =>
    classify_exchange_iff hl hf he he'⟩
  rw [← rank_classify_le_iff, List.min?_eq_some_iff]
  obtain ⟨l, hl, hrank⟩ := exists_rank_eq_rank_classify e
  have hmem : (classify e).rank ∈ e.layers.map Layer.rank := List.mem_map.mpr ⟨l, hl, hrank⟩
  simp [hmem]

/-- The law at an expired token that was raised as it is, and as a failure: nothing else speaks
for it, but nothing needs to. -/
theorem specificity_law_expired_token :
    let token : ClientError := ⟨10005, "token expired"⟩
    let raw : Raised := .within (.bare (.client token)) [.bare (.other "query failed")]
    let raised : Raised :=
      .within (.bare (.failure (.client token))) [.bare (.other "query failed")]
    (raw.layers.map Layer.rank).min? = some 3 ∧ (classify raised = classify raw) := by
  intro token raw raised
  obtain ⟨hleast, -, hexchange⟩ := specificity_law raw
  have hraw : raw.layers = [.other "query failed", .client token] := by rfl
  have hraised : raised.layers = [.other "query failed", .failure (.client token)] := by rfl
  constructor
  · rw [hleast.mpr]
    · rfl
    · intro f hf
      simp [hraw] at hf
  · refine (hexchange raised [.other "query failed"] [] (.client token) (.client token) rfl rfl
      hraw hraised).mpr ?_
    refine ⟨fun _ => .inr ⟨?_, ?_⟩, fun _ h => ?_⟩
    · simp [Layer.isRaw]
    · simp [outermostFailure, Layer.failure?]
    · simp [outermostFailure] at h

/-- **A failure on top is listened to instead of a more specific one underneath**: an expired
token becomes a missing table, for which nothing more specific than a failure without a category
of its own is reported. -/
theorem expired_token_muffled :
    let buried : Raised := .within (.bare (.failure (.client ⟨10005, "token expired"⟩)))
      [.bare (.failure (.notFound "no such table"))]
    classify buried = .notFound "no such table"
      ∧ (buried.layers.map Layer.rank).min? = some 3 ∧ (classify buried).rank = 5 := by
  decide

end ErrorContract
