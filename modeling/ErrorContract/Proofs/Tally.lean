/-
  ErrorContract.Proofs.Tally
  ──────────────────────────
  **THE COUNTER COUNTS EVERY INCREMENT ONCE, IN WHATEVER ORDER.**

  Sums tally increments if every increment that occurs has one entry, with
  the number of times it occurs.  Adding an increment keeps that so, sorting
  does too, and there is only one way to sort: no two increments have
  attributes with the same text.  Hence the sums are a matter of how often
  each increment occurs.
-/
import Mathlib.Algebra.GroupWithZero.Nat
import Mathlib.Data.List.Nodup
import ErrorContract.Proofs.Written
import ErrorContract.Telemetry.Counter

namespace ErrorContract

/-! ## §1. An increment is known by its attributes. -/

theorem Decimal.digits_injective {m n : Nat} (h : digits m = digits n) : m = n := by
  rw [← value_digits m, h, value_digits]

namespace Telemetry

open Json

/-- **Attributes with the same text are those of the same increment.** -/
theorem attributes_render_injective {i j : Increment}
    (h : i.attributes.render = j.attributes.render) : i = j := by
  obtain ⟨status, category⟩ := i
  obtain ⟨status', category'⟩ := j
  have hchars : ∀ (s : Status) (k : String), (Increment.attributes ⟨s, k⟩).chars
      = '{' :: (quote categoryAttribute ++ (':' :: (quote k ++ (',' :: (quote statusAttribute
          ++ (':' :: (Decimal.digits s ++ ['}']))))))) := by
    intro s k
    show '{' :: ((quote categoryAttribute ++ ':' :: (quote k ++ ',' :: (quote statusAttribute
      ++ ':' :: Decimal.digits s))) ++ ['}']) = _
    simp
  have htext := String.ofList_inj.mp h
  rw [hchars, hchars] at htext
  -- Both texts are taken apart from the left, one quoted string after the other.
  obtain ⟨-, hcategory⟩ := quote_append_inj (List.cons.inj htext).2
  obtain ⟨rfl, hstatus⟩ := quote_append_inj (List.cons.inj hcategory).2
  obtain ⟨-, hdigits⟩ := quote_append_inj (List.cons.inj hstatus).2
  have hsame := List.append_cancel_right (List.cons.inj hdigits).2
  rw [Decimal.digits_injective hsame]

/-! ## §2. Tallies. -/

/-- **The sums tally the increments**: there is one entry for each increment that occurs, and it
says how often. -/
structure Tallies (increments : List Increment) (sums : Sums) : Prop where
  nodup : (sums.map Prod.fst).Nodup
  lookup : ∀ i, sums.lookup i
    = if increments.count i = 0 then none else some (increments.count i)

section Adding

variable {i j : Increment} {sums : Sums}

theorem lookup_add : (Sums.add i sums).lookup j
    = if j = i then some (sums.count i + 1) else sums.lookup j := by
  induction sums with
  | nil =>
      rw [Sums.add, List.lookup_cons]
      by_cases h : j = i
      · simp [h, Sums.count]
      · have hbeq : (j == i) = false := beq_false_of_ne h
        simp [h, hbeq]
  | cons entry rest ih =>
      obtain ⟨k, n⟩ := entry
      rw [Sums.add]
      by_cases hik : i = k
      · rw [if_pos hik, List.lookup_cons, List.lookup_cons]
        subst hik
        by_cases h : j = i
        · simp [h, Sums.count]
        · have hbeq : (j == i) = false := beq_false_of_ne h
          simp [h, hbeq]
      · rw [if_neg hik, List.lookup_cons, List.lookup_cons, ih]
        by_cases h : j = k
        · -- the entry stays as it is
          subst h
          simp [Ne.symm hik]
        · have hbeq : (j == k) = false := beq_false_of_ne h
          have hik' : (i == k) = false := beq_false_of_ne hik
          simp [hbeq, Sums.count, List.lookup_cons, hik']

/-- Adding brings at most one new entry. -/
theorem map_fst_add : (Sums.add i sums).map Prod.fst
    = if i ∈ sums.map Prod.fst then sums.map Prod.fst else sums.map Prod.fst ++ [i] := by
  induction sums with
  | nil => simp [Sums.add]
  | cons entry rest ih =>
      obtain ⟨k, n⟩ := entry
      rw [Sums.add]
      by_cases hik : i = k
      · simp [hik]
      · rw [if_neg hik, List.map_cons, ih]
        by_cases hmem : i ∈ rest.map Prod.fst
        · have hkept : i ∈ ((k, n) :: rest).map Prod.fst := List.mem_cons_of_mem k hmem
          rw [if_pos hmem, if_pos hkept, List.map_cons]
        · have hnot : i ∉ ((k, n) :: rest).map Prod.fst := by
            rw [List.map_cons, List.mem_cons]
            rintro (h | h)
            · exact hik h
            · exact hmem h
          rw [if_neg hmem, if_neg hnot, List.map_cons, List.cons_append]

/-- Adding an increment adds one to the total. -/
theorem total_add : ((Sums.add i sums).map Prod.snd).sum = (sums.map Prod.snd).sum + 1 := by
  induction sums with
  | nil => rfl
  | cons entry rest ih =>
      obtain ⟨k, n⟩ := entry
      rw [Sums.add]
      by_cases hik : i = k
      · rw [if_pos hik, List.map_cons, List.map_cons, List.sum_cons, List.sum_cons]
        omega
      · rw [if_neg hik, List.map_cons, List.map_cons, List.sum_cons, List.sum_cons, ih]
        omega

end Adding

namespace Tallies

variable {increments increments' : List Increment} {sums sums' : Sums}

theorem nil : Tallies [] [] := ⟨List.nodup_nil, fun _ => rfl⟩

theorem count_eq (h : Tallies increments sums) (i : Increment) :
    sums.count i = increments.count i := by
  rw [Sums.count, h.lookup]
  by_cases hzero : increments.count i = 0
  · rw [if_pos hzero, hzero]
    rfl
  · rw [if_neg hzero]
    rfl

/-- **Adding an increment tallies one more.** -/
theorem add (h : Tallies increments sums) (i : Increment) :
    Tallies (increments ++ [i]) (Sums.add i sums) where
  nodup := by
    rw [map_fst_add]
    by_cases hmem : i ∈ sums.map Prod.fst
    · rw [if_pos hmem]
      exact h.nodup
    · rw [if_neg hmem, List.nodup_append]
      refine ⟨h.nodup, List.nodup_singleton i, ?_⟩
      rintro a ha b hb rfl
      exact hmem (List.mem_singleton.mp hb ▸ ha)
  lookup j := by
    rw [lookup_add, List.count_append, h.count_eq, h.lookup]
    by_cases hji : j = i
    · subst hji
      simp
    · have hnone : List.count j [i] = 0 := List.count_eq_zero.mpr (by simp [hji])
      rw [if_neg hji, hnone, Nat.add_zero]

/-- An entry of a tally is what is found under its increment. -/
theorem mem_iff (h : (sums.map Prod.fst).Nodup) {i : Increment} {n : Nat} :
    (i, n) ∈ sums ↔ sums.lookup i = some n := by
  induction sums with
  | nil => simp
  | cons entry rest ih =>
      obtain ⟨k, m⟩ := entry
      obtain ⟨hnew, hrest⟩ := List.nodup_cons.mp h
      rw [List.mem_cons, List.lookup_cons]
      by_cases hik : i = k
      · subst hik
        have hnot : (i, n) ∉ rest := by
          intro hmem
          have := List.mem_map_of_mem (f := Prod.fst) hmem
          exact hnew this
        simp [hnot, eq_comm]
      · have hbeq : (i == k) = false := beq_false_of_ne hik
        simp [hik, hbeq, ih hrest]

/-- A tally in another order is a tally. -/
theorem of_perm (h : Tallies increments sums) (hperm : sums.Perm sums') :
    Tallies increments sums' where
  nodup := (hperm.map Prod.fst).nodup_iff.mp h.nodup
  lookup i := by
    rw [← h.lookup]
    refine Option.ext fun n => ?_
    rw [← mem_iff h.nodup, ← mem_iff ((hperm.map Prod.fst).nodup_iff.mp h.nodup)]
    exact hperm.symm.mem_iff

/-- **Tallies of the same increments have the same entries.** -/
theorem perm (h : Tallies increments sums) (h' : Tallies increments' sums')
    (hsame : increments.Perm increments') : sums.Perm sums' := by
  rw [List.perm_ext_iff_of_nodup (List.Nodup.of_map Prod.fst h.nodup)
    (List.Nodup.of_map Prod.fst h'.nodup)]
  rintro ⟨i, n⟩
  rw [mem_iff h.nodup, mem_iff h'.nodup, h.lookup, h'.lookup, hsame.count_eq]

end Tallies

/-! ## §3. The exported sums. -/

/-- Increments are added one after the other. -/
theorem tallies_foldl {before increments : List Increment} {start : Sums}
    (h : Tallies before start) :
    Tallies (before ++ increments) (increments.foldl (fun sums i => Sums.add i sums) start) := by
  induction increments generalizing before start with
  | nil =>
      rw [List.append_nil]
      exact h
  | cons i increments ih =>
      have hrest := ih (h.add i)
      rwa [List.append_assoc] at hrest

theorem total_foldl (increments : List Increment) (start : Sums) :
    ((increments.foldl (fun sums i => Sums.add i sums) start).map Prod.snd).sum
      = (start.map Prod.snd).sum + increments.length := by
  induction increments generalizing start with
  | nil => rfl
  | cons i increments ih =>
      rw [List.foldl_cons, ih, total_add, List.length_cons]
      omega

/-- **The exported sums tally the increments.** -/
theorem tallies_sums (increments : List Increment) : Tallies increments (sums increments) :=
  (tallies_foldl Tallies.nil).of_perm (List.mergeSort_perm _ _).symm

/-- They are sorted. -/
theorem pairwise_sums (increments : List Increment) :
    (sums increments).Pairwise fun a b => standsBefore a b = true := by
  refine List.pairwise_mergeSort ?_ ?_ _
  · intro a b c hab hbc
    simp only [standsBefore, decide_eq_true_eq] at *
    exact String.le_trans hab hbc
  · intro a b
    simp only [standsBefore, Bool.or_eq_true, decide_eq_true_eq]
    exact String.le_total _ _

/-- **All exported sums add up to the number of increments.** -/
theorem total_sums (increments : List Increment) :
    ((sums increments).map Prod.snd).sum = increments.length := by
  have hperm := (List.mergeSort_perm
    (increments.foldl (fun sums i => Sums.add i sums) []) standsBefore).map Prod.snd
  rw [sums, hperm.sum_nat, total_foldl, List.map_nil, List.sum_nil, Nat.zero_add]

/-- **The order of the increments does not matter.** -/
theorem sums_eq_of_perm {increments increments' : List Increment}
    (h : increments.Perm increments') : sums increments = sums increments' := by
  have htallies := tallies_sums increments
  refine List.Perm.eq_of_pairwise ?_ (pairwise_sums increments) (pairwise_sums increments')
    (htallies.perm (tallies_sums increments') h)
  rintro ⟨i, n⟩ ⟨j, m⟩ hi hj hbefore hbehind
  simp only [standsBefore, decide_eq_true_eq] at hbefore hbehind
  -- Neither stands before the other, so the attributes and with them the entries are the same.
  obtain rfl := attributes_render_injective (String.le_antisymm hbefore hbehind)
  have hj' := (htallies.perm (tallies_sums increments') h).mem_iff.mpr hj
  rw [Tallies.mem_iff htallies.nodup] at hi hj'
  rw [Option.some.inj (hi.symm.trans hj')]

end Telemetry

end ErrorContract
