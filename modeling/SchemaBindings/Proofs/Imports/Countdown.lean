import Mathlib.Algebra.BigOperators.Group.Finset.Basic
import Mathlib.Algebra.GroupWithZero.Nat
import Mathlib.Data.Fintype.Card
import Mathlib.Data.Fintype.EquivFin
import Mathlib.Data.String.Basic
import Mathlib.Order.WellFounded
import SchemaBindings.Proofs.Imports.Search
import SchemaBindings.Proofs.Lookup

/-!
Modules are put into an order by counting the waiting importers of each. The numbers stay exact, so
a module that waits for ever has an importer that does, and somewhere among these there is a cycle.
-/

namespace SchemaBindings

namespace ModuleId

theorem not_before_self (m : ModuleId) : m.before m = false := by
  simp [before]

theorem before_trans {a b c : ModuleId} (hab : a.before b) (hbc : b.before c) : a.before c := by
  simp only [before, decide_eq_true_eq] at *
  exact List.lt_trans hab hbc

theorem before_of_not {a b : ModuleId} (hne : a ≠ b) (h : ¬ a.before b) : b.before a := by
  simp only [before, decide_eq_true_eq, List.not_lt] at *
  by_contra hba
  refine hne ?_
  cases a
  cases b
  exact congrArg ModuleId.mk (List.le_antisymm (List.not_lt.mp hba) h)

end ModuleId

namespace Imports.Countdown

open Relation

variable {g : Graph} {leftOut : List Edge} {m x : ModuleId} {waiting : List (ModuleId × Nat)}

/-! ## The table of numbers -/

def Sorted (waiting : List (ModuleId × Nat)) : Prop :=
  (waiting.map (·.1)).Pairwise fun a b => a.before b

/-- The number of a module, zero for one that is not in the table. -/
def number (waiting : List (ModuleId × Nat)) (m : ModuleId) : Nat :=
  (waiting.lookup m).getD 0

theorem number_cons (n : ModuleId) (k : Nat) (x : ModuleId) :
    number ((n, k) :: waiting) x = if x = n then k else number waiting x := by
  grind [number]

theorem Sorted.nodup (h : Sorted waiting) : (waiting.map (·.1)).Nodup :=
  h.imp fun hab he => by simp [he, ModuleId.not_before_self] at hab

theorem number_of_mem (h : (waiting.map (·.1)).Nodup) {k : Nat} (hm : (m, k) ∈ waiting) :
    number waiting m = k := by
  induction waiting with
  | nil => cases hm
  | cons entry rest ih =>
    obtain ⟨hnew, hrest⟩ := List.nodup_cons.mp h
    rcases List.mem_cons.mp hm with rfl | hm
    · simp [number]
    · have hne : m ≠ entry.1 := by
        rintro rfl
        exact hnew (List.mem_map.mpr ⟨_, hm, rfl⟩)
      rw [number_cons, if_neg hne, ih hrest hm]

theorem mem_of_number_pos (h : 0 < number waiting m) : m ∈ waiting.map (·.1) := by
  by_contra hm
  have hnone : waiting.lookup m = none := by
    rw [List.lookup_eq_none_iff]
    exact fun p hp => bne_iff_ne.mpr fun he => hm (he ▸ List.mem_map_of_mem hp)
  simp [number, hnone] at h

private theorem number_eq_zero_of_before
    (hm : ∀ n ∈ waiting.map (·.1), m.before n) : number waiting m = 0 := by
  by_contra hpos
  have := hm m (mem_of_number_pos (Nat.pos_of_ne_zero hpos))
  simp [ModuleId.not_before_self] at this

theorem mem_keys_count : x ∈ (count waiting m).map (·.1) ↔ x = m ∨ x ∈ waiting.map (·.1) := by
  induction waiting with
  | nil => simp [count]
  | cons entry rest ih => grind [count]

theorem mem_keys_add : x ∈ (add waiting m).map (·.1) ↔ x = m ∨ x ∈ waiting.map (·.1) := by
  induction waiting with
  | nil => simp [add]
  | cons entry rest ih => grind [add]

private theorem Sorted.before_all {n : ModuleId} {k : Nat} (h : Sorted ((n, k) :: waiting))
    (hm : m.before n) : ∀ x ∈ ((n, k) :: waiting).map (·.1), m.before x := by
  intro x hx
  rcases List.mem_cons.mp hx with rfl | hx
  · exact hm
  · exact ModuleId.before_trans hm ((List.pairwise_cons.mp h).1 x hx)

theorem Sorted.count (h : Sorted waiting) (m : ModuleId) : Sorted (count waiting m) := by
  induction waiting with
  | nil => simp [Sorted, Countdown.count]
  | cons entry rest ih =>
    obtain ⟨n, k⟩ := entry
    obtain ⟨hn, hrest⟩ := List.pairwise_cons.mp h
    rw [Countdown.count]
    split
    · exact h
    · next hne =>
      split
      · next hb => exact List.pairwise_cons.mpr ⟨h.before_all hb, h⟩
      · next hb =>
        refine List.pairwise_cons.mpr ⟨?_, ih hrest⟩
        intro x hx
        rcases mem_keys_count.mp hx with rfl | hx
        · exact ModuleId.before_of_not (by simpa using hne) hb
        · exact hn x hx

theorem Sorted.add (h : Sorted waiting) (m : ModuleId) : Sorted (add waiting m) := by
  induction waiting with
  | nil => simp [Sorted, Countdown.add]
  | cons entry rest ih =>
    obtain ⟨n, k⟩ := entry
    obtain ⟨hn, hrest⟩ := List.pairwise_cons.mp h
    rw [Countdown.add]
    split
    · exact h
    · next hne =>
      split
      · next hb => exact List.pairwise_cons.mpr ⟨h.before_all hb, h⟩
      · next hb =>
        refine List.pairwise_cons.mpr ⟨?_, ih hrest⟩
        intro x hx
        rcases mem_keys_add.mp hx with rfl | hx
        · exact ModuleId.before_of_not (by simpa using hne) hb
        · exact hn x hx

/-- Counting adds one to the number of one module. -/
theorem number_count (h : Sorted waiting) (m x : ModuleId) :
    number (count waiting m) x = number waiting x + if x = m then 1 else 0 := by
  induction waiting with
  | nil => rw [count, number_cons]; simp [number]
  | cons entry rest ih =>
    obtain ⟨n, k⟩ := entry
    obtain ⟨-, hrest⟩ := List.pairwise_cons.mp h
    rw [count]
    split
    · next he => grind [number_cons]
    · next hne =>
      split
      · next hb =>
        have hzero := number_eq_zero_of_before (h.before_all hb)
        rw [number_cons]
        split
        · next he => rw [he, hzero]
        · rfl
      · next hb =>
        rw [number_cons, number_cons, ih hrest]
        grind

theorem number_add (h : Sorted waiting) (m x : ModuleId) :
    number (add waiting m) x = number waiting x := by
  induction waiting with
  | nil => rw [add, number_cons]; simp [number]
  | cons entry rest ih =>
    obtain ⟨n, k⟩ := entry
    obtain ⟨-, hrest⟩ := List.pairwise_cons.mp h
    rw [add]
    split
    · rfl
    · split
      · next hb =>
        have hzero := number_eq_zero_of_before (h.before_all hb)
        rw [number_cons]
        split
        · next he => rw [he, hzero]
        · rfl
      · rw [number_cons, number_cons, ih hrest]

/-- What counting several modules after each other comes to. -/
theorem count_all (h : Sorted waiting) (ms : List ModuleId) :
    Sorted (ms.foldl count waiting) ∧
      (∀ x, number (ms.foldl count waiting) x = number waiting x + ms.count x) ∧
      waiting.map (·.1) ⊆ (ms.foldl count waiting).map (·.1) := by
  induction ms generalizing waiting with
  | nil => exact ⟨h, by simp, List.Subset.refl _⟩
  | cons m rest ih =>
    obtain ⟨hs, hn, hk⟩ := ih (h.count m)
    refine ⟨hs, ?_, ?_⟩
    · intro x
      rw [List.foldl_cons, hn, number_count h, List.count_cons]
      grind
    · exact fun x hx => hk (mem_keys_count.mpr (.inr hx))

/-! ## Importers -/

/-- How often a module is imported by the given ones. -/
def importers (g : Graph) (leftOut : List Edge) (ms : Finset ModuleId) (m : ModuleId) : Nat :=
  ∑ n ∈ ms, (keptTargets g leftOut n).count m

theorem mem_keptTargets : x ∈ keptTargets g leftOut m ↔ g.Kept leftOut m x := by
  simp [keptTargets, Graph.Kept]

theorem keptTargets_eq_nil (h : m ∉ g.map (·.1)) : keptTargets g leftOut m = [] := by
  rw [List.eq_nil_iff_forall_not_mem]
  exact fun x hx => h (Graph.mem_keys_of_mem_targets (mem_keptTargets.mp hx).1)

/-- The modules that wait. -/
def modules (c : Countdown) : Finset ModuleId :=
  (c.waiting.map (·.1)).toFinset

/-- The numbers are exact, up to importers that are done but not released yet; the ready modules
are those that wait for nothing. -/
structure Balanced (g : Graph) (leftOut : List Edge) (unreleased : List ModuleId)
    (c : Countdown) : Prop where
  nodup : (c.waiting.map (·.1)).Nodup
  counts : ∀ m k, (m, k) ∈ c.waiting → k = importers g leftOut c.modules m + unreleased.count m
  ready : ∀ m, m ∈ c.ready ↔ (m, 0) ∈ c.waiting
  readyNodup : c.ready.Nodup

/-- The table before the first step: it is sorted, every module of the graph is in it, and every
edge is counted once. -/
theorem start_waiting (g : Graph) (leftOut : List Edge) :
    Sorted (start g leftOut).waiting ∧ g.map (·.1) ⊆ (start g leftOut).waiting.map (·.1) ∧
      ∀ x, number (start g leftOut).waiting x =
        (g.map fun e => (keptTargets g leftOut e.1).count x).sum := by
  have build (entries : List (ModuleId × List ModuleId)) (waiting : List (ModuleId × Nat))
      (h : Sorted waiting) :
      let w := entries.foldl (fun waiting entry =>
        (keptTargets g leftOut entry.1).foldl count (add waiting entry.1)) waiting
      Sorted w ∧ waiting.map (·.1) ⊆ w.map (·.1) ∧ entries.map (·.1) ⊆ w.map (·.1) ∧
        ∀ x, number w x = number waiting x +
          (entries.map fun e => (keptTargets g leftOut e.1).count x).sum := by
    induction entries generalizing waiting with
    | nil => exact ⟨h, List.Subset.refl _, by simp, by simp⟩
    | cons entry rest ih =>
      obtain ⟨m, targets⟩ := entry
      obtain ⟨hs, hn, hk⟩ := count_all (h.add m) (keptTargets g leftOut m)
      obtain ⟨hs', hk', he', hn'⟩ := ih _ hs
      refine ⟨hs', fun x hx => hk' (hk (mem_keys_add.mpr (.inr hx))), ?_, ?_⟩
      · intro x hx
        rcases List.mem_cons.mp hx with rfl | hx
        · exact hk' (hk (mem_keys_add.mpr (.inl rfl)))
        · exact he' hx
      · intro x
        rw [List.foldl_cons, hn', hn, number_add h, List.map_cons, List.sum_cons, Nat.add_assoc]
  obtain ⟨hs, -, hk, hn⟩ := build g [] List.Pairwise.nil
  exact ⟨hs, hk, fun x => (hn x).trans (Nat.zero_add _)⟩

/-- Before the first step the numbers are exact. -/
theorem start_balanced (leftOut : List Edge) (hkeys : (g.map (·.1)).Nodup) :
    Balanced g leftOut [] (start g leftOut) := by
  obtain ⟨hs, hk, hn⟩ := start_waiting g leftOut
  refine ⟨hs.nodup, ?_, ?_, ?_⟩
  · intro m k hm
    rw [List.count_nil, Nat.add_zero, ← number_of_mem hs.nodup hm, hn]
    have hsub : (g.map (·.1)).toFinset ⊆ (start g leftOut).modules := by
      intro x hx
      exact List.mem_toFinset.mpr (hk (List.mem_toFinset.mp hx))
    rw [importers, ← Finset.sum_subset hsub, List.sum_toFinset _ hkeys, List.map_map]
    · simp [Function.comp_def]
    · intro x _ hx
      rw [keptTargets_eq_nil (by simpa using hx), List.count_nil]
  · intro m
    simp [start]
  · exact hs.nodup.sublist ((List.filter_sublist).map _)

/-- One importer less for a module. -/
def lower (m : ModuleId) (waiting : List (ModuleId × Nat)) : List (ModuleId × Nat) :=
  waiting.map fun e => if e.1 == m then (e.1, e.2 - 1) else e

theorem keys_lower (waiting : List (ModuleId × Nat)) :
    (lower m waiting).map (·.1) = waiting.map (·.1) := by
  rw [lower, List.map_map]
  refine List.map_congr_left fun e _ => ?_
  by_cases he : e.1 = m <;> simp [he]

theorem mem_lower {waiting : List (ModuleId × Nat)} {j : Nat} : (x, j) ∈ lower m waiting ↔
    ∃ i, (x, i) ∈ waiting ∧ j = if x = m then i - 1 else i := by
  rw [lower, List.mem_map]
  constructor
  · rintro ⟨⟨n, i⟩, he, hej⟩
    by_cases hn : n = m
    · obtain ⟨rfl, rfl⟩ : n = x ∧ i - 1 = j := by simpa [hn] using hej
      exact ⟨i, he, (if_pos hn).symm⟩
    · obtain ⟨rfl, rfl⟩ : n = x ∧ i = j := by simpa [hn] using hej
      exact ⟨i, he, (if_neg hn).symm⟩
  · rintro ⟨i, he, rfl⟩
    refine ⟨(x, i), he, ?_⟩
    by_cases hx : x = m <;> simp [hx]

/-- A module that waits is released by one importer: its number goes down, and it is ready once
none is left. -/
theorem Balanced.lower {unreleased : List ModuleId} {c : Countdown} {k : Nat}
    (h : Balanced g leftOut (m :: unreleased) c) (hm : (m, k) ∈ c.waiting) :
    Balanced g leftOut unreleased
      ⟨Countdown.lower m c.waiting, if k - 1 = 0 then m :: c.ready else c.ready⟩ := by
  have hpos : k = importers g leftOut c.modules m + unreleased.count m + 1 := by
    rw [h.counts m k hm, List.count_cons_self, Nat.add_assoc]
  have hsame {i : Nat} (hi : (m, i) ∈ c.waiting) : i = k := by
    rw [← number_of_mem h.nodup hi, number_of_mem h.nodup hm]
  have hnot : m ∉ c.ready := by
    intro hready
    have hzero := hsame ((h.ready m).mp hready)
    omega
  refine ⟨?_, ?_, ?_, ?_⟩
  · rw [keys_lower]
    exact h.nodup
  · intro x j hx
    obtain ⟨i, hi, hj⟩ := mem_lower.mp hx
    have hcount := h.counts x i hi
    rw [modules] at hcount ⊢
    rw [keys_lower, hj]
    by_cases hxm : x = m
    · rw [if_pos hxm, hcount, hxm, List.count_cons_self]
      omega
    · rw [if_neg hxm, hcount, List.count_cons_of_ne (Ne.symm hxm)]
  · intro x
    rw [mem_lower]
    by_cases hxm : x = m
    · subst hxm
      grind
    · have hready := h.ready x
      grind
  · split
    · exact List.nodup_cons.mpr ⟨hnot, h.readyNodup⟩
    · exact h.readyNodup

/-- Releasing a module takes one importer off its number. -/
theorem Balanced.release {unreleased : List ModuleId} {c : Countdown}
    (h : Balanced g leftOut (m :: unreleased) c) :
    Balanced g leftOut unreleased (c.release m) := by
  unfold Countdown.release
  split
  · next hnone =>
    refine ⟨h.nodup, ?_, h.ready, h.readyNodup⟩
    intro x k hx
    have hne : x ≠ m := by
      rintro rfl
      have hself := List.lookup_eq_none_iff.mp hnone _ hx
      simp at hself
    rw [h.counts x k hx, List.count_cons_of_ne hne.symm]
  · next k hk => exact h.lower (mem_of_lookup hk)

theorem Balanced.releaseAll {unreleased : List ModuleId} {c : Countdown}
    (h : Balanced g leftOut unreleased c) :
    Balanced g leftOut [] (unreleased.foldl Countdown.release c) := by
  induction unreleased generalizing c with
  | nil => exact h
  | cons m rest ih => exact ih h.release

/-- Taking a ready module away leaves its edges to be released. -/
theorem Balanced.take {c : Countdown} {ready : List ModuleId} (h : Balanced g leftOut [] c)
    (hready : c.ready = m :: ready) :
    Balanced g leftOut (keptTargets g leftOut m)
      { waiting := c.waiting.filter (·.1 != m), ready } := by
  have hnodup := h.readyNodup
  rw [hready] at hnodup
  obtain ⟨hnew, hrest⟩ := List.nodup_cons.mp hnodup
  have hm : m ∈ c.modules :=
    List.mem_toFinset.mpr (List.mem_map_of_mem ((h.ready m).mp (by simp [hready])))
  have hmodules : modules { waiting := c.waiting.filter (·.1 != m), ready } =
      c.modules.erase m := by
    ext x
    simp only [modules, List.mem_toFinset, List.mem_map, List.mem_filter, Finset.mem_erase]
    constructor
    · rintro ⟨e, ⟨he, hne⟩, rfl⟩
      exact ⟨by simpa using hne, e, he, rfl⟩
    · rintro ⟨hne, e, he, rfl⟩
      exact ⟨e, ⟨he, by simpa using hne⟩, rfl⟩
  refine ⟨h.nodup.sublist ((List.filter_sublist).map _), ?_, ?_, hrest⟩
  · intro x k hx
    rw [hmodules, h.counts x k (List.mem_of_mem_filter hx), List.count_nil, Nat.add_zero, importers,
      importers, Finset.sum_erase_add _ _ hm]
  · intro x
    have := h.ready x
    rw [hready] at this
    grind

theorem Balanced.step {c : Countdown} (h : Balanced g leftOut [] c) :
    Balanced g leftOut [] (c.step g leftOut) := by
  unfold Countdown.step
  split
  · exact h
  · next hready => exact (h.take hready).releaseAll

theorem length_release (c : Countdown) (m : ModuleId) :
    (c.release m).waiting.length = c.waiting.length := by
  unfold release
  split <;> simp

theorem length_releaseAll (ms : List ModuleId) (c : Countdown) :
    (ms.foldl release c).waiting.length = c.waiting.length := by
  induction ms generalizing c with
  | nil => rfl
  | cons m rest ih => rw [List.foldl_cons, ih, length_release]

/-- A step takes a waiting module away. -/
theorem length_step {c : Countdown} (h : Balanced g leftOut [] c) (hready : c.ready ≠ []) :
    (c.step g leftOut).waiting.length < c.waiting.length := by
  obtain ⟨m, ready, hr⟩ := List.exists_cons_of_ne_nil hready
  have hm : (m, 0) ∈ c.waiting := (h.ready m).mp (by simp [hr])
  rw [step, hr]
  simp only [length_releaseAll]
  exact List.length_filter_lt_length_iff_exists.mpr ⟨_, hm, by simp⟩

/-- A run ends with exact numbers and no ready module. -/
theorem Balanced.run {fuel : Nat} {c : Countdown} (h : Balanced g leftOut [] c)
    (hfuel : c.waiting.length ≤ fuel) :
    Balanced g leftOut [] (c.run g leftOut fuel) ∧ (c.run g leftOut fuel).ready = [] := by
  induction fuel generalizing c with
  | zero =>
    have hnil : c.waiting = [] := by simpa using hfuel
    refine ⟨h, List.eq_nil_iff_forall_not_mem.mpr fun m hm => ?_⟩
    have := (h.ready m).mp hm
    simp [hnil] at this
  | succ fuel ih =>
    rw [Countdown.run]
    split
    · next he => exact ⟨h, by simpa using he⟩
    · next he =>
      have := length_step h (by simpa using he)
      exact ih h.step (by omega)

/-- Without a ready module every waiting one has a waiting importer. -/
theorem Balanced.exists_importer {c : Countdown} (h : Balanced g leftOut [] c)
    (hready : c.ready = []) (hm : m ∈ c.modules) : ∃ n ∈ c.modules, g.Kept leftOut n m := by
  obtain ⟨⟨m, k⟩, hk, rfl⟩ := List.mem_map.mp (List.mem_toFinset.mp hm)
  have hpos : importers g leftOut c.modules m ≠ 0 := by
    intro hzero
    have hk0 : k = 0 := by simpa [hzero] using h.counts m k hk
    subst hk0
    have := (h.ready m).mpr hk
    simp [hready] at this
  obtain ⟨n, hn, hcount⟩ := Finset.exists_ne_zero_of_sum_ne_zero hpos
  exact ⟨n, hn, mem_keptTargets.mp (List.count_pos_iff.mp (Nat.pos_of_ne_zero hcount))⟩

end Imports.Countdown

namespace Imports

open Relation

/-- Among finitely many things each of which comes behind another one of them, one comes behind
itself. -/
theorem exists_cycle_of_predecessors {r : α → α → Prop} [DecidableEq α] (s : Finset α) (a : α)
    (ha : a ∈ s) (h : ∀ b ∈ s, ∃ c ∈ s, r c b) : ∃ b ∈ s, TransGen r b b := by
  by_contra hno
  have hwf : WellFounded fun x y : s => TransGen r x y := by
    have : IsTrans s fun x y => TransGen r x y := ⟨fun _ _ _ hxy hyz => hxy.trans hyz⟩
    have : Std.Irrefl fun x y : s => TransGen r x y := ⟨fun x hx => hno ⟨x, x.2, hx⟩⟩
    exact Finite.wellFounded_of_trans_of_irrefl _
  obtain ⟨least, -, hleast⟩ := hwf.has_min Set.univ ⟨⟨a, ha⟩, trivial⟩
  obtain ⟨c, hc, hr⟩ := h least least.2
  exact hleast ⟨c, hc⟩ trivial (.single hr)

end Imports

end SchemaBindings
