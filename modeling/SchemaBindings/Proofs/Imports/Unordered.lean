import SchemaBindings.Imports.Resolution
import SchemaBindings.Proofs.Imports.Countdown

/-!
The modules that wait for ever are those on a cycle of the kept edges and those behind one, for any
graph and any edges that are left out. Whichever ready module is taken next, a module is released
only while an importer of it is still counted, and the same modules are left in the end.
-/

namespace SchemaBindings.Imports

open Relation

variable {g : Graph} {leftOut : List Edge} {m : ModuleId}

/-- The module is on a cycle of the kept edges, or behind one. -/
def Graph.BehindCycle (g : Graph) (leftOut : List Edge) (m : ModuleId) : Prop :=
  ∃ a, TransGen (g.Kept leftOut) a a ∧ ReflTransGen (g.Kept leftOut) a m

namespace Graph.BehindCycle

/-- Such a module is imported by another one of them. -/
theorem exists_importer (h : g.BehindCycle leftOut m) :
    ∃ n, g.BehindCycle leftOut n ∧ g.Kept leftOut n m := by
  obtain ⟨a, hcycle, hreach⟩ := h
  rcases ReflTransGen.cases_tail hreach with rfl | ⟨n, hn, hk⟩
  · obtain ⟨n, hn, hk⟩ := TransGen.tail'_iff.mp hcycle
    exact ⟨n, ⟨_, hcycle, hn⟩, hk⟩
  · exact ⟨n, ⟨a, hcycle, hn⟩, hk⟩

/-- Where each of finitely many modules is imported by one of them, all are behind cycles. -/
theorem of_importers {s : Finset ModuleId} (h : ∀ b ∈ s, ∃ n ∈ s, g.Kept leftOut n b)
    (hm : m ∈ s) : g.BehindCycle leftOut m := by
  classical
  -- only the modules that lead to `m` are of interest, and an importer of one of them is another
  let leading := s.filter fun b => ReflTransGen (g.Kept leftOut) b m
  have hleading {b : ModuleId} :
      b ∈ leading ↔ b ∈ s ∧ ReflTransGen (g.Kept leftOut) b m := Finset.mem_filter
  obtain ⟨a, ha, hcycle⟩ := exists_cycle_of_predecessors leading m (hleading.mpr ⟨hm, .refl⟩)
    fun b hb => by
      obtain ⟨n, hn, hk⟩ := h b (hleading.mp hb).1
      exact ⟨n, hleading.mpr ⟨hn, (hleading.mp hb).2.head hk⟩, hk⟩
  exact ⟨a, hcycle, (hleading.mp ha).2⟩

end Graph.BehindCycle

namespace Countdown

variable {unreleased : List ModuleId} {c : Countdown}

/-! ## Moves -/

/-- One move of the countdown, with the modules that are still to be released before the next ready
one is taken. Any of the ready modules may be taken. -/
inductive Moves (g : Graph) (leftOut : List Edge) :
    List ModuleId × Countdown → List ModuleId × Countdown → Prop
  | release (m : ModuleId) (rest : List ModuleId) (c : Countdown) :
    Moves g leftOut (m :: rest, c) (rest, c.release m)
  | take (c : Countdown) (m : ModuleId) (ready : List ModuleId) (h : c.ready.Perm (m :: ready)) :
    Moves g leftOut ([], c)
      (keptTargets g leftOut m, { waiting := c.waiting.filter (·.1 != m), ready })

theorem moves_releaseAll (unreleased : List ModuleId) (c : Countdown) :
    ReflTransGen (Moves g leftOut) (unreleased, c) ([], unreleased.foldl Countdown.release c) := by
  induction unreleased generalizing c with
  | nil => exact .refl
  | cons m rest ih => exact .head (.release m rest c) (ih (c.release m))

theorem moves_step (c : Countdown) :
    ReflTransGen (Moves g leftOut) ([], c) ([], c.step g leftOut) := by
  unfold Countdown.step
  split
  · exact .refl
  · next m ready hready =>
    exact .head (.take c m ready (.of_eq hready)) (moves_releaseAll _ _)

/-- A run consists of moves. -/
theorem moves_run (fuel : Nat) (c : Countdown) :
    ReflTransGen (Moves g leftOut) ([], c) ([], c.run g leftOut fuel) := by
  induction fuel generalizing c with
  | zero => exact .refl
  | succ fuel ih =>
    rw [Countdown.run]
    split
    · exact .refl
    · exact (moves_step c).trans (ih _)

/-! ## What every move keeps -/

theorem keys_release (c : Countdown) (m : ModuleId) :
    (c.release m).waiting.map (·.1) = c.waiting.map (·.1) := by
  unfold Countdown.release
  split
  · rfl
  · exact keys_lower c.waiting

theorem mem_modules_iff : m ∈ c.modules ↔ m ∈ c.waiting.map (·.1) :=
  List.mem_toFinset

theorem Balanced.perm {ready : List ModuleId} (h : Balanced g leftOut unreleased c)
    (hp : c.ready.Perm ready) : Balanced g leftOut unreleased { c with ready } where
  nodup := h.nodup
  counts := h.counts
  ready := fun m => hp.mem_iff.symm.trans (h.ready m)
  readyNodup := hp.nodup h.readyNodup

/-- A module that waits for others to be released has an importer that is counted. -/
theorem Balanced.number_pos {rest : List ModuleId} {k : Nat}
    (h : Balanced g leftOut (m :: rest) c) (hk : c.waiting.lookup m = some k) : 0 < k := by
  have hcount := h.counts m k (mem_of_lookup hk)
  rw [List.count_cons_self] at hcount
  omega

/-- A ready module has no importer that waits. -/
theorem Balanced.not_kept_of_ready (h : Balanced g leftOut [] c) (hm : m ∈ c.ready) :
    ∀ n ∈ c.modules, ¬ g.Kept leftOut n m := by
  intro n hn hk
  have hzero := h.counts m 0 ((h.ready m).mp hm)
  rw [List.count_nil, Nat.add_zero, importers, eq_comm, Finset.sum_eq_zero_iff] at hzero
  exact absurd (mem_keptTargets.mpr hk) (List.count_eq_zero.mp (hzero n hn))

/-- The numbers are exact, the table is sorted, and no module behind a cycle has been taken away. -/
structure Exact (g : Graph) (leftOut : List Edge) (unreleased : List ModuleId)
    (c : Countdown) : Prop extends Balanced g leftOut unreleased c where
  sorted : Sorted c.waiting
  behind : ∀ m, g.BehindCycle leftOut m → m ∈ c.modules

theorem start_exact (leftOut : List Edge) (hkeys : (g.map (·.1)).Nodup) :
    Exact g leftOut [] (start g leftOut) where
  toBalanced := start_balanced leftOut hkeys
  sorted := (start_waiting g leftOut).1
  behind := by
    intro m hm
    obtain ⟨n, -, hk⟩ := hm.exists_importer
    -- what is imported is counted, and only modules of the table are
    refine mem_modules_iff.mpr (mem_of_number_pos ?_)
    rw [(start_waiting g leftOut).2.2 m]
    obtain ⟨entry, hentry, rfl⟩ := List.mem_map.mp (Graph.mem_keys_of_mem_targets hk.1)
    refine List.sum_pos_iff_exists_pos_nat.mpr ⟨_, List.mem_map_of_mem hentry, ?_⟩
    exact List.count_pos_iff.mpr (mem_keptTargets.mpr hk)

theorem Exact.release {rest : List ModuleId} (h : Exact g leftOut (m :: rest) c) :
    Exact g leftOut rest (c.release m) where
  toBalanced := h.toBalanced.release
  sorted := by
    rw [Sorted, keys_release]
    exact h.sorted
  behind := by
    intro x hx
    rw [mem_modules_iff, keys_release, ← mem_modules_iff]
    exact h.behind x hx

theorem Exact.take {ready : List ModuleId} (h : Exact g leftOut [] c)
    (hready : c.ready.Perm (m :: ready)) :
    Exact g leftOut (keptTargets g leftOut m)
      { waiting := c.waiting.filter (·.1 != m), ready } where
  toBalanced := (h.toBalanced.perm hready).take rfl
  sorted := h.sorted.sublist (List.filter_sublist.map _)
  behind := by
    intro x hx
    have hm : m ∈ c.ready := hready.mem_iff.mpr List.mem_cons_self
    have hne : x ≠ m := by
      rintro rfl
      obtain ⟨n, hn, hk⟩ := hx.exists_importer
      exact h.not_kept_of_ready hm n (h.behind n hn) hk
    obtain ⟨entry, hentry, rfl⟩ := List.mem_map.mp (mem_modules_iff.mp (h.behind x hx))
    have hstays : entry ∈ c.waiting.filter (·.1 != m) :=
      List.mem_filter.mpr ⟨hentry, bne_iff_ne.mpr hne⟩
    exact mem_modules_iff.mpr (List.mem_map_of_mem hstays)

theorem Exact.moves {s s' : List ModuleId × Countdown} (h : Exact g leftOut s.1 s.2)
    (hmove : Moves g leftOut s s') : Exact g leftOut s'.1 s'.2 := by
  cases hmove with
  | release m rest c => exact h.release
  | take c m ready hready => exact h.take hready

/-- What holds at the start holds after any moves. -/
theorem Exact.reached {s s' : List ModuleId × Countdown} (h : Exact g leftOut s.1 s.2)
    (hmoves : ReflTransGen (Moves g leftOut) s s') : Exact g leftOut s'.1 s'.2 := by
  induction hmoves with
  | refl => exact h
  | tail _ hmove ih => exact ih.moves hmove

/-- Once no module is ready, those behind cycles are left. -/
theorem Exact.mem_iff (h : Exact g leftOut [] c) (hready : c.ready = []) :
    m ∈ c.waiting.map (·.1) ↔ g.BehindCycle leftOut m := by
  rw [← mem_modules_iff]
  exact ⟨Graph.BehindCycle.of_importers fun b hb => h.exists_importer hready hb, h.behind m⟩

end Countdown

/-! ## The modules that are left -/

/-- The countdown at the end of the run. The modules that still wait in it are left. -/
def finalCountdown (g : Graph) (leftOut : List Edge) : Countdown :=
  let c := Countdown.start g leftOut
  c.run g leftOut c.waiting.length

theorem moves_finalCountdown (g : Graph) (leftOut : List Edge) : ReflTransGen
    (Countdown.Moves g leftOut) ([], Countdown.start g leftOut) ([], finalCountdown g leftOut) :=
  Countdown.moves_run _ _

section

variable (hkeys : (g.map (·.1)).Nodup)
include hkeys

/-- The run ends with exact numbers, and no module is ready any more. -/
theorem finalCountdown_exact (leftOut : List Edge) :
    Countdown.Exact g leftOut [] (finalCountdown g leftOut) ∧
      (finalCountdown g leftOut).ready = [] := by
  have hstart := Countdown.start_exact leftOut hkeys
  exact ⟨hstart.reached (moves_finalCountdown g leftOut), (hstart.toBalanced.run le_rfl).2⟩

theorem mem_unordered_iff : m ∈ unordered g leftOut ↔ g.BehindCycle leftOut m := by
  obtain ⟨hexact, hready⟩ := finalCountdown_exact hkeys leftOut
  exact hexact.mem_iff hready

theorem pairwise_unordered : (unordered g leftOut).Pairwise fun a b => a.before b :=
  (finalCountdown_exact hkeys leftOut).1.sorted

theorem unordered_eq_nil_iff : unordered g leftOut = [] ↔ Acyclic (g.Kept leftOut) := by
  rw [List.eq_nil_iff_forall_not_mem]
  constructor
  · exact fun hnone a hcycle => hnone a ((mem_unordered_iff hkeys).mpr ⟨a, hcycle, .refl⟩)
  · rintro hacyclic m hm
    obtain ⟨a, hcycle, -⟩ := (mem_unordered_iff hkeys).mp hm
    exact hacyclic a hcycle

end

/-- Modules in order are known by which of them there are. -/
theorem eq_of_pairwise_before {ms ms' : List ModuleId}
    (hms : ms.Pairwise fun a b => a.before b) (hms' : ms'.Pairwise fun a b => a.before b)
    (h : ∀ m, m ∈ ms ↔ m ∈ ms') : ms = ms' := by
  have hnodup {l : List ModuleId} (hl : l.Pairwise fun a b => a.before b) : l.Nodup :=
    hl.imp fun hab heq => by simp [heq, ModuleId.not_before_self] at hab
  have hperm : ms.Perm ms' := (List.perm_ext_iff_of_nodup (hnodup hms) (hnodup hms')).mpr h
  refine hperm.eq_of_pairwise (fun a b _ _ hab hba => ?_) hms hms'
  have haa := ModuleId.before_trans hab hba
  simp [ModuleId.not_before_self] at haa

/-- The same modules are left whichever of the ready ones were taken first. -/
theorem unordered_of_moves {c : Countdown} (hkeys : (g.map (·.1)).Nodup)
    (hmoves : ReflTransGen (Countdown.Moves g leftOut) ([], Countdown.start g leftOut) ([], c))
    (hready : c.ready = []) : c.waiting.map (·.1) = unordered g leftOut := by
  have hreached := (Countdown.start_exact leftOut hkeys).reached hmoves
  refine eq_of_pairwise_before hreached.sorted (pairwise_unordered hkeys) fun m => ?_
  rw [mem_unordered_iff hkeys]
  exact hreached.mem_iff hready

/-! ## Refusals -/

/-- Refuses a graph that no order can hold, and names the modules that wait for ever. -/
def checkOrder (g : Graph) (leftOut : List Edge) : Except Failure Unit :=
  match unordered g leftOut with
  | [] => .ok ()
  | stuck => .error (.cyclicImports (stuck.map ModuleId.text))

theorem checkOrder_of_eq_nil (h : unordered g leftOut = []) : checkOrder g leftOut = .ok () := by
  rw [checkOrder, h]

theorem checkOrder_of_ne_nil (h : unordered g leftOut ≠ []) : checkOrder g leftOut =
    .error (.cyclicImports ((unordered g leftOut).map ModuleId.text)) := by
  rw [checkOrder]
  split
  · next hnil => exact absurd hnil h
  · rfl

/-- Imports are resolved if what is left without the edges that lead back can be put into an
order. -/
theorem resolve_eq_checkOrder (sets : List (ModuleId × ImportSet)) :
    resolve sets = (do
      let demoted := sortedEdges (backEdges (graphOf sets))
      checkOrder (graphOf sets) demoted
      return ⟨sets.map fun (m, set) => (m, split demoted m set), demoted⟩) := by
  dsimp only [resolve, checkOrder]
  generalize unordered _ _ = stuck
  cases stuck <;> rfl

/-- A graph is accepted exactly if its kept edges have no cycle. Otherwise the modules on cycles and
behind them are named, in order. The countdown ends, with the same modules left whichever of the
ready ones are taken first, and it never takes an importer off a module that has none. -/
theorem checkOrder_refuses (g : Graph) (leftOut : List Edge) (hkeys : (g.map (·.1)).Nodup) :
    (checkOrder g leftOut = .ok () ↔ Acyclic (g.Kept leftOut)) ∧
    (¬ Acyclic (g.Kept leftOut) → ∃ stuck : List ModuleId,
      checkOrder g leftOut = .error (.cyclicImports (stuck.map ModuleId.text)) ∧
        stuck.Pairwise (fun a b => a.before b) ∧ ∀ m, m ∈ stuck ↔ g.BehindCycle leftOut m) ∧
    (∃ c, ReflTransGen (Countdown.Moves g leftOut) ([], Countdown.start g leftOut) ([], c) ∧
      c.ready = []) ∧
    ∀ unreleased c,
      ReflTransGen (Countdown.Moves g leftOut) ([], Countdown.start g leftOut) (unreleased, c) →
        (unreleased = [] → c.ready = [] → c.waiting.map (·.1) = unordered g leftOut) ∧
        ∀ m rest k, unreleased = m :: rest → c.waiting.lookup m = some k → 0 < k := by
  refine ⟨?_, fun hcyclic => ?_, ?_, fun unreleased c hmoves => ⟨?_, ?_⟩⟩
  · rw [← unordered_eq_nil_iff hkeys]
    refine ⟨fun hok => ?_, checkOrder_of_eq_nil⟩
    by_contra hne
    rw [checkOrder_of_ne_nil hne] at hok
    cases hok
  · have hne : unordered g leftOut ≠ [] := mt (unordered_eq_nil_iff hkeys).mp hcyclic
    exact ⟨_, checkOrder_of_ne_nil hne, pairwise_unordered hkeys, fun _ => mem_unordered_iff hkeys⟩
  · exact ⟨_, moves_finalCountdown g leftOut, (finalCountdown_exact hkeys leftOut).2⟩
  · rintro rfl hready
    exact unordered_of_moves hkeys hmoves hready
  · rintro m rest k rfl hk
    exact ((Countdown.start_exact leftOut hkeys).reached hmoves).number_pos hk

/-- Two modules that import from each other and from one without imports of its own, and one that
imports from itself. -/
def knot : Graph :=
  [(⟨["a"]⟩, [⟨["b"]⟩]), (⟨["b"]⟩, [⟨["a"]⟩, ⟨["leaf"]⟩]), (⟨["own"]⟩, [⟨["own"]⟩])]

theorem checkOrder_refuses_knot :
    (knot.map (·.1)).Nodup ∧ ¬ Acyclic (knot.Kept [(⟨["own"]⟩, ⟨["own"]⟩)]) ∧
      ∃ stuck : List ModuleId,
        checkOrder knot [(⟨["own"]⟩, ⟨["own"]⟩)] =
          .error (.cyclicImports (stuck.map ModuleId.text)) ∧
        stuck.map ModuleId.text = ["a", "b", "leaf"] := by
  have hkeys : (knot.map (·.1)).Nodup := by decide
  have hspec := checkOrder_refuses knot [(⟨["own"]⟩, ⟨["own"]⟩)] hkeys
  have hcheck : checkOrder knot [(⟨["own"]⟩, ⟨["own"]⟩)] =
      .error (.cyclicImports ["a", "b", "leaf"]) := by
    decide
  have hcyclic : ¬ Acyclic (knot.Kept [(⟨["own"]⟩, ⟨["own"]⟩)]) := by
    rw [← hspec.1, hcheck]
    exact nofun
  obtain ⟨stuck, hstuck, -⟩ := hspec.2.1 hcyclic
  refine ⟨hkeys, hcyclic, stuck, hstuck, ?_⟩
  rw [hcheck] at hstuck
  injection hstuck with hstuck
  injection hstuck with hstuck
  exact hstuck.symm

end SchemaBindings.Imports
