import Mathlib.Data.List.Nodup
import Mathlib.Data.List.Perm.Subperm
import Mathlib.Logic.Relation
import Mathlib.Tactic.ByContra
import SchemaBindings.Imports.Cycle

/-!
What the search for cycles among imports keeps. The modules that it is done with stand in an order
that no kept edge goes against, and every edge that leads back closes a cycle of kept edges.
-/

namespace SchemaBindings

open Relation

/-- No way leads from anything back to itself. -/
def Acyclic (r : α → α → Prop) : Prop :=
  ∀ a, ¬ TransGen r a a

namespace Imports

namespace Graph

/-- An edge of the graph that is not left out. -/
def Kept (g : Graph) (leftOut : List Edge) (m target : ModuleId) : Prop :=
  target ∈ g.targets m ∧ (m, target) ∉ leftOut

theorem Kept.anti {g : Graph} {few many : List Edge} {m target : ModuleId}
    (h : g.Kept many m target) (hsub : few ⊆ many) : g.Kept few m target :=
  ⟨h.1, fun hm => h.2 (hsub hm)⟩

theorem mem_keys_of_mem_targets {g : Graph} {m target : ModuleId} (h : target ∈ g.targets m) :
    m ∈ g.map (·.1) := by
  by_contra hm
  have hnone : g.lookup m = none := by
    rw [List.lookup_eq_none_iff]
    intro p hp
    exact bne_iff_ne.mpr fun he => hm (he ▸ List.mem_map_of_mem hp)
  simp [targets, hnone] at h

/-- Kept edges lead from every module of the list to a later one. -/
def Ordered (g : Graph) (leftOut : List Edge) : List ModuleId → Prop
  | [] => True
  | m :: rest => (∀ target, g.Kept leftOut m target → target ∈ rest) ∧ g.Ordered leftOut rest

namespace Ordered

variable {g : Graph} {leftOut : List Edge} {ms : List ModuleId}

theorem mono {more : List Edge} (h : g.Ordered leftOut ms) (hsub : leftOut ⊆ more) :
    g.Ordered more ms := by
  induction ms with
  | nil => trivial
  | cons m rest ih => exact ⟨fun target hk => h.1 target (hk.anti hsub), ih h.2⟩

theorem mem_of_kept (h : g.Ordered leftOut ms) {a b : ModuleId} (ha : a ∈ ms)
    (hk : g.Kept leftOut a b) : b ∈ ms := by
  induction ms with
  | nil => cases ha
  | cons m rest ih =>
    rcases List.mem_cons.mp ha with rfl | ha
    · exact List.mem_cons_of_mem _ (h.1 b hk)
    · exact List.mem_cons_of_mem _ (ih h.2 ha)

theorem mem_of_reach (h : g.Ordered leftOut ms) {a b : ModuleId} (ha : a ∈ ms)
    (hr : ReflTransGen (g.Kept leftOut) a b) : b ∈ ms := by
  induction hr with
  | refl => exact ha
  | tail _ hk ih => exact h.mem_of_kept ih hk

/-- A way from a module back to itself would put it behind itself, again and again. -/
theorem not_cycle (h : g.Ordered leftOut ms) {m : ModuleId} (hm : m ∈ ms) :
    ¬ TransGen (g.Kept leftOut) m m := by
  induction ms with
  | nil => cases hm
  | cons n rest ih =>
    intro hc
    obtain ⟨next, hk, hr⟩ := TransGen.head'_iff.mp hc
    rcases List.mem_cons.mp hm with rfl | hm
    · exact ih h.2 (h.2.mem_of_reach (h.1 next hk) hr) hc
    · exact ih h.2 hm hc

end Ordered
end Graph

namespace Search

variable {g : Graph} {stack : List ModuleId} {m t : ModuleId} {s : Search}

/-- A kept edge that the search has taken: to a module that it is done with, or from one module of
the stack to the next. Such an edge is never found to lead back later. -/
def Taken (g : Graph) (stack : List ModuleId) (s : Search) (m t : ModuleId) : Prop :=
  g.Kept s.found m t ∧ (t ∈ s.closed ∨ [t, m] <:+: stack)

/-- What holds whenever the search stands at the first module of the stack. -/
structure Invariant (g : Graph) (stack : List ModuleId) (s : Search) : Prop where
  nodup : stack.Nodup
  unfinished : ∀ m ∈ stack, m ∉ s.closed
  chain : ∀ t m, [t, m] <:+: stack → g.Kept s.found m t
  ordered : g.Ordered s.found s.closed
  met : ∀ a b, (a, b) ∈ s.found → b ∈ stack ∨ b ∈ s.closed
  cycles : ∀ a b, (a, b) ∈ s.found → b ∈ g.targets a ∧ ReflTransGen (Taken g stack s) b a

namespace Invariant

private theorem not_infix_head (h : (m :: stack).Nodup) : ¬ [t, m] <:+: m :: stack := by
  intro hi
  have hm : m ∈ stack := by
    rcases List.infix_cons_iff.mp hi with hp | hi
    · rw [List.cons_prefix_cons] at hp
      exact hp.2.subset (by simp)
    · exact hi.subset (by simp)
  exact (List.nodup_cons.mp h).1 hm

/-- The stack is a way of taken edges, from its last module to its first one. -/
theorem reach_head (h : Invariant g (m :: stack) s) (ht : t ∈ m :: stack) :
    ReflTransGen (Taken g (m :: stack) s) t m := by
  have along : ∀ (rest : List ModuleId) (top : ModuleId), top :: rest <:+ m :: stack →
      ∀ x ∈ top :: rest, ReflTransGen (Taken g (m :: stack) s) x top := by
    intro rest
    induction rest with
    | nil =>
      intro top _ x hx
      rw [List.mem_singleton.mp hx]
    | cons next rest ih =>
      intro top hs x hx
      have hi : [top, next] <:+: m :: stack :=
        List.IsInfix.trans ⟨[], rest, rfl⟩ hs.isInfix
      rcases List.mem_cons.mp hx with rfl | hx
      · exact .refl
      · exact (ih next ((List.suffix_cons _ _).trans hs) x hx).tail
          ⟨h.chain top next hi, .inr hi⟩
  exact along stack m List.suffix_rfl t ht

/-- Only the first module of the stack may have no edges, so the stack is no longer than the graph
by more than one module. -/
theorem length_le (h : Invariant g (m :: stack) s) : stack.length ≤ g.length := by
  have keys : stack ⊆ g.map (·.1) := by
    intro x hx
    obtain ⟨before, behind, hsplit⟩ := List.append_of_mem hx
    have hi : ∃ t, [t, x] <:+: m :: stack := by
      rcases List.eq_nil_or_concat before with rfl | ⟨front, t, rfl⟩
      · exact ⟨m, [], behind, by simp [hsplit]⟩
      · exact ⟨t, m :: front, behind, by simp [hsplit]⟩
    obtain ⟨t, hi⟩ := hi
    exact Graph.mem_keys_of_mem_targets (h.chain t x hi).1
  have hle := (List.subperm_of_subset (List.nodup_cons.mp h.nodup).2 keys).length_le
  simpa using hle

/-- A search may go on from any module that it has not met. -/
theorem push (h : Invariant g (m :: stack) s) (ht : t ∈ g.targets m) (hopen : t ∉ m :: stack)
    (hclosed : t ∉ s.closed) : Invariant g (t :: m :: stack) s where
  nodup := List.nodup_cons.mpr ⟨hopen, h.nodup⟩
  unfinished := by
    intro x hx
    rcases List.mem_cons.mp hx with rfl | hx
    · exact hclosed
    · exact h.unfinished x hx
  chain := by
    intro c p hi
    rcases List.infix_cons_iff.mp hi with hp | hi
    · obtain ⟨hc, hp⟩ := List.cons_prefix_cons.mp hp
      obtain ⟨hp, _⟩ := List.cons_prefix_cons.mp hp
      rw [hc, hp]
      exact ⟨ht, fun hf => (h.met _ _ hf).elim hopen hclosed⟩
    · exact h.chain c p hi
  ordered := h.ordered
  met := fun a b hf => (h.met a b hf).imp_left (List.mem_cons_of_mem t)
  cycles := by
    intro a b hf
    refine ⟨(h.cycles a b hf).1, ReflTransGen.mono ?_ _ _ (h.cycles a b hf).2⟩
    rintro p c ⟨hk, ht⟩
    exact ⟨hk, ht.imp_right fun hi => hi.trans (List.suffix_cons _ _).isInfix⟩

/-- A search may begin at any module that it is not done with. -/
theorem start (h : Invariant g [] s) (hclosed : m ∉ s.closed) : Invariant g [m] s where
  nodup := List.nodup_singleton m
  unfinished := by simpa using hclosed
  chain := fun c p hi => absurd hi.length_le (by simp)
  ordered := h.ordered
  met := fun a b hf => (h.met a b hf).imp_left (by simp)
  cycles := by
    intro a b hf
    refine ⟨(h.cycles a b hf).1, ReflTransGen.mono ?_ _ _ (h.cycles a b hf).2⟩
    rintro p c ⟨hk, ht⟩
    exact ⟨hk, ht.imp_right fun hi => absurd hi.length_le (by simp)⟩

/-- An edge to the stack leads back; it closes a cycle with the edges that the stack came along. -/
theorem back (h : Invariant g (m :: stack) s) (ht : t ∈ g.targets m) (hopen : t ∈ m :: stack) :
    Invariant g (m :: stack) { s with found := (m, t) :: s.found } := by
  have keep : ∀ p c, Taken g (m :: stack) s p c →
      Taken g (m :: stack) { s with found := (m, t) :: s.found } p c := by
    rintro p c ⟨hk, hc⟩
    refine ⟨⟨hk.1, ?_⟩, hc⟩
    intro hf
    rcases List.mem_cons.mp hf with he | hf
    · obtain ⟨rfl, rfl⟩ := Prod.mk.inj he
      rcases hc with hc | hi
      · exact h.unfinished c hopen hc
      · exact not_infix_head h.nodup hi
    · exact hk.2 hf
  have grow : s.found ⊆ (m, t) :: s.found := List.subset_cons_self _ _
  refine ⟨h.nodup, h.unfinished, ?_, h.ordered.mono grow, ?_, ?_⟩
  · intro c p hi
    exact (keep p c ⟨h.chain c p hi, .inr hi⟩).1
  · intro a b hf
    rcases List.mem_cons.mp hf with he | hf
    · obtain ⟨rfl, rfl⟩ := Prod.mk.inj he
      exact .inl hopen
    · exact h.met a b hf
  · intro a b hf
    rcases List.mem_cons.mp hf with he | hf
    · obtain ⟨rfl, rfl⟩ := Prod.mk.inj he
      exact ⟨ht, ReflTransGen.mono keep _ _ (h.reach_head hopen)⟩
    · exact ⟨(h.cycles a b hf).1, ReflTransGen.mono keep _ _ (h.cycles a b hf).2⟩

/-- A search is done with a module when each of its edges leads back or to one that it is done
with. -/
theorem close (h : Invariant g (m :: stack) s)
    (hdone : ∀ t ∈ g.targets m, (m, t) ∈ s.found ∨ t ∈ s.closed) :
    Invariant g stack { s with closed := m :: s.closed } where
  nodup := (List.nodup_cons.mp h.nodup).2
  unfinished := by
    intro x hx hc
    rcases List.mem_cons.mp hc with rfl | hc
    · exact (List.nodup_cons.mp h.nodup).1 hx
    · exact h.unfinished x (List.mem_cons_of_mem m hx) hc
  chain := fun c p hi => h.chain c p (hi.trans (List.suffix_cons m stack).isInfix)
  ordered := ⟨fun t hk => (hdone t hk.1).resolve_left hk.2, h.ordered⟩
  met := by
    intro a b hf
    rcases h.met a b hf with hb | hb
    · rcases List.mem_cons.mp hb with rfl | hb
      · exact .inr List.mem_cons_self
      · exact .inl hb
    · exact .inr (List.mem_cons_of_mem m hb)
  cycles := by
    intro a b hf
    refine ⟨(h.cycles a b hf).1, ReflTransGen.mono ?_ _ _ (h.cycles a b hf).2⟩
    rintro p c ⟨hk, hc⟩
    refine ⟨hk, ?_⟩
    rcases hc with hc | hi
    · exact .inl (List.mem_cons_of_mem m hc)
    · rcases List.infix_cons_iff.mp hi with hp | hi
      · obtain ⟨rfl, _⟩ := List.cons_prefix_cons.mp hp
        exact .inl List.mem_cons_self
      · exact .inr hi

end Invariant

/-- A later state of a search: nothing that it has met is forgotten. -/
structure Extends (s s' : Search) : Prop where
  closed : s.closed ⊆ s'.closed
  found : s.found ⊆ s'.found

theorem Extends.refl (s : Search) : Extends s s :=
  ⟨List.Subset.refl _, List.Subset.refl _⟩

theorem Extends.trans {s s' s'' : Search} (h : Extends s s') (h' : Extends s' s'') :
    Extends s s'' :=
  ⟨List.Subset.trans h.closed h'.closed, List.Subset.trans h.found h'.found⟩

/-- A search from the first module of the stack keeps the invariant and is done with the module. -/
def Completes (g : Graph) (stack : List ModuleId) (m : ModuleId) (s s' : Search) : Prop :=
  Invariant g stack s' ∧ Extends s s' ∧ m ∈ s'.closed

/-- The edges of a module, one after the other, given what a search from any target does. -/
private theorem visitAll_edges (fuel : Nat) (targets : List ModuleId)
    (search : ∀ t s, Invariant g (t :: m :: stack) s →
      Completes g (m :: stack) t s (visit g fuel (m :: stack) t s))
    (hsub : ∀ t ∈ targets, t ∈ g.targets m) (h : Invariant g (m :: stack) s) :
    let s' := visitAll g fuel (m :: stack) m targets s
    Invariant g (m :: stack) s' ∧ Extends s s' ∧
      ∀ t ∈ targets, (m, t) ∈ s'.found ∨ t ∈ s'.closed := by
  induction targets generalizing s with
  | nil =>
    rw [visitAll]
    exact ⟨h, .refl s, by simp⟩
  | cons t rest ih =>
    have ht : t ∈ g.targets m := hsub t List.mem_cons_self
    have first : ∃ s₁, visitAll g fuel (m :: stack) m (t :: rest) s =
          visitAll g fuel (m :: stack) m rest s₁ ∧
        Invariant g (m :: stack) s₁ ∧ Extends s s₁ ∧ ((m, t) ∈ s₁.found ∨ t ∈ s₁.closed) := by
      by_cases hopen : t ∈ m :: stack
      · exact ⟨{ s with found := (m, t) :: s.found }, by rw [visitAll]; simp_all,
          h.back ht hopen, ⟨List.Subset.refl _, List.subset_cons_self _ _⟩,
          .inl List.mem_cons_self⟩
      · by_cases hclosed : t ∈ s.closed
        · exact ⟨s, by rw [visitAll]; simp_all, h, .refl s, .inr hclosed⟩
        · obtain ⟨hi, he, hd⟩ := search t s (h.push ht hopen hclosed)
          exact ⟨_, by rw [visitAll]; simp_all, hi, he, .inr hd⟩
    obtain ⟨s₁, heq, hi, he, hd⟩ := first
    obtain ⟨hi', he', hd'⟩ := ih (fun t ht => hsub t (List.mem_cons_of_mem _ ht)) hi
    rw [heq]
    refine ⟨hi', he.trans he', ?_⟩
    intro x hx
    rcases List.mem_cons.mp hx with rfl | hx
    · exact hd.imp (fun h => he'.found h) (fun h => he'.closed h)
    · exact hd' x hx

/-- The fuel is enough: a stack that would use it up holds more modules with edges than the graph
has. -/
theorem visit_completes {fuel : Nat} (hfuel : g.length < stack.length + fuel)
    (h : Invariant g (m :: stack) s) : Completes g stack m s (visit g fuel stack m s) := by
  induction fuel generalizing stack m s with
  | zero => exact absurd h.length_le (by omega)
  | succ fuel ih =>
    obtain ⟨hi, he, hd⟩ := visitAll_edges fuel (g.targets m)
      (fun t s ht => ih (by simp; omega) ht) (fun _ ht => ht) h
    rw [visit]
    have hclosed := List.Subset.trans he.closed (List.subset_cons_self m _)
    exact ⟨hi.close hd, ⟨hclosed, he.found⟩, List.mem_cons_self⟩

end Search

/-- The search from every module in order is done with all of them, and it has found what it will
find. -/
theorem backEdges_spec (g : Graph) :
    ∃ s : Search, Search.Invariant g [] s ∧ s.found = backEdges g ∧
      ∀ m ∈ g.map (·.1), m ∈ s.closed := by
  have run (ms : List ModuleId) (s : Search) (h : Search.Invariant g [] s) :
      let s' := ms.foldl (fun s m =>
        if s.closed.contains m then s else visit g (g.length + 1) [] m s) s
      Search.Invariant g [] s' ∧ Search.Extends s s' ∧ ∀ m ∈ ms, m ∈ s'.closed := by
    induction ms generalizing s with
    | nil => exact ⟨h, .refl s, by simp⟩
    | cons m rest ih =>
      have first : Search.Completes g [] m s
          (if s.closed.contains m then s else visit g (g.length + 1) [] m s) := by
        split
        · next hm => exact ⟨h, .refl s, by simpa using hm⟩
        · next hm => exact Search.visit_completes (by simp) (h.start (by simpa using hm))
      obtain ⟨hi, he, hd⟩ := first
      obtain ⟨hi', he', hd'⟩ := ih _ hi
      refine ⟨hi', he.trans he', ?_⟩
      intro x hx
      rcases List.mem_cons.mp hx with rfl | hx
      · exact he'.closed hd
      · exact hd' x hx
  have empty : Search.Invariant g [] {} := by
    refine ⟨List.nodup_nil, by simp, fun c p hi => absurd hi.length_le (by simp), trivial,
      by simp, by simp⟩
  obtain ⟨hi, _, hd⟩ := run (g.map (·.1)) {} empty
  exact ⟨_, hi, rfl, hd⟩

/-- A module that imports nothing leads back nowhere. -/
theorem backEdges_single (m : ModuleId) : backEdges [(m, [])] = [] := by
  have htargets : Graph.targets [(m, [])] m = [] := by simp [Graph.targets]
  simp [backEdges, visit, visitAll, htargets]

/-- What is left of a graph without the edges that lead back has no cycle. -/
theorem acyclic_backEdges (g : Graph) : Acyclic (g.Kept (backEdges g)) := by
  obtain ⟨s, hi, hfound, hclosed⟩ := backEdges_spec g
  intro m hc
  obtain ⟨next, hk, _⟩ := TransGen.head'_iff.mp hc
  have hm : m ∈ s.closed := hclosed m (Graph.mem_keys_of_mem_targets hk.1)
  rw [← hfound] at hc
  exact hi.ordered.not_cycle hm hc

/-- Every edge that leads back is an edge of the graph and closes a cycle of kept ones. -/
theorem reach_of_mem_backEdges {g : Graph} {a b : ModuleId} (h : (a, b) ∈ backEdges g) :
    b ∈ g.targets a ∧ ReflTransGen (g.Kept (backEdges g)) b a := by
  obtain ⟨s, hi, hfound, _⟩ := backEdges_spec g
  obtain ⟨ht, hr⟩ := hi.cycles a b (hfound ▸ h)
  refine ⟨ht, ReflTransGen.mono ?_ _ _ hr⟩
  rintro p c ⟨hk, _⟩
  exact hfound ▸ hk

end Imports

end SchemaBindings
