import Mathlib.Data.Finset.Card
import SchemaBindings.Naming.Table

/-!
Names that are claimed loosely. Among a name and what is made of it by appending underscores there
is always a free name, so loosely claimed names of one scope are never the same.
-/

namespace SchemaBindings.Naming

/-- The name with underscores behind it. -/
def withUnderscores (name : String) (count : Nat) : String :=
  String.ofList (name.toList ++ List.replicate count '_')

@[simp] theorem withUnderscores_zero (name : String) : withUnderscores name 0 = name := by
  simp [withUnderscores]

theorem withUnderscores_append (name : String) (count : Nat) :
    withUnderscores (name ++ "_") count = withUnderscores name (count + 1) := by
  simp [withUnderscores, List.replicate_succ]

/-- Different numbers of underscores make different names. -/
theorem withUnderscores_injective (name : String) : Function.Injective (withUnderscores name) := by
  intro i j h
  have hlength := congrArg (·.toList.length) h
  simpa [withUnderscores] using hlength

namespace Table

variable {taken : List String} {more : Nat} {name : String}

/-- No more underscores are put behind a name than its first free form needs. -/
theorem exists_firstFree_least (taken : List String) (more : Nat) (name : String) :
    ∃ count, firstFree taken more name = withUnderscores name count ∧
      ∀ fewer < count, withUnderscores name fewer ∈ taken := by
  induction more generalizing name with
  | zero => exact ⟨0, (withUnderscores_zero name).symm, nofun⟩
  | succ more ih =>
    rw [firstFree]
    split
    · next htaken =>
      obtain ⟨count, hc, hfewer⟩ := ih (name ++ "_")
      refine ⟨count + 1, hc.trans (withUnderscores_append name count), fun fewer hlt => ?_⟩
      cases fewer with
      | zero =>
        rw [withUnderscores_zero]
        exact List.contains_iff_mem.mp htaken
      | succ fewer =>
        rw [← withUnderscores_append]
        exact hfewer fewer (Nat.lt_of_succ_lt_succ hlt)
    · exact ⟨0, (withUnderscores_zero name).symm, nofun⟩

/-- A taken name is only met where all names that were tried are taken. -/
theorem withUnderscores_mem_of_firstFree_mem (h : firstFree taken more name ∈ taken) :
    ∀ count ≤ more, withUnderscores name count ∈ taken := by
  induction more generalizing name with
  | zero =>
    intro count hle
    rw [Nat.le_zero.mp hle, withUnderscores_zero]
    exact h
  | succ more ih =>
    by_cases hname : name ∈ taken
    · rw [firstFree, if_pos (List.contains_iff_mem.mpr hname)] at h
      intro count hle
      cases count with
      | zero => rwa [withUnderscores_zero]
      | succ count =>
        rw [← withUnderscores_append]
        exact ih h count (Nat.le_of_succ_le_succ hle)
    · rw [firstFree_of_notMem hname] at h
      exact absurd h hname

/-- More names are tried than are taken, so a free one is met. -/
theorem firstFree_notMem (h : taken.length ≤ more) : firstFree taken more name ∉ taken := by
  intro hmem
  have htried : (Finset.range (more + 1)).image (withUnderscores name) ⊆ taken.toFinset := by
    intro n hn
    obtain ⟨count, hcount, rfl⟩ := Finset.mem_image.mp hn
    have hle : count ≤ more := Nat.le_of_lt_succ (Finset.mem_range.mp hcount)
    exact List.mem_toFinset.mpr (withUnderscores_mem_of_firstFree_mem hmem count hle)
  have hcard := Finset.card_le_card htried
  rw [Finset.card_image_of_injective _ (withUnderscores_injective name), Finset.card_range] at hcard
  exact absurd (hcard.trans taken.toFinset_card_le) (by omega)

/-- What is claimed loosely is the name with underscores behind it, and was neither reserved nor
claimed before. -/
theorem assignUnique_spec (t : Table) (name : String) :
    (∃ count, (t.assignUnique name).1 = withUnderscores name count) ∧
      (t.assignUnique name).1 ∉ t.reserved ++ t.assigned :=
  ⟨(exists_firstFree_least _ _ name).imp fun _ h => h.1, firstFree_notMem le_rfl⟩

theorem assignUnique_least (t : Table) (name : String) :
    ∃ count, (t.assignUnique name).1 = withUnderscores name count ∧
      ∀ fewer < count, withUnderscores name fewer ∈ t.reserved ++ t.assigned :=
  exists_firstFree_least _ _ name

theorem assigned_assignUnique (t : Table) (name : String) :
    (t.assignUnique name).2.assigned = (t.assignUnique name).1 :: t.assigned :=
  rfl

/-! ## Names one after the other -/

/-- What names are claimed as when they are claimed loosely in order. -/
def assignEach : Table → List String → List String
  | _, [] => []
  | t, name :: rest => (t.assignUnique name).1 :: (t.assignUnique name).2.assignEach rest

/-- No two of the claimed names are the same, and none was reserved or claimed before. -/
theorem assignEach_distinct (t : Table) (names : List String) :
    (t.assignEach names).Nodup ∧ ∀ n ∈ t.assignEach names, n ∉ t.reserved ++ t.assigned := by
  induction names generalizing t with
  | nil => exact ⟨List.nodup_nil, nofun⟩
  | cons name rest ih =>
    obtain ⟨hnodup, hnew⟩ := ih (t.assignUnique name).2
    have hfree := (t.assignUnique_spec name).2
    rw [assigned_assignUnique] at hnew
    refine ⟨List.nodup_cons.mpr ⟨fun hm => ?_, hnodup⟩, List.forall_mem_cons.mpr ⟨hfree, ?_⟩⟩
    · exact hnew _ hm (List.mem_append_right _ List.mem_cons_self)
    · intro n hn hm
      refine hnew n hn ((List.mem_append.mp hm).elim (List.mem_append_left _) fun hm => ?_)
      exact List.mem_append_right _ (List.mem_cons_of_mem _ hm)

end Table

end SchemaBindings.Naming
