import Mathlib.Data.List.Nodup
import Mathlib.Data.String.Basic
import SchemaBindings.Lookup

/-!
Tables as lists of entries: what is found is an entry, and where no two entries have the same key
every entry is found.
-/

namespace SchemaBindings

variable {κ α : Type} [DecidableEq κ] {before : κ → κ → Bool} {table : List (κ × α)} {key k : κ}
  {value v : α}

theorem mem_of_lookup (h : table.lookup key = some value) : (key, value) ∈ table := by
  obtain ⟨front, behind, hsplit, -⟩ := List.lookup_eq_some_iff.mp h
  simp [hsplit]

theorem mem_keys_iff_lookup : key ∈ table.map (·.1) ↔ (table.lookup key).isSome := by
  rw [List.lookup_isSome_iff, List.mem_map]
  exact exists_congr fun e => and_congr_right fun _ => by rw [beq_iff_eq, eq_comm]

theorem lookup_of_mem (hkeys : (table.map (·.1)).Nodup) (h : (key, value) ∈ table) :
    table.lookup key = some value := by
  induction table with
  | nil => cases h
  | cons entry rest ih =>
    obtain ⟨hnew, hrest⟩ := List.nodup_cons.mp hkeys
    rcases List.mem_cons.mp h with rfl | h
    · exact List.lookup_cons_self
    · have hne : key ≠ entry.1 := by
        rintro rfl
        exact hnew (List.mem_map.mpr ⟨_, h, rfl⟩)
      rw [List.lookup_cons, beq_false_of_ne hne]
      exact ih hrest h

/-- A key has one value. -/
theorem eq_of_mem (hkeys : (table.map (·.1)).Nodup) (h : (key, value) ∈ table)
    (h' : (key, v) ∈ table) : value = v :=
  Option.some.inj ((lookup_of_mem hkeys h).symm.trans (lookup_of_mem hkeys h'))

theorem mem_of_mem_insertSorted (h : (k, v) ∈ insertSorted before key value table) :
    (k, v) = (key, value) ∨ (k, v) ∈ table := by
  induction table with
  | nil => exact .inl (by simpa [insertSorted] using h)
  | cons entry rest ih => grind [insertSorted]

/-- An entry with a new key is added to the others. -/
theorem insertSorted_perm (h : key ∉ table.map (·.1)) :
    (insertSorted before key value table).Perm ((key, value) :: table) := by
  induction table with
  | nil => exact .refl _
  | cons entry rest ih =>
    obtain ⟨n, w⟩ := entry
    obtain ⟨hne, hrest⟩ : key ≠ n ∧ key ∉ rest.map (·.1) := by simpa using h
    rw [insertSorted, beq_false_of_ne hne]
    by_cases hb : before key n
    · simp [hb]
    · simpa [hb] using ((ih hrest).cons (n, w)).trans (.swap ..)

theorem nodup_insertSorted (hkeys : (table.map (·.1)).Nodup) (h : key ∉ table.map (·.1)) :
    ((insertSorted before key value table).map (·.1)).Nodup := by
  rw [((insertSorted_perm h).map _).nodup_iff]
  exact List.nodup_cons.mpr ⟨h, hkeys⟩

section Sorted

variable [IsStrictTotalOrder κ fun a b => before a b = true]

/-- A sorted table stays sorted. -/
theorem pairwise_insertSorted
    (h : (table.map (·.1)).Pairwise fun a b => before a b = true) :
    ((insertSorted before key value table).map (·.1)).Pairwise fun a b => before a b = true := by
  induction table with
  | nil => simp [insertSorted]
  | cons entry rest ih =>
    obtain ⟨n, w⟩ := entry
    obtain ⟨hhead, hrest⟩ := List.pairwise_cons.mp h
    rw [insertSorted]
    split
    · next he =>
      rw [beq_iff_eq.mp he]
      exact h
    split
    · next hb =>
      refine List.pairwise_cons.mpr ⟨fun k hk => ?_, h⟩
      rcases List.mem_cons.mp hk with rfl | hk
      · exact hb
      · exact trans_of (fun a b => before a b = true) hb (hhead k hk)
    · next hne hb =>
      have hbehind : before n key = true := by
        rcases trichotomous_of (fun a b => before a b = true) key n with h | h | h
        · exact absurd h hb
        · exact absurd (beq_iff_eq.mpr h) hne
        · exact h
      refine List.pairwise_cons.mpr ⟨fun k hk => ?_, ih hrest⟩
      obtain ⟨e, he, rfl⟩ := List.mem_map.mp hk
      rcases mem_of_mem_insertSorted he with he | he
      · exact (Prod.mk.inj he).1 ▸ hbehind
      · exact hhead _ (List.mem_map_of_mem he)

variable (before) in
omit [DecidableEq κ] in
/-- What is sorted by keys that differ stands in the order of its keys. -/
theorem pairwise_sortedByKey {β : Type} (key : β → κ) {l : List β} (h : (l.map key).Nodup) :
    (l.mergeSort fun a b => !before (key b) (key a)).Pairwise
      fun a b => before (key a) (key b) = true := by
  have htrans (a b c : κ) : before a b = true → before b c = true → before a c = true :=
    trans_of fun a b => before a b = true
  have htri (a b : κ) : before a b = true ∨ a = b ∨ before b a = true :=
    trichotomous_of (fun a b => before a b = true) a b
  have hasymm (a b : κ) : before a b = true → ¬ before b a = true :=
    asymm_of fun a b => before a b = true
  have hsorted : (l.mergeSort fun a b => !before (key b) (key a)).Pairwise
      fun a b => (!before (key b) (key a)) = true :=
    List.pairwise_mergeSort (fun a b c => by grind) (fun a b => by grind) l
  have hdiffer : (l.mergeSort fun a b => !before (key b) (key a)).Pairwise
      fun a b => key a ≠ key b := by
    rw [← List.pairwise_map]
    exact ((List.mergeSort_perm l _).map key).nodup_iff.mpr h
  refine hsorted.imp₂ (fun a b hle hne => ?_) hdiffer
  exact ((htri (key a) (key b)).resolve_right fun h => h.elim hne (by simpa using hle))

omit [DecidableEq κ] in
/-- Sorted tables with the same entries are the same. -/
theorem eq_of_perm_of_sorted {table' : List (κ × α)} (hp : table.Perm table')
    (h : (table.map (·.1)).Pairwise fun a b => before a b = true)
    (h' : (table'.map (·.1)).Pairwise fun a b => before a b = true) : table = table' :=
  hp.eq_of_pairwise (fun _ _ _ _ hab hba =>
      absurd hba (asymm_of (fun a b => before a b = true) hab))
    (List.pairwise_map.mp h) (List.pairwise_map.mp h')

end Sorted

/-! ## Sorted names and sorted groups of names -/

instance isStrictTotalOrder_lt {α : Type} [LinearOrder α] [DecidableLT α] :
    IsStrictTotalOrder α fun a b => decide (a < b) = true := by
  simpa only [decide_eq_true_eq] using (inferInstance : IsStrictTotalOrder α (· < ·))

/-- Names are inserted like the keys of a table without values. -/
private theorem insertName_eq (name : String) (names : List String) :
    insertName name names = (insertByName name () (names.map (·, ()))).map (·.1) := by
  induction names with
  | nil => rfl
  | cons head rest ih =>
    simp only [insertName, ih, insertByName, List.map_cons, insertSorted, decide_eq_true_eq]
    split
    · next he => simp [beq_iff_eq.mp he, Function.comp_def]
    split
    · simp [Function.comp_def]
    · rfl

theorem pairwise_insertName {name : String} {names : List String} (h : names.Pairwise (· < ·)) :
    (insertName name names).Pairwise (· < ·) := by
  have hkeys : ((names.map (·, ())).map (·.1)).Pairwise fun a b => decide (a < b) = true := by
    simpa [Function.comp_def] using h
  rw [insertName_eq]
  exact (pairwise_insertSorted hkeys).imp of_decide_eq_true

/-- A name stands in the group of a key. -/
def InGroup (groups : List (κ × List String)) (key : κ) (name : String) : Prop :=
  name ∈ (groups.lookup key).getD []

theorem inGroup_of_mem {groups : List (κ × List String)} (hkeys : (groups.map (·.1)).Nodup)
    {names : List String} {name : String} (h : (key, names) ∈ groups) (hn : name ∈ names) :
    InGroup groups key name := by
  rw [InGroup, lookup_of_mem hkeys h]
  exact hn

theorem InGroup.exists_mem {groups : List (κ × List String)} {name : String}
    (h : InGroup groups key name) : ∃ names, (key, names) ∈ groups ∧ name ∈ names := by
  rw [InGroup] at h
  cases hl : groups.lookup key with
  | none => simp [hl] at h
  | some names => exact ⟨names, mem_of_lookup hl, by simpa [hl] using h⟩

/-- A name that is added to the group of a key is the only one that was not there before. -/
theorem inGroup_insertSorted {groups : List (κ × List String)} {name n : String} :
    InGroup (insertSorted before key (insertName name ((groups.lookup key).getD [])) groups) k n ↔
      k = key ∧ n = name ∨ InGroup groups k n := by
  rw [InGroup, InGroup, lookup_insertSorted]
  by_cases hk : k = key
  · simp [hk, mem_insertName]
  · simp [hk]

/-- Groups of names, sorted by what they belong to and each sorted in itself. -/
structure SortedGroups (before : κ → κ → Bool) (groups : List (κ × List String)) : Prop where
  keys : (groups.map (·.1)).Pairwise fun a b => before a b = true
  names : ∀ e ∈ groups, e.2.Pairwise (· < ·)

namespace SortedGroups

variable [IsStrictTotalOrder κ fun a b => before a b = true] {groups : List (κ × List String)}

/-- A name is added to the group of a key. -/
theorem insert (h : SortedGroups before groups) (name : String) :
    SortedGroups before
      (insertSorted before key (insertName name ((groups.lookup key).getD [])) groups) where
  keys := pairwise_insertSorted h.keys
  names := by
    rintro ⟨k, names⟩ he
    rcases mem_of_mem_insertSorted he with he | he
    · rw [(Prod.mk.inj he).2]
      refine pairwise_insertName ?_
      cases hl : groups.lookup key with
      | none => exact .nil
      | some old => exact h.names _ (mem_of_lookup hl)
    · exact h.names _ he

omit [DecidableEq κ] in
theorem nodup_keys (h : SortedGroups before groups) : (groups.map (·.1)).Nodup := by
  refine h.keys.imp fun {a b} hab he => ?_
  exact irrefl_of (fun a b => before a b = true) b (he ▸ hab)

/-- Sorted groups, none of them empty, are known by the names that stand in them. -/
theorem ext {groups' : List (κ × List String)} (h : SortedGroups before groups)
    (h' : SortedGroups before groups') (hfull : ∀ e ∈ groups, e.2 ≠ [])
    (hfull' : ∀ e ∈ groups', e.2 ≠ [])
    (hsame : ∀ key name, InGroup groups key name ↔ InGroup groups' key name) :
    groups = groups' := by
  have hsub {some others : List (κ × List String)} (hs : SortedGroups before some)
      (ho : SortedGroups before others) (hfull : ∀ e ∈ some, e.2 ≠ [])
      (hsame : ∀ key name, InGroup some key name ↔ InGroup others key name) :
      ∀ e ∈ some, e ∈ others := by
    rintro ⟨key, names⟩ he
    obtain ⟨name, hn⟩ := List.exists_mem_of_ne_nil names (hfull _ he)
    obtain ⟨names', he', -⟩ := ((hsame key name).mp (inGroup_of_mem hs.nodup_keys he hn)).exists_mem
    have hmem (n : String) : n ∈ names ↔ n ∈ names' := by
      have hiff := hsame key n
      rw [InGroup, InGroup, lookup_of_mem hs.nodup_keys he, lookup_of_mem ho.nodup_keys he'] at hiff
      exact hiff
    have hperm : names.Perm names' := (List.perm_ext_iff_of_nodup ((hs.names _ he).imp ne_of_lt)
      ((ho.names _ he').imp ne_of_lt)).mpr hmem
    obtain rfl : names = names' := hperm.eq_of_pairwise (fun _ _ _ _ hab hba =>
      absurd (lt_trans hab hba) (lt_irrefl _)) (hs.names _ he) (ho.names _ he')
    exact he'
  have hperm : groups.Perm groups' :=
    (List.perm_ext_iff_of_nodup h.nodup_keys.of_map h'.nodup_keys.of_map).mpr fun e =>
      ⟨hsub h h' hfull hsame e, hsub h' h hfull' (fun key name => (hsame key name).symm) e⟩
  exact eq_of_perm_of_sorted hperm h.keys h'.keys

omit [DecidableEq κ] in
/-- If no name is in two groups, the names of all groups differ. -/
theorem nodup (h : SortedGroups before groups)
    (hone : ∀ a ∈ groups, ∀ b ∈ groups, ∀ name ∈ a.2, name ∈ b.2 → a.1 = b.1) :
    (groups.flatMap (·.2)).Nodup := by
  rw [List.nodup_flatMap]
  refine ⟨fun e he => (h.names e he).imp ne_of_lt, ?_⟩
  have hkeys := List.pairwise_map.mp h.keys
  refine hkeys.imp_of_mem fun {a b} ha hb hab => ?_
  intro name hna hnb
  have he := hone a ha b hb name hna hnb
  exact irrefl_of (fun a b => before a b = true) b.1 (he ▸ hab)

end SortedGroups

/-! ## Several entries -/

/-- Entries with new keys are added one after the other. -/
theorem foldl_insertSorted_perm {entries : List (κ × α)}
    (h : (table.map (·.1) ++ entries.map (·.1)).Nodup) :
    (entries.foldl (fun table e => insertSorted before e.1 e.2 table) table).Perm
      (table ++ entries) := by
  induction entries generalizing table with
  | nil => simp
  | cons e rest ih =>
    have hnew : e.1 ∉ table.map (·.1) := fun hm =>
      List.disjoint_of_nodup_append h hm List.mem_cons_self
    have hone : (insertSorted before e.1 e.2 table).Perm (e :: table) := insertSorted_perm hnew
    refine (ih ?_).trans ((hone.append_right _).trans List.perm_middle.symm)
    refine (List.Perm.nodup_iff ?_).mpr h
    exact ((hone.map _).append_right _).trans List.perm_middle.symm

/-- A table that entries are added to stays sorted. -/
theorem pairwise_foldl_insertSorted [IsStrictTotalOrder κ fun a b => before a b = true]
    (entries : List (κ × α)) (h : (table.map (·.1)).Pairwise fun a b => before a b = true) :
    ((entries.foldl (fun table e => insertSorted before e.1 e.2 table) table).map (·.1)).Pairwise
      fun a b => before a b = true := by
  induction entries generalizing table with
  | nil => exact h
  | cons e rest ih => exact ih (pairwise_insertSorted h)

/-- What is found for a key of some does not depend on the entries of the others. -/
theorem lookup_filter {part : κ → Bool} (h : part key = true) :
    (table.filter (part ·.1)).lookup key = table.lookup key := by
  induction table with
  | nil => rfl
  | cons entry rest ih =>
    obtain ⟨k, v⟩ := entry
    by_cases hkey : key = k
    · subst hkey
      simp [h]
    · cases hpart : part k <;> simp [List.lookup_cons, beq_false_of_ne hkey, hpart, ih]

/-- A table with further entries, of which a later one replaces an earlier one. -/
def insertEach (table : List (String × α)) (entries : List (String × α)) : List (String × α) :=
  entries.foldl (fun table e => insertByName e.1 e.2 table) table

theorem insertEach_append (table front behind : List (String × α)) :
    insertEach table (front ++ behind) = insertEach (insertEach table front) behind :=
  List.foldl_append

theorem insertEach_nil_perm {entries : List (String × α)} (hkeys : (entries.map (·.1)).Nodup) :
    (insertEach [] entries).Perm entries :=
  foldl_insertSorted_perm hkeys

theorem lookup_insertEach_of_notMem {table entries : List (String × α)} {name : String}
    (h : name ∉ entries.map (·.1)) :
    (insertEach table entries).lookup name = table.lookup name := by
  induction entries generalizing table with
  | nil => rfl
  | cons e rest ih =>
    obtain ⟨hne, hrest⟩ : name ≠ e.1 ∧ name ∉ rest.map (·.1) := by simpa using h
    refine (ih hrest).trans ?_
    rw [lookup_insertByName, if_neg (by simpa using hne)]

theorem lookup_insertEach_of_mem {table entries : List (String × α)}
    (hkeys : (entries.map (·.1)).Nodup) {name : String} (h : (name, value) ∈ entries) :
    (insertEach table entries).lookup name = some value := by
  induction entries generalizing table with
  | nil => cases h
  | cons e rest ih =>
    obtain ⟨hnew, hrest⟩ := List.nodup_cons.mp hkeys
    rcases List.mem_cons.mp h with rfl | h
    · refine (lookup_insertEach_of_notMem hnew).trans ?_
      rw [lookup_insertByName, if_pos (by simp)]
    · exact ih hrest h

theorem mem_of_mem_insertEach {table entries : List (String × α)} {e : String × α}
    (h : e ∈ insertEach table entries) : e ∈ table ∨ e ∈ entries := by
  induction entries generalizing table with
  | nil => exact .inl h
  | cons entry rest ih =>
    rcases ih h with h | h
    · rcases mem_of_mem_insertSorted h with he | h
      · exact .inr (List.mem_cons.mpr (.inl he))
      · exact .inl h
    · exact .inr (List.mem_cons_of_mem _ h)

/-- Whatever name an entry has, one with this name is found. -/
theorem exists_lookup_insertEach {table entries : List (String × α)} {name : String}
    (h : name ∈ entries.map (·.1)) : ∃ value, (name, value) ∈ entries ∧
      (insertEach table entries).lookup name = some value := by
  induction entries generalizing table with
  | nil => cases h
  | cons e rest ih =>
    by_cases hrest : name ∈ rest.map (·.1)
    · obtain ⟨value, hmem, hlookup⟩ := ih hrest
      exact ⟨value, List.mem_cons_of_mem _ hmem, hlookup⟩
    · obtain rfl : name = e.1 := (List.mem_cons.mp h).resolve_right hrest
      refine ⟨e.2, List.mem_cons_self, (lookup_insertEach_of_notMem hrest).trans ?_⟩
      rw [lookup_insertByName, if_pos (by simp)]

/-- With distinct names exactly the entries are found in a table made of them. -/
theorem lookup_insertEach_nil {entries : List (String × α)} (hkeys : (entries.map (·.1)).Nodup)
    {name : String} :
    (insertEach [] entries).lookup name = some value ↔ (name, value) ∈ entries := by
  refine ⟨fun h => ?_, lookup_insertEach_of_mem hkeys⟩
  by_cases hm : name ∈ entries.map (·.1)
  · obtain ⟨⟨n, v⟩, he, rfl⟩ := List.mem_map.mp hm
    rw [lookup_insertEach_of_mem hkeys he] at h
    cases h
    exact he
  · rw [lookup_insertEach_of_notMem hm] at h
    cases h

end SchemaBindings
