import SchemaBindings.Code.Ident
import SchemaBindings.ModuleId
import SchemaBindings.Naming.Table
import SchemaBindings.Proofs.Naming.Words
import SchemaBindings.Proofs.Outcome
import SchemaBindings.SymbolTable

/-!
Names that generated code can use. A schema name is an identifier, and what is made of it for
fields, variants, functions and modules can always name an item. Names of types are kept as they
are, so these can only if the name is not an underscore alone.
-/

namespace SchemaBindings.Naming

open Text Code

/-- A letter or an underscore, and behind it letters, digits and underscores. -/
def isIdentifier (name : String) : Bool :=
  match name.toList with
  | [] => false
  | c :: rest => (c.isAlpha || c == '_') && rest.all fun d => d.isAlphanum || d == '_'

/-- The name can name an item of generated code. -/
structure IsUsable (name : String) : Prop where
  identifier : isIdentifier name = true
  free : name ∉ keywords

variable {name : String}

/-! ## Identifiers -/

theorem isIdentifier_iff : isIdentifier name = true ↔ ∃ c rest, name.toList = c :: rest ∧
    (c.isAlpha || c == '_') = true ∧ ∀ d ∈ rest, (d.isAlphanum || d == '_') = true := by
  unfold isIdentifier
  split
  · next h => simp [h]
  · next c rest h => simp [h]

theorem toNat_lt_of_part {c : Char} (h : (c.isAlphanum || c == '_') = true) : c.toNat < 128 := by
  rcases Bool.or_eq_true_iff.mp h with h | h
  · exact toNat_lt_of_isAlphanum h
  · rw [beq_iff_eq.mp h]
    decide

theorem part_of_start {c : Char} (h : (c.isAlpha || c == '_') = true) :
    (c.isAlphanum || c == '_') = true := by
  rcases Bool.or_eq_true_iff.mp h with h | h <;> simp [Char.isAlphanum, h]

/-- All characters of an identifier. -/
theorem forall_part (h : isIdentifier name = true) :
    ∀ c ∈ name.toList, (c.isAlphanum || c == '_') = true := by
  obtain ⟨c, rest, hname, hc, hrest⟩ := isIdentifier_iff.mp h
  rw [hname]
  exact List.forall_mem_cons.mpr ⟨part_of_start hc, hrest⟩

theorem ascii_of_isIdentifier (h : isIdentifier name = true) : ∀ c ∈ name.toList, c.toNat < 128 :=
  fun c hc => toNat_lt_of_part (forall_part h c hc)

theorem isIdentifier_append {behind : String} (h : isIdentifier name = true)
    (hb : ∀ c ∈ behind.toList, (c.isAlphanum || c == '_') = true) :
    isIdentifier (name ++ behind) = true := by
  obtain ⟨c, rest, hname, hc, hrest⟩ := isIdentifier_iff.mp h
  refine isIdentifier_iff.mpr ⟨c, rest ++ behind.toList, ?_, hc, ?_⟩
  · rw [String.toList_append, hname, List.cons_append]
  · exact List.forall_mem_append.mpr ⟨hrest, hb⟩

/-- An identifier is one of the generated code. -/
theorem ofName_of_isIdentifier (h : isIdentifier name = true) :
    Ident.ofName name = .ok ⟨name⟩ := by
  obtain ⟨c, rest, hname, hc, hrest⟩ := isIdentifier_iff.mp h
  have hmark : afterMark? name.toList = none := by
    unfold afterMark?
    split
    · next behind heq =>
      have hhash := forall_part h '#' (by simp [heq])
      cases hhash
    · rfl
  have hstart : isIdentifierStart c = true := by
    rw [isIdentifierStart, if_pos (toNat_lt_of_part (part_of_start hc)), hc]
  have hcontinue : rest.all isIdentifierContinue = true := by
    refine List.all_eq_true.mpr fun d hd => ?_
    rw [isIdentifierContinue, if_pos (toNat_lt_of_part (hrest d hd)), hrest d hd]
  have hshape : hasIdentifierShape name.toList = true := by
    rw [hname, hasIdentifierShape, hstart, hcontinue, Bool.and_self]
  simp [Ident.ofName, Ident.ofText?, hmark, hshape]

theorem isSome_ofText?_of_isIdentifier (h : isIdentifier name = true) :
    (Ident.ofText? name).isSome = true := by
  have hname := ofName_of_isIdentifier h
  unfold Ident.ofName at hname
  split at hname
  · next heq => rw [heq]; rfl
  · cases hname

theorem ofNames_of_isIdentifier {names : List String}
    (h : ∀ name ∈ names, isIdentifier name = true) :
    names.mapM Ident.ofName = .ok (names.map Ident.mk) := by
  rw [mapM_ok, List.forall₂_map_right_iff, List.forall₂_same]
  exact fun name hn => ofName_of_isIdentifier (h name hn)

namespace IsUsable

theorem ofName (h : IsUsable name) : Ident.ofName name = .ok ⟨name⟩ :=
  ofName_of_isIdentifier h.identifier

theorem isName (h : IsUsable name) : (Ident.mk name).isName = true := by
  simpa [Ident.isName] using h.free

theorem ne_try (h : IsUsable name) : name ≠ "try" := by
  rintro rfl
  exact h.free (by decide)

theorem isSome_ofText? (h : IsUsable name) : (Ident.ofText? name).isSome = true :=
  isSome_ofText?_of_isIdentifier h.identifier

end IsUsable

theorem mapM_ofName {names : List String} (h : ∀ name ∈ names, IsUsable name) :
    names.mapM Ident.ofName = .ok (names.map Ident.mk) :=
  ofNames_of_isIdentifier fun name hn => (h name hn).identifier

/-! ## Making names usable -/

/-- No keyword but the underscore ends in an underscore. -/
theorem isUsable_append_underscore (h : isIdentifier name = true) : IsUsable (name ++ "_") where
  identifier := isIdentifier_append h (by simp)
  free := by
    intro hmem
    have hkeywords : ∀ k ∈ keywords, k.toList.getLast? = some '_' → k.toList.length = 1 := by
      decide
    obtain ⟨c, rest, hname, -⟩ := isIdentifier_iff.mp h
    have hlength := hkeywords _ hmem (by simp [String.toList_append])
    simp [String.toList_append, hname] at hlength

/-- No keyword but the underscore begins with an underscore. -/
theorem underscored_notMem_keywords (h : name.toList ≠ []) : "_" ++ name ∉ keywords := by
  intro hmem
  have hkeywords : ∀ k ∈ keywords, k.toList.head? = some '_' → k.toList.length = 1 := by
    decide
  have hlength := hkeywords _ hmem (by simp [String.toList_append])
  simp [String.toList_append, h] at hlength

/-- A safe identifier is no keyword but the underscore, whatever it is made of. -/
theorem notMem_safeIdentifier (hn : name ≠ "_") : safeIdentifier name ∉ keywords := by
  intro hmem
  unfold safeIdentifier at hmem
  split at hmem
  · next hr =>
    have hwords : ∀ word ∈ reservedWords, word ++ "_" ∉ keywords := by decide
    exact hwords name (by simpa [isReserved] using hr) hmem
  · next hr =>
    have hkeywords : ∀ k ∈ keywords, k = "_" ∨ k ∈ reservedWords := by decide
    rcases hkeywords name hmem with he | he
    · exact hn he
    · exact hr (by simpa [isReserved] using he)

theorem isUsable_safeIdentifier (h : isIdentifier name = true) (hn : name ≠ "_") :
    IsUsable (safeIdentifier name) where
  identifier := by
    unfold safeIdentifier
    split
    · exact (isUsable_append_underscore h).identifier
    · exact h
  free := notMem_safeIdentifier hn

/-- Names of types are usable, but for the underscore. -/
theorem isUsable_typeName (h : isIdentifier name = true) (hn : name ≠ "_") :
    IsUsable (typeName name) :=
  isUsable_safeIdentifier h hn

/-- The underscore is kept as the name of a type, which it cannot be. -/
theorem typeName_underscore : typeName "_" ∈ keywords := by decide

theorem isIdentifier_typeName (h : isIdentifier name = true) :
    isIdentifier (typeName name) = true := by
  unfold typeName safeIdentifier
  split
  · exact (isUsable_append_underscore h).identifier
  · exact h

/-- What words are joined to becomes usable. -/
theorem isUsable_usableIdentifier {fallback : String} (hf : IsUsable fallback)
    (h : IsJoined name.toList) : IsUsable (usableIdentifier name fallback) := by
  unfold usableIdentifier
  rcases h with hnil | ⟨c, rest, hname, hc, hrest⟩
  · rw [hnil]
    exact hf
  · rw [hname]
    dsimp only
    split
    · next hdigit =>
      have hlist : ("_" ++ name).toList = '_' :: c :: rest := by
        rw [String.toList_append, hname]
        rfl
      refine ⟨isIdentifier_iff.mpr ⟨'_', c :: rest, hlist, by decide, ?_⟩,
        underscored_notMem_keywords (by simp [hname])⟩
      exact List.forall_mem_cons.mpr ⟨by simp [hc], hrest⟩
    · next hdigit =>
      have halpha : c.isAlpha = true := by simpa [Char.isAlphanum, hdigit] using hc
      refine isUsable_safeIdentifier (isIdentifier_iff.mpr ⟨c, rest, hname, ?_, hrest⟩) ?_
      · simp [halpha]
      · rintro rfl
        obtain rfl : '_' = c := (List.cons.inj hname).1
        cases halpha

theorem isUsable_fieldName (h : ∀ c ∈ name.toList, c.toNat < 128) : IsUsable (fieldName name) :=
  isUsable_usableIdentifier ⟨by decide, by decide⟩ (isJoined_snakeCase h)

theorem isUsable_methodName (h : ∀ c ∈ name.toList, c.toNat < 128) : IsUsable (methodName name) :=
  isUsable_usableIdentifier ⟨by decide, by decide⟩ (isJoined_snakeCase h)

theorem isUsable_moduleName (h : ∀ c ∈ name.toList, c.toNat < 128) : IsUsable (moduleName name) :=
  isUsable_usableIdentifier ⟨by decide, by decide⟩ (isJoined_snakeCase h)

theorem isUsable_variantName (h : ∀ c ∈ name.toList, c.toNat < 128) :
    IsUsable (variantName name) :=
  isUsable_usableIdentifier ⟨by decide, by decide⟩ (isJoined_upperCamelCase h)

/-- A name with a prefix is never an underscore alone. -/
theorem prefixed_ne_underscore {asyncPrefix : String} (hp : asyncPrefix ≠ "")
    (h : isIdentifier name = true) : asyncPrefix ++ typeName name ≠ "_" := by
  intro he
  obtain ⟨d, others, hd, -⟩ := isIdentifier_iff.mp (isIdentifier_typeName h)
  have hempty : asyncPrefix.toList ≠ [] := fun hnil => hp (String.toList_eq_nil_iff.mp hnil)
  obtain ⟨c, rest, hc⟩ := List.exists_cons_of_ne_nil hempty
  have hlength := congrArg (fun n => n.toList.length) he
  simp [String.toList_append, hc, hd] at hlength

theorem isUsable_suspendingName {asyncPrefix : String} (hp : isIdentifier asyncPrefix = true)
    {s : Service} (h : isIdentifier s.name = true) :
    IsUsable (SymbolTable.suspendingName asyncPrefix s) := by
  have hempty : asyncPrefix ≠ "" := by
    rintro rfl
    cases hp
  exact isUsable_typeName (isIdentifier_append hp (forall_part (isIdentifier_typeName h)))
    (prefixed_ne_underscore hempty h)

/-- Underscores behind a usable name leave it usable. -/
theorem IsUsable.firstFree {taken : List String} {more : Nat} (h : IsUsable name) :
    IsUsable (Table.firstFree taken more name) := by
  induction more generalizing name with
  | zero => exact h
  | succ more ih =>
    rw [Table.firstFree]
    split
    · exact ih (isUsable_append_underscore h.identifier)
    · exact h

theorem IsUsable.assignUnique (t : Table) (h : IsUsable name) :
    IsUsable (t.assignUnique name).1 :=
  h.firstFree

/-! ## Reserved words -/

/-- No reserved word ends in an underscore. -/
theorem isReserved_safeIdentifier : isReserved (safeIdentifier name) = false := by
  unfold safeIdentifier
  split
  · have hwords : ∀ word ∈ reservedWords, word.toList.getLast? ≠ some '_' := by decide
    rw [isReserved, List.contains_eq_mem, decide_eq_false_iff_not]
    exact fun hmem => hwords _ hmem (by simp [String.toList_append])
  · next hfree => exact Bool.eq_false_iff.mpr hfree

/-- No reserved word begins with an underscore. -/
theorem isReserved_usableIdentifier {fallback : String} (hf : isReserved fallback = false) :
    isReserved (usableIdentifier name fallback) = false := by
  unfold usableIdentifier
  split
  · exact hf
  split
  · have hwords : ∀ word ∈ reservedWords, word.toList.head? ≠ some '_' := by decide
    rw [isReserved, List.contains_eq_mem, decide_eq_false_iff_not]
    exact fun hmem => hwords _ hmem (by simp [String.toList_append])
  · exact isReserved_safeIdentifier

/-! ## Modules -/

theorem mem_intercalate {sep : List Char} {parts : List (List Char)} {part : List Char}
    (h : part ∈ parts) : ∀ c ∈ part, c ∈ sep.intercalate parts := by
  intro c hc
  induction parts with
  | nil => cases h
  | cons first rest ih =>
    cases rest with
    | nil =>
      rw [List.intercalate_singleton]
      exact List.mem_singleton.mp h ▸ hc
    | cons second others =>
      rw [List.intercalate_cons_cons]
      rcases List.mem_cons.mp h with rfl | h
      · exact List.mem_append_left _ (List.mem_append_left _ hc)
      · exact List.mem_append_right _ (ih h)

/-- A component of a path is a part of its text. -/
theorem mem_of_mem_components {path name : String}
    (h : .normal name ∈ FilePath.components path) : ∀ c ∈ name.toList, c ∈ path.toList := by
  have hsteps {pieces : List String} (h : .normal name ∈ pieces.filterMap FilePath.stepOf?) :
      name ∈ pieces := by
    obtain ⟨piece, hmem, hstep⟩ := List.mem_filterMap.mp h
    unfold FilePath.stepOf? at hstep
    split at hstep <;> cases hstep
    exact hmem
  have hpiece : name ∈ FilePath.pieces path := by
    unfold FilePath.components at h
    split at h
    · cases h
    · cases h
    · next rest heq =>
      rw [heq]
      exact List.mem_cons_of_mem _ (hsteps (by simpa using h))
    · next rest heq =>
      rw [heq]
      exact List.mem_cons_of_mem _ (hsteps (by simpa using h))
    · exact hsteps h
  obtain ⟨piece, hsplit, rfl⟩ := List.mem_map.mp hpiece
  rw [String.toList_ofList, ← @List.intercalate_splitOn _ path.toList _ _ '/']
  exact mem_intercalate hsplit

theorem ascii_stem {path stem : String} (h : ∀ c ∈ path.toList, c.toNat < 128)
    (hs : FilePath.stem? path = some stem) : ∀ c ∈ stem.toList, c.toNat < 128 := by
  obtain ⟨name, hname, rfl⟩ := Option.map_eq_some_iff.mp hs
  have hcomponent : .normal name ∈ FilePath.components path := by
    unfold FilePath.fileName? at hname
    split at hname <;> cases hname
    exact List.mem_of_getLast? ‹_›
  intro c hc
  refine h c (mem_of_mem_components hcomponent c ?_)
  unfold FilePath.splitName at hc
  dsimp only at hc
  split at hc
  · exact hc
  · rw [String.toList_ofList] at hc
    exact List.mem_of_mem_take hc

theorem isReserved_segment {path : String} (h : name ∈ (ModuleId.ofSchemaPath path).segments) :
    isReserved name = false := by
  obtain ⟨piece, -, rfl⟩ := List.mem_map.mp h
  exact isReserved_usableIdentifier (by decide)

/-- A module of usable names has a path. -/
theorem path_of_isUsable {m : ModuleId} (h : ∀ name ∈ m.segments, IsUsable name)
    (root : Code.Path) : m.path root = .ok (root.appendIdents (m.segments.map Ident.mk)) := by
  rw [ModuleId.path, mapM_ofName h]
  rfl

/-- The modules of schema files with ASCII paths consist of usable names. -/
theorem isUsable_segments {path : String} (h : ∀ c ∈ path.toList, c.toNat < 128) :
    ∀ name ∈ (ModuleId.ofSchemaPath path).segments, IsUsable name := by
  intro name hn
  obtain ⟨piece, hpiece, rfl⟩ := List.mem_map.mp hn
  refine isUsable_moduleName ?_
  rcases List.mem_append.mp hpiece with hd | hs
  · obtain ⟨component, hmem, hcomponent⟩ := List.mem_filterMap.mp hd
    split at hcomponent <;> cases hcomponent
    exact fun c hc => h c (mem_of_mem_components (List.dropLast_subset _ hmem) c hc)
  · exact ascii_stem h (Option.mem_toList.mp hs)

end SchemaBindings.Naming
