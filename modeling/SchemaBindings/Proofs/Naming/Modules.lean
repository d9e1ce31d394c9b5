import Mathlib.Data.List.TakeWhile
import SchemaBindings.Proofs.Lookup
import SchemaBindings.Proofs.Naming.Identifiers
import SchemaBindings.Proofs.Schema.Definitions

/-!
The modules of schema files by their names. What a schema file is called never takes part in the
punctuation of names or in the files of an index, so a module is known by its text and by the path
that it is written to.
-/

namespace SchemaBindings

/-! ## Marks -/

namespace Text

theorem mem_of_mem_intercalate {sep : List Char} {parts : List (List Char)} {c : Char}
    (h : c ∈ sep.intercalate parts) : c ∈ sep ∨ ∃ part ∈ parts, c ∈ part := by
  induction parts with
  | nil => cases h
  | cons first rest ih =>
    cases rest with
    | nil =>
      rw [List.intercalate_singleton] at h
      exact .inr ⟨first, List.mem_cons_self, h⟩
    | cons second others =>
      rw [List.intercalate_cons_cons] at h
      rcases List.mem_append.mp h with h | h
      · rcases List.mem_append.mp h with h | h
        · exact .inr ⟨first, List.mem_cons_self, h⟩
        · exact .inl h
      · exact (ih h).imp_right fun ⟨part, hp, hc⟩ => ⟨part, List.mem_cons_of_mem _ hp, hc⟩

/-- A mark of ASCII that is neither a word character nor beyond the digits. -/
structure IsMark (b : Char) : Prop where
  word : isWordChar b = false
  range : 32 < b.toNat ∧ b.toNat ≤ 58

theorem isMark_colon : IsMark ':' := by
  constructor <;> decide

theorem isMark_dot : IsMark '.' := by
  constructor <;> decide

theorem isMark_slash : IsMark '/' := by
  constructor <;> decide

theorem isMark_hash : IsMark '#' := by
  constructor <;> decide

namespace IsMark

variable {b : Char}

theorem ne_ofNat (hb : IsMark b) {n : Nat} (h : 58 < n) : b ≠ Char.ofNat n := by
  have hn : (Char.ofNat n).toNat = n ∨ (Char.ofNat n).toNat = 0 := by
    by_cases hvalid : n.isValidChar
    · exact .inl (by rw [Char.ofNat, dif_pos hvalid]; rfl)
    · exact .inr (by rw [Char.ofNat, dif_neg hvalid]; rfl)
  obtain ⟨hlow, hhigh⟩ := hb.range
  intro he
  rw [← he] at hn
  omega

theorem ne_of_isWordChar (hb : IsMark b) {c : Char} (h : isWordChar c = true) : b ≠ c := by
  rintro rfl
  rw [hb.word] at h
  cases h

theorem ne_of_isAlphanum (hb : IsMark b) {c : Char} (h : c.isAlphanum = true) : b ≠ c := by
  refine hb.ne_of_isWordChar ?_
  rwa [isWordChar, if_pos (toNat_lt_of_isAlphanum h)]

/-- No image of a letter stands before the colon if no run of images begins there. -/
theorem ne_image (hb : IsMark b) {runs : List CaseRun} {c n : Nat}
    (hruns : ∀ r ∈ runs, 58 < r.target) (h : runs.findSome? (·.image? c) = some n) :
    b ≠ Char.ofNat n := by
  obtain ⟨r, hr, himage⟩ := List.exists_of_findSome?_eq_some h
  have htarget := hruns r hr
  refine hb.ne_ofNat ?_
  unfold CaseRun.image? at himage
  split at himage
  · have hle := Option.some.inj himage
    omega
  · cases himage

theorem notMem_lowercaseImage (hb : IsMark b) {c : Char} (h : isWordChar c = true) :
    b ∉ lowercaseImage c := by
  unfold lowercaseImage
  split
  · next hc =>
    have hlower := (isAlphanum_case (isAlphanum_of_isWordChar hc h)).1
    exact fun hm => hb.ne_of_isAlphanum hlower (List.mem_singleton.mp hm)
  split
  · have hi : b ≠ 'i' := hb.ne_of_isWordChar (by decide)
    have hdot := hb.ne_ofNat (n := 775) (by decide)
    simp [hi, hdot]
  split
  · next n hn =>
    have hruns : ∀ r ∈ lowercaseRuns, 58 < r.target := by decide +kernel
    exact fun hm => hb.ne_image hruns hn (List.mem_singleton.mp hm)
  · exact fun hm => hb.ne_of_isWordChar h (List.mem_singleton.mp hm)

theorem notMem_uppercaseImage (hb : IsMark b) {c : Char} (h : isWordChar c = true) :
    b ∉ uppercaseImage c := by
  unfold uppercaseImage
  split
  · next hc =>
    have hupper := (isAlphanum_case (isAlphanum_of_isWordChar hc h)).2
    exact fun hm => hb.ne_of_isAlphanum hupper (List.mem_singleton.mp hm)
  split
  · next ns hns =>
    have hexpansions : ∀ e ∈ uppercaseExpansions, ∀ n ∈ e.2, 58 < n := by decide +kernel
    intro hm
    obtain ⟨n, hn, he⟩ := List.mem_map.mp hm
    exact hb.ne_ofNat (hexpansions _ (mem_of_lookup hns) n hn) he.symm
  split
  · next n hn =>
    have hruns : ∀ r ∈ uppercaseRuns, 58 < r.target := by decide +kernel
    exact fun hm => hb.ne_image hruns hn (List.mem_singleton.mp hm)
  · exact fun hm => hb.ne_of_isWordChar h (List.mem_singleton.mp hm)

theorem notMem_lowercaseWord (hb : IsMark b) {w : List Char} (h : ∀ c ∈ w, isWordChar c = true) :
    b ∉ lowercaseWord w := by
  induction w using List.twoStepInduction with
  | nil => exact List.not_mem_nil
  | singleton c =>
    rw [lowercaseWord]
    split
    · intro hm
      exact hb.ne_ofNat (n := 962) (by decide) (List.mem_singleton.mp hm)
    · exact hb.notMem_lowercaseImage (h c List.mem_cons_self)
  | cons_cons c next rest _ ih =>
    obtain ⟨hc, hrest⟩ := List.forall_mem_cons.mp h
    rw [lowercaseWord]
    · intro hm
      rcases List.mem_append.mp hm with hm | hm
      · exact hb.notMem_lowercaseImage hc hm
      · exact ih next hrest hm
    · simp

theorem notMem_snakeCase (hb : IsMark b) (s : String) : b ∉ (snakeCase s).toList := by
  rw [snakeCase, String.toList_ofList]
  intro hm
  rcases mem_of_mem_intercalate hm with hm | ⟨part, hpart, hm⟩
  · exact hb.ne_ofNat (n := 95) (by decide) (List.mem_singleton.mp hm)
  · obtain ⟨w, hw, rfl⟩ := List.mem_map.mp hpart
    exact hb.notMem_lowercaseWord (fun c hc => ((mem_words hw).2 c hc).1) hm

theorem notMem_capitalizedWord (hb : IsMark b) {w : List Char}
    (h : ∀ c ∈ w, isWordChar c = true) : b ∉ capitalizedWord w := by
  cases w with
  | nil => exact List.not_mem_nil
  | cons c rest =>
    obtain ⟨hc, hrest⟩ := List.forall_mem_cons.mp h
    rw [capitalizedWord, List.mem_append, not_or]
    exact ⟨hb.notMem_uppercaseImage hc, hb.notMem_lowercaseWord hrest⟩

theorem notMem_upperCamelCase (hb : IsMark b) (s : String) : b ∉ (upperCamelCase s).toList := by
  rw [upperCamelCase, String.toList_ofList]
  intro hm
  obtain ⟨w, hw, hm⟩ := List.mem_flatMap.mp hm
  exact hb.notMem_capitalizedWord (fun c hc => ((mem_words hw).2 c hc).1) hm

end IsMark

/-- Texts without colons can be read off what they are joined to by two colons each. -/
theorem eq_of_intercalate_colons {parts parts' : List (List Char)}
    (h : ∀ part ∈ parts, part ≠ [] ∧ ':' ∉ part) (h' : ∀ part ∈ parts', part ≠ [] ∧ ':' ∉ part)
    (he : [':', ':'].intercalate parts = [':', ':'].intercalate parts') : parts = parts' := by
  -- behind a part stands nothing or a colon, so the part ends at the first colon
  have ends {part : List Char} (hp : ':' ∉ part) (rest : List (List Char)) :
      ([':', ':'].intercalate (part :: rest)).takeWhile (· != ':') = part := by
    have hall : ∀ c ∈ part, (c != ':') = true := fun c hc =>
      bne_iff_ne.mpr fun he => hp (he ▸ hc)
    cases rest with
    | nil => rw [List.intercalate_singleton, List.takeWhile_eq_self_iff.mpr hall]
    | cons second others =>
      rw [List.intercalate_cons_cons, List.append_assoc, List.takeWhile_append_of_pos hall]
      simp
  have nonempty {part : List Char} (hp : part ≠ []) (rest : List (List Char)) :
      [':', ':'].intercalate (part :: rest) ≠ [] := by
    cases rest <;> simp [List.intercalate_cons_cons, hp]
  induction parts generalizing parts' with
  | nil =>
    cases parts' with
    | nil => rfl
    | cons part' rest' => exact absurd he.symm (nonempty (h' part' List.mem_cons_self).1 rest')
  | cons part rest ih =>
    obtain ⟨hpart, hrest⟩ := List.forall_mem_cons.mp h
    cases parts' with
    | nil => exact absurd he (nonempty hpart.1 rest)
    | cons part' rest' =>
      obtain ⟨hpart', hrest'⟩ := List.forall_mem_cons.mp h'
      obtain rfl : part = part' := by
        rw [← ends hpart.2 rest, he, ends hpart'.2 rest']
      congr 1
      refine ih hrest hrest' ?_
      cases rest <;> cases rest' <;> simp_all [List.intercalate_cons_cons]

end Text

/-! ## Names of modules -/

namespace Naming

variable {name fallback : String}

theorem usableIdentifier_ne_nil (hf : fallback.toList ≠ []) :
    (usableIdentifier name fallback).toList ≠ [] := by
  unfold usableIdentifier
  split
  · exact hf
  · next c rest hname =>
    split
    · simp [String.toList_append]
    · unfold safeIdentifier
      split <;> simp [String.toList_append, hname]

/-- No mark gets into a name that is made usable. -/
theorem notMem_usableIdentifier {b : Char} (hb : Text.IsMark b) (hname : b ∉ name.toList)
    (hf : fallback.toList.all Text.isWordChar = true) :
    b ∉ (usableIdentifier name fallback).toList := by
  have hunderscore : b ≠ '_' := hb.ne_ofNat (n := 95) (by decide)
  unfold usableIdentifier
  split
  · exact fun hm => hb.ne_of_isWordChar (List.all_eq_true.mp hf b hm) rfl
  split
  · simp [String.toList_append, hname, hunderscore]
  · unfold safeIdentifier
    split <;> simp [String.toList_append, hname, hunderscore]

theorem moduleName_ne_nil (name : String) : (moduleName name).toList ≠ [] :=
  usableIdentifier_ne_nil (by decide)

theorem variantName_ne_nil (name : String) : (variantName name).toList ≠ [] :=
  usableIdentifier_ne_nil (by decide)

theorem notMem_moduleName {b : Char} (hb : Text.IsMark b) (name : String) :
    b ∉ (moduleName name).toList :=
  notMem_usableIdentifier hb (hb.notMem_snakeCase name) (by decide)

theorem notMem_variantName {b : Char} (hb : Text.IsMark b) (name : String) :
    b ∉ (variantName name).toList :=
  notMem_usableIdentifier hb (hb.notMem_upperCamelCase name) (by decide)

end Naming

/-- A module is known by its text. -/
theorem SchemaFile.module_eq_of_text {f f' : SchemaFile} (h : f.module.text = f'.module.text) :
    f.module = f'.module := by
  have hparts (f : SchemaFile) :
      ∀ part ∈ f.module.segments.map String.toList, part ≠ [] ∧ ':' ∉ part := by
    intro part hm
    obtain ⟨segment, hs, rfl⟩ := List.mem_map.mp hm
    obtain ⟨name, -, rfl⟩ := List.mem_map.mp hs
    exact ⟨Naming.moduleName_ne_nil name, Naming.notMem_moduleName Text.isMark_colon name⟩
  have hlist := congrArg String.toList h
  rw [ModuleId.text, ModuleId.text, String.toList_intercalate, String.toList_intercalate] at hlist
  have hsegments := Text.eq_of_intercalate_colons (hparts f) (hparts f') hlist
  have htexts : Function.Injective (List.map String.toList) :=
    List.map_injective_iff.mpr fun _ _ => String.toList_inj.mp
  exact congrArg ModuleId.mk (htexts hsegments)

/-! ## Where modules are written to -/

namespace ModuleId

/-- A name that a module can have: it is not empty and neither leads elsewhere nor has an
extension. -/
structure IsSegment (segment : String) : Prop where
  nonempty : segment ≠ ""
  dot : '.' ∉ segment.toList
  slash : '/' ∉ segment.toList

theorem isSegment_moduleName (name : String) : IsSegment (Naming.moduleName name) where
  nonempty := fun h => Naming.moduleName_ne_nil name (h ▸ rfl)
  dot := Naming.notMem_moduleName Text.isMark_dot name
  slash := Naming.notMem_moduleName Text.isMark_slash name

theorem isSegment_mod : IsSegment "mod" := by
  constructor <;> decide

theorem outputPath_concat (front : List String) (last : String) :
    (ModuleId.mk (front ++ [last])).outputPath = front ++ [last ++ ".rs"] := by
  simp [outputPath]

/-- A module is known by its path. -/
theorem outputPath_injective : Function.Injective outputPath := by
  rintro ⟨segments⟩ ⟨segments'⟩ h
  rcases List.eq_nil_or_concat' segments with rfl | ⟨front, last, rfl⟩ <;>
    rcases List.eq_nil_or_concat' segments' with rfl | ⟨front', last', rfl⟩
  · rfl
  · simp [outputPath] at h
  · simp [outputPath] at h
  · rw [outputPath_concat, outputPath_concat] at h
    obtain ⟨rfl, hlast⟩ := List.append_inj' h rfl
    rw [(String.append_left_inj _).mp (List.singleton_inj.mp hlast)]

end ModuleId

theorem SchemaFile.isSegment_of_mem {f : SchemaFile} {segment : String}
    (h : segment ∈ f.module.segments) : ModuleId.IsSegment segment := by
  obtain ⟨name, -, rfl⟩ := List.mem_map.mp h
  exact ModuleId.isSegment_moduleName name

/-- No directory and no schema file gives a module the name that files of an index have. -/
theorem SchemaFile.segment_ne_mod {f : SchemaFile} {segment : String}
    (h : segment ∈ f.module.segments) : segment ≠ "mod" := by
  rintro rfl
  exact absurd (Naming.isReserved_segment h) (by decide)

/-- A schema file never takes the place of an index. -/
theorem SchemaFile.outputPath_ne (f : SchemaFile) (segments : List String) :
    f.module.outputPath ≠ segments ++ ["mod.rs"] := by
  intro h
  obtain ⟨⟨own⟩, hown⟩ : ∃ m, m = f.module := ⟨_, rfl⟩
  have hsegment {segment : String} (hm : segment ∈ own) : segment ≠ "mod" :=
    f.segment_ne_mod (hown ▸ hm)
  rw [← hown] at h
  rcases List.eq_nil_or_concat' own with rfl | ⟨front, last, rfl⟩
  · simp [ModuleId.outputPath] at h
  · rw [ModuleId.outputPath_concat] at h
    have hlast := List.singleton_inj.mp (List.append_inj' h rfl).2
    exact hsegment (by simp) ((String.append_left_inj ".rs").mp hlast)

end SchemaBindings
