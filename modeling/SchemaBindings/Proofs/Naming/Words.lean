import Mathlib.Data.List.Induction
import SchemaBindings.Text.Words

/-!
The words of a name, and what they are joined to. Words are never empty and hold nothing that the
name does not hold; those of an ASCII name stay letters and digits in either case.
-/

namespace SchemaBindings.Text

/-! ## ASCII letters and digits -/

theorem toNat_lt_of_isAlphanum {c : Char} (h : c.isAlphanum = true) : c.toNat < 128 := by
  delta Char.isAlphanum Char.isAlpha Char.isUpper Char.isLower Char.isDigit at h
  simp only [Bool.or_eq_true, Bool.and_eq_true, decide_eq_true_eq, UInt32.le_iff_toNat_le,
    Char.reduceVal, UInt32.reduceToNat, Char.toNat_val] at h
  omega

/-- Changing the case of a letter or digit leads to a letter or digit. -/
theorem isAlphanum_case {c : Char} (h : c.isAlphanum = true) :
    c.toLower.isAlphanum = true ∧ c.toUpper.isAlphanum = true := by
  have hall : ∀ n < 128, (Char.ofNat n).isAlphanum = true →
      (Char.ofNat n).toLower.isAlphanum = true ∧ (Char.ofNat n).toUpper.isAlphanum = true := by
    decide +kernel
  have hc := hall c.toNat (toNat_lt_of_isAlphanum h)
  rw [Char.ofNat_toNat] at hc
  exact hc h

theorem isAlphanum_of_isWordChar {c : Char} (hc : c.toNat < 128) (h : isWordChar c = true) :
    c.isAlphanum = true := by
  rwa [isWordChar, if_pos hc] at h

/-! ## Words -/

/-- The runs of word characters. -/
theorem mem_runs {run s r : List Char} (hrun : ∀ c ∈ run, isWordChar c = true)
    (h : r ∈ runs run s) : ∀ c ∈ r, isWordChar c = true ∧ (c ∈ run ∨ c ∈ s) := by
  induction s generalizing run with
  | nil =>
    rw [runs] at h
    split at h
    · cases h
    · obtain rfl := List.mem_singleton.mp h
      exact fun c hc => ⟨hrun c (List.mem_reverse.mp hc), .inl (List.mem_reverse.mp hc)⟩
  | cons d rest ih =>
    rw [runs] at h
    split at h
    · next hd =>
      intro c hc
      obtain ⟨hword, hmem⟩ := ih (List.forall_mem_cons.mpr ⟨hd, hrun⟩) h c hc
      exact ⟨hword, by grind⟩
    split at h
    · intro c hc
      obtain ⟨hword, hmem⟩ := ih (List.forall_mem_nil _) h c hc
      exact ⟨hword, by grind⟩
    · rcases List.mem_cons.mp h with rfl | h
      · exact fun c hc => ⟨hrun c (List.mem_reverse.mp hc), .inl (List.mem_reverse.mp hc)⟩
      · intro c hc
        obtain ⟨hword, hmem⟩ := ih (List.forall_mem_nil _) h c hc
        exact ⟨hword, by grind⟩

/-- A run is split into words that are not empty: a cased letter is remembered only where the
current word holds it. -/
theorem mem_splitRun {mode : WordMode} {word s w : List Char}
    (hmode : mode ≠ .boundary → word ≠ []) (h : w ∈ splitRun mode word s) :
    w ≠ [] ∧ ∀ c ∈ w, c ∈ word ∨ c ∈ s := by
  induction s using List.twoStepInduction generalizing mode word with
  | nil =>
    rw [splitRun] at h
    split at h
    · cases h
    · next hne =>
      obtain rfl := List.mem_singleton.mp h
      exact ⟨by simpa using hne, fun c hc => .inl (List.mem_reverse.mp hc)⟩
  | singleton d =>
    obtain rfl := List.mem_singleton.mp h
    exact ⟨by simp, fun c hc => by simpa [or_comm] using hc⟩
  | cons_cons d next rest _ ih =>
    rw [splitRun] at h
    generalize (if isLowercase d = true then WordMode.lowercase
      else if isUppercase d = true then .uppercase else mode) = entered at h
    split at h
    · rcases List.mem_cons.mp h with rfl | h
      · exact ⟨by simp, fun c hc => by grind⟩
      · obtain ⟨hne, hmem⟩ := ih next (by simp) h
        exact ⟨hne, fun c hc => by grind⟩
    split at h
    · next hup =>
      rcases List.mem_cons.mp h with rfl | h
      · have hword : word ≠ [] := hmode (by simp [hup.1])
        exact ⟨by simpa using hword, fun c hc => .inl (List.mem_reverse.mp hc)⟩
      · obtain ⟨hne, hmem⟩ := ih next (by simp) h
        exact ⟨hne, fun c hc => by grind⟩
    · obtain ⟨hne, hmem⟩ := ih next (by simp) h
      exact ⟨hne, fun c hc => by grind⟩

theorem mem_words {s w : List Char} (h : w ∈ words s) :
    w ≠ [] ∧ ∀ c ∈ w, isWordChar c = true ∧ c ∈ s := by
  obtain ⟨r, hr, hw⟩ := List.mem_flatMap.mp h
  obtain ⟨hne, hmem⟩ := mem_splitRun (by simp) hw
  refine ⟨hne, fun c hc => ?_⟩
  obtain ⟨hword, hs⟩ := mem_runs (List.forall_mem_nil _) hr c ((hmem c hc).resolve_left (by simp))
  exact ⟨hword, hs.resolve_left (by simp)⟩

/-! ## Words put together -/

/-- What the words of an ASCII name become: nothing, or something that begins with a letter or a
digit and goes on with letters, digits and underscores. -/
def IsJoined (cs : List Char) : Prop :=
  cs = [] ∨ ∃ c rest, cs = c :: rest ∧ c.isAlphanum = true ∧
    ∀ d ∈ rest, (d.isAlphanum || d == '_') = true

theorem IsJoined.of_alphanum {cs : List Char} (h : ∀ c ∈ cs, c.isAlphanum = true) :
    IsJoined cs := by
  cases cs with
  | nil => exact .inl rfl
  | cons c rest =>
    obtain ⟨hc, hrest⟩ := List.forall_mem_cons.mp h
    exact .inr ⟨c, rest, rfl, hc, fun d hd => by simp [hrest d hd]⟩

theorem IsJoined.intercalate {ws : List (List Char)}
    (h : ∀ w ∈ ws, w ≠ [] ∧ ∀ c ∈ w, c.isAlphanum = true) :
    IsJoined (['_'].intercalate ws) := by
  induction ws with
  | nil => exact .inl rfl
  | cons w rest ih =>
    obtain ⟨⟨hne, hw⟩, hrest⟩ := List.forall_mem_cons.mp h
    cases rest with
    | nil =>
      rw [List.intercalate_singleton]
      exact .of_alphanum hw
    | cons v others =>
      rw [List.intercalate_cons_cons]
      obtain ⟨c, cs, rfl⟩ := List.exists_cons_of_ne_nil hne
      obtain ⟨hc, hcs⟩ := List.forall_mem_cons.mp hw
      refine .inr ⟨c, _, rfl, hc, fun d hd => ?_⟩
      rcases List.mem_append.mp hd with hd | hd
      · rcases List.mem_append.mp hd with hd | hd
        · simp [hcs d hd]
        · simp [List.mem_singleton.mp hd]
      · rcases ih hrest with hnil | ⟨e, es, heq, he, hes⟩
        · rw [hnil] at hd
          cases hd
        · rw [heq] at hd
          rcases List.mem_cons.mp hd with rfl | hd
          · simp [he]
          · exact hes d hd

theorem lowercaseWord_eq {w : List Char} (h : ∀ c ∈ w, c.isAlphanum = true) :
    lowercaseWord w = w.map Char.toLower := by
  induction w using List.twoStepInduction with
  | nil => rfl
  | singleton c =>
    have hc := toNat_lt_of_isAlphanum (h c List.mem_cons_self)
    have hsigma : c ≠ 'Σ' := by
      rintro rfl
      exact absurd hc (by decide)
    rw [lowercaseWord, if_neg hsigma, lowercaseImage, if_pos hc, List.map_singleton]
  | cons_cons c next rest _ ih =>
    obtain ⟨hc, hrest⟩ := List.forall_mem_cons.mp h
    rw [lowercaseWord, lowercaseImage, if_pos (toNat_lt_of_isAlphanum hc), ih next hrest]
    · rfl
    · simp

theorem capitalizedWord_alphanum {w : List Char} (h : ∀ c ∈ w, c.isAlphanum = true) :
    ∀ c ∈ capitalizedWord w, c.isAlphanum = true := by
  cases w with
  | nil => exact List.forall_mem_nil _
  | cons c rest =>
    obtain ⟨hc, hrest⟩ := List.forall_mem_cons.mp h
    rw [capitalizedWord, uppercaseImage, if_pos (toNat_lt_of_isAlphanum hc),
      lowercaseWord_eq hrest]
    intro d hd
    rcases List.mem_append.mp hd with hd | hd
    · exact List.mem_singleton.mp hd ▸ (isAlphanum_case hc).2
    · obtain ⟨e, he, rfl⟩ := List.mem_map.mp hd
      exact (isAlphanum_case (hrest e he)).1

/-- The words of an ASCII name consist of letters and digits. -/
theorem words_alphanum {s : List Char} (hs : ∀ c ∈ s, c.toNat < 128) :
    ∀ w ∈ words s, w ≠ [] ∧ ∀ c ∈ w, c.isAlphanum = true := by
  intro w hw
  obtain ⟨hne, hmem⟩ := mem_words hw
  exact ⟨hne, fun c hc => isAlphanum_of_isWordChar (hs c (hmem c hc).2) (hmem c hc).1⟩

theorem isJoined_snakeCase {s : String} (hs : ∀ c ∈ s.toList, c.toNat < 128) :
    IsJoined (snakeCase s).toList := by
  rw [snakeCase, String.toList_ofList]
  refine .intercalate fun w hw => ?_
  obtain ⟨v, hv, rfl⟩ := List.mem_map.mp hw
  obtain ⟨hne, hall⟩ := words_alphanum hs v hv
  rw [lowercaseWord_eq hall]
  refine ⟨by simpa using hne, fun c hc => ?_⟩
  obtain ⟨d, hd, rfl⟩ := List.mem_map.mp hc
  exact (isAlphanum_case (hall d hd)).1

theorem isJoined_upperCamelCase {s : String} (hs : ∀ c ∈ s.toList, c.toNat < 128) :
    IsJoined (upperCamelCase s).toList := by
  rw [upperCamelCase, String.toList_ofList]
  refine .of_alphanum fun c hc => ?_
  obtain ⟨w, hw, hc⟩ := List.mem_flatMap.mp hc
  exact capitalizedWord_alphanum (words_alphanum hs w hw).2 c hc

end SchemaBindings.Text
