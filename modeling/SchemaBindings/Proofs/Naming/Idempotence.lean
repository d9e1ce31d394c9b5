import SchemaBindings.Proofs.Naming.Identifiers

/-!
Names in snake case are kept. Splitting them again finds the words that they were joined from, and
an underscore that was put before or behind a name is no part of any word, so it is found missing
and put there again.
-/

namespace SchemaBindings

namespace Text

/-! ## Words that are lowercase already -/

/-- A word of ASCII letters and digits without an uppercase letter. -/
structure IsLowered (w : List Char) : Prop where
  nonempty : w ≠ []
  alphanum : ∀ c ∈ w, c.isAlphanum = true
  notUpper : ∀ c ∈ w, c.isUpper = false

/-- What holds of all of ASCII holds of letters and digits. -/
theorem of_ascii {p : Char → Prop} (h : ∀ n < 128, p (Char.ofNat n)) {c : Char}
    (hc : c.isAlphanum = true) : p c := by
  have hp := h c.toNat (toNat_lt_of_isAlphanum hc)
  rwa [Char.ofNat_toNat] at hp

theorem toLower_of_not_isUpper {c : Char} (hc : c.isAlphanum = true) (h : c.isUpper = false) :
    c.toLower = c :=
  of_ascii (p := fun c => c.isUpper = false → c.toLower = c) (by decide +kernel) hc h

/-- Making a letter or digit lowercase leaves no uppercase letter. -/
theorem isUpper_toLower {c : Char} (h : c.isAlphanum = true) : c.toLower.isUpper = false :=
  of_ascii (p := fun c => c.toLower.isUpper = false) (by decide +kernel) h

theorem isLowered_lowercaseWord {w : List Char} (hne : w ≠ [])
    (h : ∀ c ∈ w, c.isAlphanum = true) : IsLowered (lowercaseWord w) := by
  rw [lowercaseWord_eq h]
  refine ⟨by simpa using hne, ?_, ?_⟩
  · intro d hd
    obtain ⟨c, hc, rfl⟩ := List.mem_map.mp hd
    exact (isAlphanum_case (h c hc)).1
  · intro d hd
    obtain ⟨c, hc, rfl⟩ := List.mem_map.mp hd
    exact isUpper_toLower (h c hc)

namespace IsLowered

variable {w : List Char}

theorem lowercaseWord_eq_self (h : IsLowered w) : lowercaseWord w = w := by
  calc lowercaseWord w = w.map Char.toLower := lowercaseWord_eq h.alphanum
    _ = w.map id := List.map_congr_left fun c hc =>
      toLower_of_not_isUpper (h.alphanum c hc) (h.notUpper c hc)
    _ = w := List.map_id w

theorem isWordChar (h : IsLowered w) : ∀ c ∈ w, Text.isWordChar c = true := by
  intro c hc
  have halphanum := h.alphanum c hc
  rwa [Text.isWordChar, if_pos (toNat_lt_of_isAlphanum halphanum)]

theorem not_isUppercase (h : IsLowered w) : ∀ c ∈ w, isUppercase c = false := by
  intro c hc
  rw [isUppercase, if_pos (toNat_lt_of_isAlphanum (h.alphanum c hc))]
  exact h.notUpper c hc

end IsLowered

/-! ## Splitting again -/

/-- Only an uppercase letter can begin a word inside a run. -/
theorem splitRun_of_not_isUppercase {mode : WordMode} {word s : List Char} (hne : s ≠ [])
    (h : ∀ c ∈ s, isUppercase c = false) : splitRun mode word s = [word.reverse ++ s] := by
  induction s using List.twoStepInduction generalizing mode word with
  | nil => exact absurd rfl hne
  | singleton c => simp [splitRun]
  | cons_cons c next rest _ ih =>
    have hc : isUppercase c = false := h c List.mem_cons_self
    have hrest : ∀ d ∈ next :: rest, isUppercase d = false :=
      fun d hd => h d (List.mem_cons_of_mem _ hd)
    have hnext : isUppercase next = false := hrest next List.mem_cons_self
    simp only [splitRun, hc, hnext, Bool.false_eq_true, and_false, false_and, if_false]
    rw [ih next (List.cons_ne_nil _ _) hrest, List.reverse_cons, List.append_assoc]
    rfl

theorem runs_append {run w rest : List Char} (h : ∀ c ∈ w, isWordChar c = true) :
    runs run (w ++ rest) = runs (w.reverse ++ run) rest := by
  induction w generalizing run with
  | nil => rfl
  | cons c w ih =>
    obtain ⟨hc, hw⟩ := List.forall_mem_cons.mp h
    rw [List.cons_append, runs, if_pos hc, ih hw, List.reverse_cons, List.append_assoc]
    rfl

/-- An underscore ends a run. -/
theorem runs_underscore {run : List Char} (hne : run ≠ []) (rest : List Char) :
    runs run ('_' :: rest) = run.reverse :: runs [] rest := by
  have hmark : isWordChar '_' = false := by decide
  simp [runs, hmark, hne]

/-- The runs of words that underscores stand between are the words. -/
theorem runs_intercalate {ws : List (List Char)} (h : ∀ w ∈ ws, IsLowered w) :
    runs [] (['_'].intercalate ws) = ws := by
  induction ws with
  | nil => rfl
  | cons w rest ih =>
    obtain ⟨hw, hrest⟩ := List.forall_mem_cons.mp h
    have hne : w.reverse ++ [] ≠ [] := by simpa using hw.nonempty
    cases rest with
    | nil =>
      have hruns : runs [] (w ++ []) = runs (w.reverse ++ []) [] := runs_append hw.isWordChar
      rw [List.append_nil] at hruns
      rw [List.intercalate_singleton, hruns, runs, if_neg (by simpa using hw.nonempty)]
      simp
    | cons v others =>
      rw [List.intercalate_cons_cons, List.append_assoc, runs_append hw.isWordChar,
        List.singleton_append, runs_underscore hne, ih hrest]
      simp

/-- Words in lowercase are found again where they were joined. -/
theorem words_intercalate {ws : List (List Char)} (h : ∀ w ∈ ws, IsLowered w) :
    words (['_'].intercalate ws) = ws := by
  have hsplit : ∀ w ∈ ws, splitRun .boundary [] w = [w] := fun w hw =>
    splitRun_of_not_isUppercase (h w hw).nonempty (h w hw).not_isUppercase
  rw [words, runs_intercalate h, List.flatMap_congr hsplit, List.flatMap_singleton']

/-! ## Underscores around a name -/

/-- An underscore at the end of a name ends its last run, which ends there anyway. -/
theorem runs_append_underscore (run s : List Char) : runs run (s ++ ['_']) = runs run s := by
  have hmark : isWordChar '_' = false := by decide
  induction s generalizing run with
  | nil => simp [runs, hmark]
  | cons c rest ih => simp only [List.cons_append, runs, ih]

theorem words_append_underscore (name : String) :
    words (name ++ "_").toList = words name.toList := by
  have hlist : (name ++ "_").toList = name.toList ++ ['_'] := String.toList_append
  rw [hlist, words, runs_append_underscore, words]

theorem words_underscore_append (name : String) :
    words ("_" ++ name).toList = words name.toList := by
  have hlist : ("_" ++ name).toList = '_' :: name.toList := String.toList_append
  have hmark : isWordChar '_' = false := by decide
  have hruns : runs [] ('_' :: name.toList) = runs [] name.toList := by simp [runs, hmark]
  rw [hlist, words, hruns, words]

theorem snakeCase_append_underscore (name : String) : snakeCase (name ++ "_") = snakeCase name := by
  rw [snakeCase, words_append_underscore, snakeCase]

theorem snakeCase_underscore_append (name : String) : snakeCase ("_" ++ name) = snakeCase name := by
  rw [snakeCase, words_underscore_append, snakeCase]

/-- An ASCII name in snake case is kept. -/
theorem snakeCase_snakeCase {name : String} (h : ∀ c ∈ name.toList, c.toNat < 128) :
    snakeCase (snakeCase name) = snakeCase name := by
  have hlowered : ∀ w ∈ (words name.toList).map lowercaseWord, IsLowered w := by
    intro w hw
    obtain ⟨v, hv, rfl⟩ := List.mem_map.mp hw
    obtain ⟨hne, hall⟩ := words_alphanum h v hv
    exact isLowered_lowercaseWord hne hall
  have hkept : ((words name.toList).map lowercaseWord).map lowercaseWord =
      (words name.toList).map lowercaseWord :=
    (List.map_congr_left fun w hw => (hlowered w hw).lowercaseWord_eq_self).trans (List.map_id _)
  rw [snakeCase, snakeCase, String.toList_ofList, words_intercalate hlowered, hkept]

end Text

namespace Naming

open Text

variable {name fallback : String}

/-- What makes a name usable is taken off again by splitting it into words. -/
theorem snakeCase_usableIdentifier (h : snakeCase name = name) (hne : name ≠ "") :
    snakeCase (usableIdentifier name fallback) = name := by
  unfold usableIdentifier
  split
  · next hnil => exact absurd (String.toList_eq_nil_iff.mp hnil) hne
  split
  · rw [snakeCase_underscore_append, h]
  unfold safeIdentifier
  split
  · rw [snakeCase_append_underscore, h]
  · exact h

/-- A usable name made of snake case is kept, if the fallback is. -/
theorem usableIdentifier_snakeCase (h : ∀ c ∈ name.toList, c.toNat < 128)
    (hf : usableIdentifier (snakeCase fallback) fallback = fallback) :
    usableIdentifier (snakeCase (usableIdentifier (snakeCase name) fallback)) fallback =
      usableIdentifier (snakeCase name) fallback := by
  by_cases hne : snakeCase name = ""
  · have hfallback : usableIdentifier (snakeCase name) fallback = fallback := by
      rw [hne]
      rfl
    rw [hfallback, hf]
  · rw [snakeCase_usableIdentifier (snakeCase_snakeCase h) hne]

/-- Every name made of an ASCII name is an identifier and no reserved word, and those in snake case
are kept when they are made again. -/
theorem names_usable_kept (h : ∀ c ∈ name.toList, c.toNat < 128) :
    (∀ n ∈ [fieldName name, methodName name, moduleName name, variantName name],
      IsUsable n ∧ isReserved n = false) ∧
    fieldName (fieldName name) = fieldName name ∧
    methodName (methodName name) = methodName name ∧
    moduleName (moduleName name) = moduleName name := by
  refine ⟨?_, ?_, ?_, ?_⟩
  · simp only [List.forall_mem_cons]
    exact ⟨⟨isUsable_fieldName h, isReserved_usableIdentifier (by decide)⟩,
      ⟨isUsable_methodName h, isReserved_usableIdentifier (by decide)⟩,
      ⟨isUsable_moduleName h, isReserved_usableIdentifier (by decide)⟩,
      ⟨isUsable_variantName h, isReserved_usableIdentifier (by decide)⟩, List.forall_mem_nil _⟩
  · exact usableIdentifier_snakeCase h (by decide)
  · exact usableIdentifier_snakeCase h (by decide)
  · exact usableIdentifier_snakeCase h (by decide)

/-- A name with a digit in front, separators, a capital inside and one in front of a word. -/
theorem names_usable_kept_mixed : (∀ c ∈ "2FACode--last_Price".toList, c.toNat < 128) ∧
    fieldName "2FACode--last_Price" = "_2fa_code_last_price" ∧
    fieldName "_2fa_code_last_price" = "_2fa_code_last_price" ∧
    (∀ n ∈ [fieldName "2FACode--last_Price", methodName "2FACode--last_Price",
      moduleName "2FACode--last_Price", variantName "2FACode--last_Price"],
      IsUsable n ∧ isReserved n = false) := by
  have hall : "2FACode--last_Price".toList.all (·.toNat < 128) = true := by decide
  have hascii : ∀ c ∈ "2FACode--last_Price".toList, c.toNat < 128 := fun c hc =>
    of_decide_eq_true (List.all_eq_true.mp hall c hc)
  have hfield : fieldName "2FACode--last_Price" = "_2fa_code_last_price" := by decide +kernel
  obtain ⟨husable, hkept, -⟩ := names_usable_kept hascii
  rw [hfield] at hkept
  exact ⟨hascii, hfield, hkept, husable⟩

end Naming

end SchemaBindings
