import SchemaBindings.Proofs.Code.Paths
import SchemaBindings.Proofs.Naming.Modules
import SchemaBindings.Proofs.Text.IdentifierClass

/-!
Which names of any script make identifiers. The words of a name hold its letters and digits in
order, and in lowercase they begin and go on like these, so whether the name of a module is an
identifier can be read off the name that it is made of.
-/

namespace SchemaBindings

/-! ## Words put back together -/

namespace Text

theorem flatten_splitRun (mode : WordMode) (word s : List Char) :
    (splitRun mode word s).flatten = word.reverse ++ s := by
  induction s using List.twoStepInduction generalizing mode word with
  | nil =>
    rw [splitRun]
    split
    · next hempty => simp [List.isEmpty_iff.mp hempty]
    · simp
  | singleton c => simp [splitRun]
  | cons_cons c next rest _ ih =>
    rw [splitRun]
    generalize (if isLowercase c = true then WordMode.lowercase
      else if isUppercase c = true then .uppercase else mode) = entered
    split
    · simp [ih]
    split
    · simp [ih]
    · simp [ih]

theorem flatten_runs (run s : List Char) :
    (runs run s).flatten = run.reverse ++ s.filter isWordChar := by
  induction s generalizing run with
  | nil =>
    rw [runs]
    split
    · next hempty => simp [List.isEmpty_iff.mp hempty]
    · simp
  | cons c rest ih =>
    rw [runs]
    split
    · next hc => simp [ih, hc]
    · next hc =>
      rw [List.filter_cons_of_neg hc]
      split
      · next hempty => simp [ih, List.isEmpty_iff.mp hempty]
      · simp [ih]

/-- The words of a name hold its letters and digits, in order. -/
theorem flatten_words (s : List Char) : (words s).flatten = s.filter isWordChar := by
  have hsplit : (words s).flatten = (runs [] s).flatten := by
    rw [words, List.flatMap_def, List.flatten_flatten, List.map_map]
    congr 1
    refine (List.map_congr_left fun r _ => flatten_splitRun .boundary [] r).trans ?_
    simp
  rw [hsplit, flatten_runs, List.reverse_nil, List.nil_append]

/-! ## Letters in lowercase -/

/-- A text begins like another and goes on like it, as far as identifiers are concerned. -/
inductive Resembles : List Char → List Char → Prop
  | nil : Resembles [] []
  | cons {c d : Char} {cs ds : List Char} (hrole : role d = role c)
      (hrest : ds.all isIdentifierContinue = cs.all isIdentifierContinue) :
      Resembles (c :: cs) (d :: ds)

namespace Resembles

variable {cs ds cs' ds' : List Char}

theorem all_continue (h : Resembles cs ds) :
    ds.all isIdentifierContinue = cs.all isIdentifierContinue := by
  cases h with
  | nil => rfl
  | cons hrole hrest =>
    rw [List.all_cons, List.all_cons, hrest, (Role.mk.inj hrole).2.1]

theorem append (h : Resembles cs ds) (h' : Resembles cs' ds') :
    Resembles (cs ++ cs') (ds ++ ds') := by
  cases h with
  | nil => exact h'
  | cons hrole hrest =>
    rw [List.cons_append, List.cons_append]
    exact .cons hrole (by rw [List.all_append, List.all_append, hrest, h'.all_continue])

/-- An underscore behind a text that is not empty goes on like nothing. -/
theorem underscore (h : Resembles cs ds) (hne : cs ≠ []) : Resembles cs (ds ++ ['_']) := by
  cases h with
  | nil => exact absurd rfl hne
  | cons hrole hrest =>
    have hunderscore : isIdentifierContinue '_' = true := by decide
    exact .cons hrole (by simp [hrest, hunderscore])

end Resembles

theorem lowercaseImage_resembles (c : Char) : Resembles [c] (lowercaseImage c) := by
  obtain ⟨d, ds, himage, hrole, hds⟩ := lowercaseImage_role c
  rw [himage]
  exact .cons hrole hds

theorem lowercaseWord_resembles (w : List Char) : Resembles w (lowercaseWord w) := by
  induction w using List.twoStepInduction with
  | nil => exact .nil
  | singleton c =>
    rw [lowercaseWord]
    split
    · next hc =>
      have hsigma : role 'ς' = role 'Σ' := by decide +kernel
      exact .cons (hc ▸ hsigma) rfl
    · exact lowercaseImage_resembles c
  | cons_cons c next rest _ ih =>
    rw [lowercaseWord]
    · exact (lowercaseImage_resembles c).append (ih next)
    · simp

/-- Words joined in lowercase begin and go on like the words themselves. -/
theorem intercalate_resembles {ws : List (List Char)} (h : ∀ w ∈ ws, w ≠ []) :
    Resembles ws.flatten (['_'].intercalate (ws.map lowercaseWord)) := by
  induction ws with
  | nil => exact .nil
  | cons w rest ih =>
    obtain ⟨hw, hrest⟩ := List.forall_mem_cons.mp h
    cases rest with
    | nil =>
      rw [List.map_singleton, List.intercalate_singleton, List.flatten_singleton]
      exact lowercaseWord_resembles w
    | cons v others =>
      rw [List.map_cons, List.map_cons, List.intercalate_cons_cons, List.flatten_cons]
      exact ((lowercaseWord_resembles w).underscore hw).append (ih hrest)

theorem snakeCase_resembles (s : String) :
    Resembles (s.toList.filter isWordChar) (snakeCase s).toList := by
  rw [snakeCase, String.toList_ofList, ← flatten_words]
  exact intercalate_resembles fun w hw => (mem_words hw).1

end Text

/-! ## Identifiers -/

namespace Code

variable {name : String}

theorem Ident.ofName_of_isSome (h : (ofText? name).isSome = true) : ofName name = .ok ⟨name⟩ := by
  obtain ⟨i, hi⟩ := Option.isSome_iff_exists.mp h
  have hok : ofName name = .ok i := by rw [ofName, hi]
  rw [hok, ← text_of_ofName hok]

theorem Ident.ofName_of_eq_none (h : ofText? name = none) :
    ofName name = .error .unusableName := by
  rw [ofName, h]

/-- Without the mark, an identifier is known by its shape. -/
theorem Ident.isSome_ofText?_iff (h : '#' ∉ name.toList) :
    (ofText? name).isSome = true ↔ hasIdentifierShape name.toList = true := by
  have hmark : afterMark? name.toList = none := by
    unfold afterMark?
    split
    · next heq => exact absurd (by simp [heq]) h
    · rfl
  rw [ofText?, hmark]
  dsimp only
  split <;> simp [*]

theorem hasIdentifierShape_append (s : List Char) (hne : s ≠ []) (count : Nat) :
    hasIdentifierShape (s ++ List.replicate count '_') = hasIdentifierShape s := by
  obtain ⟨c, rest, rfl⟩ := List.exists_cons_of_ne_nil hne
  have hunderscore : Text.isIdentifierContinue '_' = true := by decide
  simp [hasIdentifierShape, hunderscore]

end Code

/-! ## Names of modules -/

namespace Naming

open Text Code

/-- Whether the letters and digits of a name of any script can be spelled in an identifier: the
first of them can begin one or is a digit of ASCII, and the others can stand inside. -/
def isSpellable (name : String) : Bool :=
  match name.toList.filter isWordChar with
  | [] => true
  | c :: rest => (c.isDigit || isIdentifierStart c) && rest.all isIdentifierContinue

theorem hasIdentifierShape_safeIdentifier {name : String} (hne : name.toList ≠ []) :
    hasIdentifierShape (safeIdentifier name).toList = hasIdentifierShape name.toList := by
  unfold safeIdentifier
  split
  · rw [String.toList_append]
    exact hasIdentifierShape_append name.toList hne 1
  · rfl

/-- The name of a module is the fallback, or it is made of words in snake case that begin and go on
like the letters and digits of the name that it comes from. -/
theorem moduleName_cases (name : String) :
    (name.toList.filter isWordChar = [] ∧ moduleName name = "module") ∨
    ∃ c cs d ds, name.toList.filter isWordChar = c :: cs ∧ role d = role c ∧
      ds.all isIdentifierContinue = cs.all isIdentifierContinue ∧
      (snakeCase name).toList = d :: ds ∧
      moduleName name =
        if d.isDigit then "_" ++ snakeCase name else safeIdentifier (snakeCase name) := by
  have hlike := snakeCase_resembles name
  unfold moduleName usableIdentifier
  generalize name.toList.filter isWordChar = cs at hlike
  generalize hsnake : (snakeCase name).toList = ds at hlike
  cases hlike with
  | nil => exact .inl ⟨rfl, rfl⟩
  | cons hrole hrest => exact .inr ⟨_, _, _, _, rfl, hrole, hrest, rfl, rfl⟩

theorem hasIdentifierShape_moduleName (name : String) :
    hasIdentifierShape (moduleName name).toList = isSpellable name := by
  unfold isSpellable
  rcases moduleName_cases name with ⟨hnone, hname⟩ | ⟨c, cs, d, ds, hcs, hrole, hrest, hds, hname⟩
  · rw [hnone, hname]
    decide
  rw [hcs, hname]
  dsimp only
  obtain ⟨hstart, hcontinue, hdigit, -⟩ := Role.mk.inj hrole
  rw [← hdigit, ← hstart, ← hrest]
  split
  · next hd =>
    have hpart : isIdentifierContinue d = true := by
      have halphanum : d.isAlphanum = true := by simp [Char.isAlphanum, hd]
      rw [isIdentifierContinue, if_pos (toNat_lt_of_isAlphanum halphanum), halphanum, Bool.true_or]
    have hunderscore : isIdentifierStart '_' = true := by decide
    simp [String.toList_append, hds, hasIdentifierShape, hunderscore, hpart, hd]
  · next hd =>
    rw [hasIdentifierShape_safeIdentifier (by simp [hds]), hds, hasIdentifierShape]
    simp [hd]

/-- The name of a module is no keyword, whatever it is made of. -/
theorem moduleName_notMem_keywords (name : String) : moduleName name ∉ keywords := by
  rcases moduleName_cases name with ⟨-, hname⟩ | ⟨c, cs, d, ds, hcs, hrole, -, hds, hname⟩
  · rw [hname]
    decide
  rw [hname]
  split
  · exact underscored_notMem_keywords (by simp [hds])
  · refine notMem_safeIdentifier fun hunderscore => ?_
    -- no letter or digit becomes an underscore
    obtain rfl : '_' = d := by
      rw [hunderscore] at hds
      exact (List.cons.inj hds).1
    have hc : c = '_' := by simpa [role] using (Role.mk.inj hrole).2.2.2
    have hword : isWordChar c = true :=
      List.of_mem_filter (hcs ▸ List.mem_cons_self : c ∈ name.toList.filter isWordChar)
    rw [hc] at hword
    cases hword

/-- The name of a module is an identifier exactly if the name that it is made of can be spelled. -/
theorem isSome_ofText?_moduleName (name : String) :
    (Ident.ofText? (moduleName name)).isSome = isSpellable name := by
  rw [← hasIdentifierShape_moduleName, Bool.eq_iff_iff]
  exact Ident.isSome_ofText?_iff (notMem_moduleName isMark_hash name)

end Naming

end SchemaBindings
