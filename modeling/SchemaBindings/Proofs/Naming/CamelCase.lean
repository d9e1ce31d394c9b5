import SchemaBindings.Proofs.Naming.Idempotence

/-!
Names in camel case. Joining the words of a name leaves only capitals between them, so a name in
camel case is kept exactly if each capital inside it is still seen to begin a word. Where one is not
the name changes once more, and then it is kept.
-/

namespace SchemaBindings

namespace Text

/-! ## Letters and digits -/

variable {c : Char} {w s : List Char}

theorem isWordChar_of_isAlphanum (h : c.isAlphanum = true) : isWordChar c = true := by
  rwa [isWordChar, if_pos (toNat_lt_of_isAlphanum h)]

theorem isUppercase_eq (h : c.isAlphanum = true) : isUppercase c = c.isUpper := by
  rw [isUppercase, if_pos (toNat_lt_of_isAlphanum h)]

theorem isLowercase_eq (h : c.isAlphanum = true) : isLowercase c = c.isLower := by
  rw [isLowercase, if_pos (toNat_lt_of_isAlphanum h)]

theorem isUppercase_toLower (h : c.isAlphanum = true) : isUppercase c.toLower = false :=
  (isUppercase_eq (isAlphanum_case h).1).trans (isUpper_toLower h)

/-- A letter or digit stays as it is in lowercase exactly if it is no capital. -/
theorem toLower_eq_self_iff (h : c.isAlphanum = true) : c.toLower = c ↔ isUppercase c = false := by
  rw [isUppercase_eq h]
  exact of_ascii (p := fun c => c.toLower = c ↔ c.isUpper = false) (by decide +kernel) h

theorem toUpper_eq_self_iff (h : c.isAlphanum = true) : c.toUpper = c ↔ isLowercase c = false := by
  rw [isLowercase_eq h]
  exact of_ascii (p := fun c => c.toUpper = c ↔ c.isLower = false) (by decide +kernel) h

theorem isLowercase_toUpper (h : c.isAlphanum = true) : isLowercase c.toUpper = false :=
  (isLowercase_eq (isAlphanum_case h).2).trans
    (of_ascii (p := fun c => c.toUpper.isLower = false) (by decide +kernel) h)

theorem isLowercase_of_isUppercase (h : c.isAlphanum = true) (hu : isUppercase c = true) :
    isLowercase c = false := by
  rw [isUppercase_eq h] at hu
  rw [isLowercase_eq h]
  exact of_ascii (p := fun c => c.isUpper = true → c.isLower = false) (by decide +kernel) h hu

/-! ## The case of the last letter -/

/-- The case of the last letter up to a character, `mode` being that of what stands before it. -/
def caseAfter (mode : WordMode) (c : Char) : WordMode :=
  if isLowercase c then .lowercase else if isUppercase c then .uppercase else mode

/-- The case of the last letter of a text. -/
def lastCase (s : List Char) : WordMode :=
  s.foldl caseAfter .boundary

theorem caseAfter_of_isLowercase {mode : WordMode} (h : isLowercase c = true) :
    caseAfter mode c = .lowercase :=
  if_pos h

theorem caseAfter_of_isUppercase {mode : WordMode} (h : c.isAlphanum = true)
    (hu : isUppercase c = true) : caseAfter mode c = .uppercase := by
  rw [caseAfter, isLowercase_of_isUppercase h hu, if_neg Bool.false_ne_true, if_pos hu]

/-- A letter in lowercase is followed by lowercase, and what is no letter changes nothing. -/
theorem caseAfter_toLower {mode : WordMode} (h : c.isAlphanum = true) :
    caseAfter mode c.toLower =
      if isLowercase c = true ∨ isUppercase c = true then .lowercase else mode := by
  have hupper := isUppercase_toLower h
  have hlower : isLowercase c.toLower = (isLowercase c || isUppercase c) := by
    rw [isLowercase_eq (isAlphanum_case h).1, isLowercase_eq h, isUppercase_eq h]
    exact of_ascii (p := fun c => c.toLower.isLower = (c.isLower || c.isUpper))
      (by decide +kernel) h
  rw [caseAfter, hupper, hlower, if_neg Bool.false_ne_true]
  simp only [Bool.or_eq_true]

/-! ## Capitals that are seen -/

/-- A capital between two parts of a text begins a word: the last letter before it is lowercase, or
is a capital as well and a lowercase letter follows. -/
def BeginsWord (mode : WordMode) (after : List Char) : Prop :=
  mode = .lowercase ∨ mode = .uppercase ∧ ∃ d, after.head? = some d ∧ isLowercase d = true

/-- Every capital of a text begins a word, `mode` being the case of the last letter before it. -/
def CapitalsSeen : WordMode → List Char → Prop
  | _, [] => True
  | mode, c :: rest =>
    (isUppercase c = true → BeginsWord mode rest) ∧ CapitalsSeen (caseAfter mode c) rest

theorem capitalsSeen_cons {mode : WordMode} : CapitalsSeen mode (c :: s) ↔
    (isUppercase c = true → BeginsWord mode s) ∧ CapitalsSeen (caseAfter mode c) s :=
  Iff.rfl

theorem capitalsSeen_iff {mode : WordMode} : CapitalsSeen mode s ↔
    ∀ before c after, s = before ++ c :: after → isUppercase c = true →
      BeginsWord (before.foldl caseAfter mode) after := by
  induction s generalizing mode with
  | nil => simp [CapitalsSeen]
  | cons d rest ih =>
    rw [CapitalsSeen, ih]
    constructor
    · rintro ⟨hd, hrest⟩ before c after heq hc
      cases before with
      | nil =>
        obtain ⟨rfl, rfl⟩ := List.cons.inj heq
        exact hd hc
      | cons b before =>
        obtain ⟨rfl, hrestEq⟩ := List.cons.inj heq
        exact hrest before c after hrestEq hc
    · intro h
      refine ⟨h [] d rest rfl, fun before c after heq hc => ?_⟩
      exact h (d :: before) c after (congrArg (d :: ·) heq) hc

/-- Behind a lowercase letter it makes no difference what stood before. -/
theorem capitalsSeen_of_isLowercase (mode mode' : WordMode) (hc : isLowercase c = true)
    (hu : isUppercase c = false) : CapitalsSeen mode (c :: s) ↔ CapitalsSeen mode' (c :: s) := by
  simp only [CapitalsSeen, hu, Bool.false_eq_true, false_implies, true_and,
    caseAfter_of_isLowercase hc]

/-- What is put into lowercase is no capital. -/
theorem capitalsSeen_toLower {mode : WordMode} (hc : c.isAlphanum = true)
    (h : CapitalsSeen (caseAfter mode c.toLower) s) : CapitalsSeen mode (c.toLower :: s) :=
  ⟨fun hu => absurd hu (by simp [isUppercase_toLower hc]), h⟩

/-! ## Words in camel case -/

theorem capitalizedWord_cons (h : ∀ d ∈ c :: w, d.isAlphanum = true) :
    capitalizedWord (c :: w) = c.toUpper :: w.map Char.toLower := by
  obtain ⟨hc, hw⟩ := List.forall_mem_cons.mp h
  rw [capitalizedWord, uppercaseImage, if_pos (toNat_lt_of_isAlphanum hc), lowercaseWord_eq hw]
  rfl

/-- What is put behind a word gets into lowercase. -/
theorem capitalizedWord_reverse_cons (hne : w ≠ []) (hc : c.isAlphanum = true)
    (hw : ∀ d ∈ w, d.isAlphanum = true) :
    capitalizedWord (c :: w).reverse = capitalizedWord w.reverse ++ [c.toLower] := by
  obtain ⟨d, rest, hrev⟩ := List.exists_cons_of_ne_nil (List.reverse_ne_nil_iff.mpr hne)
  have hd : ∀ e ∈ d :: rest, e.isAlphanum = true := fun e he =>
    hw e (List.mem_reverse.mp (hrev ▸ he))
  have hall : ∀ e ∈ d :: (rest ++ [c]), e.isAlphanum = true := by grind
  rw [List.reverse_cons, hrev, capitalizedWord_cons hd, List.cons_append,
    capitalizedWord_cons hall, List.map_append]
  rfl

theorem capitalizedWord_singleton (h : c.isAlphanum = true) (hc : isLowercase c = false) :
    capitalizedWord [c] = [c] := by
  rw [capitalizedWord_cons (List.forall_mem_singleton.mpr h), (toUpper_eq_self_iff h).mpr hc]
  rfl

theorem capitalizedWord_capital (h : c.isAlphanum = true) (hu : isUppercase c = true) :
    capitalizedWord [c] = [c] :=
  capitalizedWord_singleton h (isLowercase_of_isUppercase h hu)

/-- The first word of a run begins with its first character. -/
theorem splitRun_start (h : isLowercase c = false) :
    splitRun .boundary [] (c :: s) = splitRun (caseAfter .boundary c) [c] s := by
  cases s with
  | nil => rfl
  | cons next rest =>
    have hcase : caseAfter .boundary c ≠ .lowercase := by
      rw [caseAfter, h, if_neg Bool.false_ne_true]
      split <;> decide
    exact (if_neg fun h => hcase h.1).trans (if_neg fun h => absurd h.1 (by decide))

section Split

variable {mode : WordMode} {word : List Char} {next : Char}

/-- How a run is split behind its first character: a word ends between a lowercase letter and a
capital, before a capital that stands between another one and a lowercase letter, or not yet. -/
theorem splitRun_cases (hc : c.isAlphanum = true) (hnext : next.isAlphanum = true) :
    (caseAfter mode c = .lowercase ∧ isUppercase c = false ∧ isUppercase next = true ∧
      splitRun mode word (c :: next :: s) = (c :: word).reverse :: splitRun .uppercase [next] s) ∨
    (mode = .uppercase ∧ isUppercase c = true ∧ isLowercase next = true ∧
      isUppercase next = false ∧
      splitRun mode word (c :: next :: s) = word.reverse :: splitRun .boundary [c] (next :: s)) ∨
    ((caseAfter mode c = .lowercase → isUppercase next = false) ∧
      (isUppercase c = true → mode = .uppercase → isLowercase next = false) ∧
      splitRun mode word (c :: next :: s) =
        splitRun (caseAfter mode c) (c :: word) (next :: s)) := by
  have hsplit : splitRun mode word (c :: next :: s) =
      if caseAfter mode c = .lowercase ∧ isUppercase next = true then
        (c :: word).reverse :: splitRun .boundary [] (next :: s)
      else if mode = .uppercase ∧ isUppercase c = true ∧ isLowercase next = true then
        word.reverse :: splitRun .boundary [c] (next :: s)
      else splitRun (caseAfter mode c) (c :: word) (next :: s) := rfl
  split_ifs at hsplit with h₁ h₂
  · obtain ⟨hcase, hupper⟩ := h₁
    have hlower := isLowercase_of_isUppercase hnext hupper
    refine .inl ⟨hcase, ?_, hupper, ?_⟩
    · refine Bool.eq_false_iff.mpr fun h => ?_
      rw [caseAfter_of_isUppercase hc h] at hcase
      cases hcase
    · rw [hsplit, splitRun_start hlower, caseAfter_of_isUppercase hnext hupper]
  · obtain ⟨hmode, hupper, hlower⟩ := h₂
    refine .inr (.inl ⟨hmode, hupper, hlower, Bool.eq_false_iff.mpr fun h => ?_, hsplit⟩)
    rw [isLowercase_of_isUppercase hnext h] at hlower
    cases hlower
  · refine .inr (.inr ⟨fun h => ?_, fun h hmode => ?_, hsplit⟩)
    · exact Bool.eq_false_iff.mpr fun hu => h₁ ⟨h, hu⟩
    · exact Bool.eq_false_iff.mpr fun hl => h₂ ⟨hmode, h, hl⟩

/-- What is still known of the case of the last letter where characters were put into lowercase: a
lowercase letter is one, and a capital is a letter. -/
structure Remains (mode m : WordMode) : Prop where
  lowercase : mode = .lowercase → m = .lowercase
  uppercase : mode = .uppercase → m ≠ .boundary

theorem Remains.refl : Remains mode mode :=
  ⟨id, by rintro rfl; decide⟩

theorem Remains.toLower {m : WordMode} (hc : c.isAlphanum = true) (h : Remains mode m) :
    Remains (caseAfter mode c) (caseAfter m c.toLower) := by
  obtain ⟨hlower, hupper⟩ := h
  rw [caseAfter_toLower hc, caseAfter]
  constructor <;> grind

/-- What follows the open word when the words of a run are put into camel case: every capital of
it begins a word, also where the last letter of the open word has got lowercase. -/
structure CamelTail (mode : WordMode) (word s rest : List Char) : Prop where
  joined : (splitRun mode word s).flatMap capitalizedWord = capitalizedWord word.reverse ++ rest
  alphanum : ∀ d ∈ rest, d.isAlphanum = true
  head : ∀ d, s.head? = some d → isUppercase d = false → rest.head? = some d.toLower
  seen : ∀ m, Remains mode m → CapitalsSeen m rest

namespace CamelTail

variable {rest : List Char}

theorem nil (hne : word ≠ []) : CamelTail mode word [] [] where
  joined := by simp [splitRun, hne]
  alphanum := List.forall_mem_nil _
  head _ hd := by cases hd
  seen _ _ := trivial

theorem singleton (hne : word ≠ []) (hw : ∀ d ∈ word, d.isAlphanum = true)
    (hc : c.isAlphanum = true) : CamelTail mode word [c] [c.toLower] where
  joined := by rw [splitRun, List.flatMap_singleton, capitalizedWord_reverse_cons hne hc hw]
  alphanum := List.forall_mem_singleton.mpr (isAlphanum_case hc).1
  head _ hd _ := by cases hd; rfl
  seen _ _ := capitalsSeen_toLower hc trivial

/-- A word ends between a lowercase letter and a capital. -/
theorem ends (hne : word ≠ []) (hw : ∀ d ∈ word, d.isAlphanum = true) (hc : c.isAlphanum = true)
    (hnext : next.isAlphanum = true) (hcase : caseAfter mode c = .lowercase)
    (hupper : isUppercase next = true)
    (heq : splitRun mode word (c :: next :: s) =
      (c :: word).reverse :: splitRun .uppercase [next] s)
    (h : CamelTail .uppercase [next] s rest) :
    CamelTail mode word (c :: next :: s) (c.toLower :: next :: rest) where
  joined := by
    rw [heq, List.flatMap_cons, h.joined, List.reverse_singleton,
      capitalizedWord_capital hnext hupper, capitalizedWord_reverse_cons hne hc hw,
      List.append_assoc]
    rfl
  alphanum := List.forall_mem_cons.mpr
    ⟨(isAlphanum_case hc).1, List.forall_mem_cons.mpr ⟨hnext, h.alphanum⟩⟩
  head _ hd _ := by cases hd; rfl
  seen m hm := by
    refine capitalsSeen_toLower hc ⟨fun _ => .inl ((hm.toLower hc).lowercase hcase), ?_⟩
    rw [caseAfter_of_isUppercase hnext hupper]
    exact h.seen .uppercase .refl

/-- A word begins with a capital that stands between another one and a lowercase letter. -/
theorem begins (hc : c.isAlphanum = true) (hnext : next.isAlphanum = true)
    (hupper : isUppercase c = true) (hlower : isLowercase next = true)
    (hnextUpper : isUppercase next = false)
    (heq : splitRun .uppercase word (c :: next :: s) =
      word.reverse :: splitRun .boundary [c] (next :: s))
    (h : CamelTail .boundary [c] (next :: s) rest) :
    CamelTail .uppercase word (c :: next :: s) (c :: rest) where
  joined := by
    rw [heq, List.flatMap_cons, h.joined, List.reverse_singleton, capitalizedWord_capital hc hupper]
    rfl
  alphanum := List.forall_mem_cons.mpr ⟨hc, h.alphanum⟩
  head d hd hd' := by
    cases hd
    exact absurd hupper (by simp [hd'])
  seen m hm := by
    have hkept := (toLower_eq_self_iff hnext).mpr hnextUpper
    have hfollows : rest.head? = some next := hkept ▸ h.head next rfl hnextUpper
    refine ⟨fun _ => ?_, h.seen _ ⟨(absurd · (by decide)), (absurd · (by decide))⟩⟩
    cases m with
    | boundary => exact absurd rfl (hm.uppercase rfl)
    | lowercase => exact .inl rfl
    | uppercase => exact .inr ⟨rfl, next, hfollows, hlower⟩

/-- A word goes on. -/
theorem goesOn (hne : word ≠ []) (hw : ∀ d ∈ word, d.isAlphanum = true) (hc : c.isAlphanum = true)
    (heq : splitRun mode word (c :: next :: s) =
      splitRun (caseAfter mode c) (c :: word) (next :: s))
    (h : CamelTail (caseAfter mode c) (c :: word) (next :: s) rest) :
    CamelTail mode word (c :: next :: s) (c.toLower :: rest) where
  joined := by
    rw [heq, h.joined, capitalizedWord_reverse_cons hne hc hw, List.append_assoc]
    rfl
  alphanum := List.forall_mem_cons.mpr ⟨(isAlphanum_case hc).1, h.alphanum⟩
  head _ hd _ := by cases hd; rfl
  seen m hm := capitalsSeen_toLower hc (h.seen _ (hm.toLower hc))

end CamelTail

/-- Every run has such a tail behind its open word. -/
theorem exists_camelTail (mode : WordMode) (hne : word ≠ [])
    (hw : ∀ d ∈ word, d.isAlphanum = true) (hs : ∀ d ∈ s, d.isAlphanum = true) :
    ∃ rest, CamelTail mode word s rest := by
  induction s using List.twoStepInduction generalizing mode word with
  | nil => exact ⟨[], .nil hne⟩
  | singleton c => exact ⟨[c.toLower], .singleton hne hw (hs c List.mem_cons_self)⟩
  | cons_cons c next rest ihrest ih =>
    obtain ⟨hc, hrest⟩ := List.forall_mem_cons.mp hs
    obtain ⟨hnext, hrest'⟩ := List.forall_mem_cons.mp hrest
    rcases @splitRun_cases c rest mode word next hc hnext with
      ⟨hcase, -, hupper, heq⟩ | ⟨rfl, hupper, hlower, hnextUpper, heq⟩ | ⟨-, -, heq⟩
    · obtain ⟨others, hothers⟩ := ihrest .uppercase (List.cons_ne_nil next [])
        (List.forall_mem_singleton.mpr hnext) hrest'
      exact ⟨_, hothers.ends hne hw hc hnext hcase hupper heq⟩
    · obtain ⟨others, hothers⟩ := ih next .boundary (List.cons_ne_nil c [])
        (List.forall_mem_singleton.mpr hc) hrest
      exact ⟨_, hothers.begins hc hnext hupper hlower hnextUpper heq⟩
    · obtain ⟨others, hothers⟩ := ih next (caseAfter mode c) (List.cons_ne_nil c word)
        (List.forall_mem_cons.mpr ⟨hc, hw⟩) hrest
      exact ⟨_, hothers.goesOn hne hw hc heq⟩

/-! ## Runs that camel case keeps -/

/-- A run stays as it is in camel case, with the open word before it. -/
def IsCamelCase (mode : WordMode) (word s : List Char) : Prop :=
  (splitRun mode word s).flatMap capitalizedWord = word.reverse ++ s

theorem isCamelCase_singleton (hne : word ≠ []) (hw : ∀ d ∈ word, d.isAlphanum = true)
    (hkept : capitalizedWord word.reverse = word.reverse) (hc : c.isAlphanum = true) :
    IsCamelCase mode word [c] ↔ isUppercase c = false := by
  rw [IsCamelCase, splitRun, List.flatMap_singleton, capitalizedWord_reverse_cons hne hc hw, hkept,
    List.append_cancel_left_eq, List.singleton_inj, toLower_eq_self_iff hc]

theorem isCamelCase_ends (hkept : capitalizedWord (c :: word).reverse = (c :: word).reverse)
    (heq : splitRun mode word (c :: next :: s) =
      (c :: word).reverse :: splitRun .uppercase [next] s) :
    IsCamelCase mode word (c :: next :: s) ↔ IsCamelCase .uppercase [next] s := by
  rw [IsCamelCase, heq, List.flatMap_cons, hkept, List.reverse_cons, List.append_assoc,
    List.append_cancel_left_eq, List.singleton_append, List.cons.injEq, eq_self, true_and]
  rfl

theorem isCamelCase_begins (hkept : capitalizedWord word.reverse = word.reverse)
    (heq : splitRun mode word (c :: next :: s) =
      word.reverse :: splitRun .boundary [c] (next :: s)) :
    IsCamelCase mode word (c :: next :: s) ↔ IsCamelCase .boundary [c] (next :: s) := by
  rw [IsCamelCase, heq, List.flatMap_cons, hkept, List.append_cancel_left_eq]
  rfl

theorem isCamelCase_goesOn (heq : splitRun mode word (c :: next :: s) =
      splitRun (caseAfter mode c) (c :: word) (next :: s)) :
    IsCamelCase mode word (c :: next :: s) ↔
      IsCamelCase (caseAfter mode c) (c :: word) (next :: s) := by
  rw [IsCamelCase, IsCamelCase, heq, List.reverse_cons, List.append_assoc, List.singleton_append]

/-- A capital inside a word does not stay. -/
theorem not_isCamelCase_goesOn (hne : word ≠ []) (hw : ∀ d ∈ word, d.isAlphanum = true)
    (hkept : capitalizedWord word.reverse = word.reverse) (hc : c.isAlphanum = true)
    (hs : ∀ d ∈ next :: s, d.isAlphanum = true) (hupper : isUppercase c = true)
    (heq : splitRun mode word (c :: next :: s) =
      splitRun (caseAfter mode c) (c :: word) (next :: s)) :
    ¬ IsCamelCase mode word (c :: next :: s) := by
  intro h
  obtain ⟨others, hothers⟩ := exists_camelTail (caseAfter mode c) (List.cons_ne_nil c word)
    (List.forall_mem_cons.mpr ⟨hc, hw⟩) hs
  have hjoined := (hothers.goesOn hne hw hc heq).joined
  rw [h, hkept, List.append_cancel_left_eq] at hjoined
  have hstays := (toLower_eq_self_iff hc).mp (List.cons.inj hjoined).1.symm
  simp [hstays] at hupper

/-- Where a word ends before a capital, that capital is seen. -/
theorem capitalsSeen_ends (hnext : next.isAlphanum = true) (hcase : caseAfter mode c = .lowercase)
    (hcUpper : isUppercase c = false) (hupper : isUppercase next = true) :
    CapitalsSeen mode (c :: next :: s) ↔ CapitalsSeen .uppercase s := by
  rw [capitalsSeen_cons, capitalsSeen_cons, hcase, caseAfter_of_isUppercase hnext hupper]
  simp [hcUpper, BeginsWord]

/-- Where a word begins with the last one of some capitals, that capital is seen. -/
theorem capitalsSeen_begins (hc : c.isAlphanum = true) (hupper : isUppercase c = true)
    (hlower : isLowercase next = true) (hnextUpper : isUppercase next = false) :
    CapitalsSeen .uppercase (c :: next :: s) ↔ CapitalsSeen .boundary (next :: s) := by
  rw [capitalsSeen_of_isLowercase .boundary .uppercase hlower hnextUpper,
    capitalsSeen_cons (c := c), caseAfter_of_isUppercase hc hupper]
  simp [BeginsWord, hlower]

/-- A run stays as it is in camel case exactly if each of its capitals begins a word, provided that
the word that is open stays so. -/
theorem isCamelCase_iff (mode : WordMode) (hne : word ≠ [])
    (hw : ∀ d ∈ word, d.isAlphanum = true) (hs : ∀ d ∈ s, d.isAlphanum = true)
    (hkept : capitalizedWord word.reverse = word.reverse)
    (hopen : mode = .lowercase → ∀ d, s.head? = some d → isUppercase d = false) :
    IsCamelCase mode word s ↔ CapitalsSeen mode s := by
  induction s using List.twoStepInduction generalizing mode word with
  | nil => simp [IsCamelCase, splitRun, hne, hkept, CapitalsSeen]
  | singleton c =>
    have hunseen : ¬ BeginsWord mode [] ∨ isUppercase c = false := by
      by_cases hm : mode = .lowercase
      · exact .inr (hopen hm c rfl)
      · exact .inl (by simp [BeginsWord, hm])
    rw [isCamelCase_singleton hne hw hkept (hs c List.mem_cons_self), capitalsSeen_cons]
    simp only [CapitalsSeen, and_true]
    grind
  | cons_cons c next rest ihrest ih =>
    obtain ⟨hc, hrest⟩ := List.forall_mem_cons.mp hs
    obtain ⟨hnext, hrest'⟩ := List.forall_mem_cons.mp hrest
    have hlonger (hcUpper : isUppercase c = false) :
        capitalizedWord (c :: word).reverse = (c :: word).reverse := by
      rw [capitalizedWord_reverse_cons hne hc hw, hkept, (toLower_eq_self_iff hc).mpr hcUpper,
        List.reverse_cons]
    rcases @splitRun_cases c rest mode word next hc hnext with
      ⟨hcase, hcUpper, hupper, heq⟩ | ⟨rfl, hupper, hlower, hnextUpper, heq⟩ | ⟨hfree, hno, heq⟩
    · have hrestIff := ihrest .uppercase (List.cons_ne_nil next [])
        (List.forall_mem_singleton.mpr hnext) hrest' (capitalizedWord_capital hnext hupper)
        (absurd · (by decide))
      rw [isCamelCase_ends (hlonger hcUpper) heq, hrestIff,
        capitalsSeen_ends hnext hcase hcUpper hupper]
    · have hrestIff := ih next .boundary (List.cons_ne_nil c [])
        (List.forall_mem_singleton.mpr hc) hrest (capitalizedWord_capital hc hupper)
        (absurd · (by decide))
      rw [isCamelCase_begins hkept heq, hrestIff, capitalsSeen_begins hc hupper hlower hnextUpper]
    by_cases hupper : isUppercase c = true
    · -- A capital that begins no word is changed.
      have hunseen : ¬ BeginsWord mode (next :: rest) := by
        rintro (h | ⟨h, d, hd, hlower⟩)
        · simp [hopen h c rfl] at hupper
        · cases hd
          simp [hno hupper h] at hlower
      have hchanged := not_isCamelCase_goesOn hne hw hkept hc hrest hupper heq
      exact iff_of_false hchanged fun h => hunseen (h.1 hupper)
    · have hcUpper : isUppercase c = false := Bool.eq_false_iff.mpr hupper
      have hopen' : caseAfter mode c = .lowercase →
          ∀ d, (next :: rest).head? = some d → isUppercase d = false := by
        rintro h d hd
        cases hd
        exact hfree h
      have hiff := ih next _ (List.cons_ne_nil c word) (List.forall_mem_cons.mpr ⟨hc, hw⟩) hrest
        (hlonger hcUpper) hopen'
      rw [isCamelCase_goesOn heq, hiff, capitalsSeen_cons (c := c)]
      simp [hcUpper]

end Split

/-! ## Names in camel case -/

/-- Letters and digits are one run. -/
theorem words_of_alphanum (hne : s ≠ []) (h : ∀ d ∈ s, d.isAlphanum = true) :
    words s = splitRun .boundary [] s := by
  have hruns : runs [] (s ++ []) = runs (s.reverse ++ []) [] :=
    runs_append fun d hd => isWordChar_of_isAlphanum (h d hd)
  rw [List.append_nil, List.append_nil, runs, if_neg (by simpa using hne),
    List.reverse_reverse] at hruns
  rw [words, hruns, List.flatMap_singleton]

/-- The words of a name, joined in camel case, are letters and digits that begin with no lowercase
letter. -/
theorem camelCase_cases {name : String} (h : ∀ d ∈ name.toList, d.toNat < 128) :
    (upperCamelCase name).toList = [] ∨ ∃ c s, (upperCamelCase name).toList = c :: s ∧
      isLowercase c = false ∧ ∀ d ∈ c :: s, d.isAlphanum = true := by
  have hwords := words_alphanum h
  rw [upperCamelCase, String.toList_ofList]
  generalize words name.toList = ws at hwords
  cases ws with
  | nil => exact .inl rfl
  | cons w rest =>
    obtain ⟨hne, hw⟩ := hwords w List.mem_cons_self
    obtain ⟨c, cs, rfl⟩ := List.exists_cons_of_ne_nil hne
    have hc := hw c List.mem_cons_self
    have hall : ∀ d ∈ ((c :: cs) :: rest).flatMap capitalizedWord, d.isAlphanum = true := by
      intro d hd
      obtain ⟨v, hv, hd⟩ := List.mem_flatMap.mp hd
      exact capitalizedWord_alphanum (hwords v hv).2 d hd
    have heq : ((c :: cs) :: rest).flatMap capitalizedWord =
        c.toUpper :: (cs.map Char.toLower ++ rest.flatMap capitalizedWord) := by
      rw [List.flatMap_cons, capitalizedWord_cons hw, List.cons_append]
    exact .inr ⟨c.toUpper, _, heq, isLowercase_toUpper hc, heq ▸ hall⟩

/-- Letters and digits that begin with no lowercase letter are joined behind their first character,
which stays. -/
theorem toList_upperCamelCase {name : String} (hname : name.toList = c :: s)
    (hc : isLowercase c = false) (h : ∀ d ∈ c :: s, d.isAlphanum = true) :
    (upperCamelCase name).toList =
      (splitRun (caseAfter .boundary c) [c] s).flatMap capitalizedWord := by
  rw [upperCamelCase, String.toList_ofList, hname, words_of_alphanum (List.cons_ne_nil c s) h,
    splitRun_start hc]

/-- What is in camel case is kept exactly if each capital behind its first character begins a
word. -/
theorem upperCamelCase_eq_self_iff {name : String} (hname : name.toList = c :: s)
    (hc : isLowercase c = false) (h : ∀ d ∈ c :: s, d.isAlphanum = true) :
    upperCamelCase name = name ↔ CapitalsSeen (caseAfter .boundary c) s := by
  obtain ⟨hcAlphanum, hs⟩ := List.forall_mem_cons.mp h
  have hopen : caseAfter .boundary c ≠ .lowercase := by
    rw [caseAfter, hc, if_neg Bool.false_ne_true]
    split <;> decide
  rw [← isCamelCase_iff _ (List.cons_ne_nil c []) (List.forall_mem_singleton.mpr hcAlphanum) hs
    (capitalizedWord_singleton hcAlphanum hc) (fun h => absurd h hopen), ← String.toList_inj,
    toList_upperCamelCase hname hc h, hname]
  rfl

/-- In what is made of camel case once more every capital begins a word. -/
theorem exists_upperCamelCase {name : String} (hname : name.toList = c :: s)
    (hc : isLowercase c = false) (h : ∀ d ∈ c :: s, d.isAlphanum = true) :
    ∃ rest, (upperCamelCase name).toList = c :: rest ∧ (∀ d ∈ c :: rest, d.isAlphanum = true) ∧
      CapitalsSeen (caseAfter .boundary c) rest := by
  obtain ⟨hcAlphanum, hs⟩ := List.forall_mem_cons.mp h
  obtain ⟨rest, hrest⟩ := exists_camelTail (caseAfter .boundary c)
    (List.cons_ne_nil c []) (List.forall_mem_singleton.mpr hcAlphanum) hs
  refine ⟨rest, ?_, List.forall_mem_cons.mpr ⟨hcAlphanum, hrest.alphanum⟩, hrest.seen _ .refl⟩
  rw [toList_upperCamelCase hname hc h, hrest.joined, List.reverse_singleton,
    capitalizedWord_singleton hcAlphanum hc]
  rfl

theorem upperCamelCase_append_underscore (name : String) :
    upperCamelCase (name ++ "_") = upperCamelCase name := by
  rw [upperCamelCase, words_append_underscore, upperCamelCase]

theorem upperCamelCase_underscore_append (name : String) :
    upperCamelCase ("_" ++ name) = upperCamelCase name := by
  rw [upperCamelCase, words_underscore_append, upperCamelCase]

end Text

namespace Naming

open Text

variable {name label fallback : String}

theorem upperCamelCase_usableIdentifier (hne : name ≠ "") :
    upperCamelCase (usableIdentifier name fallback) = upperCamelCase name := by
  unfold usableIdentifier
  split
  · next hnil => exact absurd (String.toList_eq_nil_iff.mp hnil) hne
  split
  · exact upperCamelCase_underscore_append name
  unfold safeIdentifier
  split
  · exact upperCamelCase_append_underscore name
  · rfl

/-- Underscores are all that makes a name usable. -/
theorem filter_usableIdentifier (fallback : String) (hne : name ≠ "")
    (h : ∀ c ∈ name.toList, c.isAlphanum = true) :
    (usableIdentifier name fallback).toList.filter (· != '_') = name.toList := by
  have hkept : name.toList.filter (· != '_') = name.toList := by
    refine List.filter_eq_self.mpr fun c hc => bne_iff_ne.mpr ?_
    rintro rfl
    exact absurd (h '_' hc) (by decide)
  unfold usableIdentifier
  split
  · next hnil => exact absurd (String.toList_eq_nil_iff.mp hnil) hne
  split
  · rw [String.toList_append, List.filter_append, hkept]
    rfl
  unfold safeIdentifier
  split
  · rw [String.toList_append, List.filter_append, hkept]
    exact List.append_nil _
  · exact hkept

/-- Names of letters and digits stay different when they are made usable. -/
theorem usableIdentifier_inj {other : String} (hname : name ≠ "") (hother : other ≠ "")
    (h : ∀ c ∈ name.toList, c.isAlphanum = true) (h' : ∀ c ∈ other.toList, c.isAlphanum = true) :
    usableIdentifier name fallback = usableIdentifier other fallback ↔ name = other := by
  refine ⟨fun heq => String.toList_inj.mp ?_, congrArg (usableIdentifier · fallback)⟩
  rw [← filter_usableIdentifier fallback hname h, heq,
    filter_usableIdentifier fallback hother h']

/-- The name of a variant is kept when it is made again exactly if every capital inside it begins a
word; where one does not, it changes once more. -/
theorem variantName_settles (h : ∀ c ∈ label.toList, c.toNat < 128) :
    (variantName (variantName label) = variantName label ↔
      ∀ before c after, (upperCamelCase label).toList = before ++ c :: after → before ≠ [] →
        isUppercase c = true → BeginsWord (lastCase before) after) ∧
    variantName (variantName (variantName label)) = variantName (variantName label) := by
  rcases camelCase_cases h with hnil | ⟨c, s, hname, hc, hall⟩
  · have hempty : upperCamelCase label = "" := String.toList_eq_nil_iff.mp hnil
    have hvariant : variantName label = "Variant" := by rw [variantName, hempty]; rfl
    have hkept : variantName "Variant" = "Variant" := by decide +kernel
    rw [hvariant, hkept, hnil, hkept]
    exact ⟨iff_of_true rfl (by simp), rfl⟩
  · have hne {name : String} {c : Char} {s : List Char} (h : name.toList = c :: s) : name ≠ "" := by
      rintro rfl
      cases h
    obtain ⟨rest, hagain, halphanum, hseen⟩ := exists_upperCamelCase hname hc hall
    have hkept : upperCamelCase (upperCamelCase (upperCamelCase label)) =
        upperCamelCase (upperCamelCase label) :=
      (upperCamelCase_eq_self_iff hagain hc halphanum).mpr hseen
    have hcamel : upperCamelCase (variantName label) = upperCamelCase (upperCamelCase label) :=
      upperCamelCase_usableIdentifier (hne hname)
    have hcamel' : upperCamelCase (variantName (variantName label)) =
        upperCamelCase (upperCamelCase label) := by
      rw [variantName, hcamel, upperCamelCase_usableIdentifier (hne hagain), hkept]
    refine ⟨?_, ?_⟩
    · have hiff : variantName (variantName label) = variantName label ↔
          upperCamelCase (upperCamelCase label) = upperCamelCase label := by
        rw [variantName, hcamel, variantName]
        exact usableIdentifier_inj (hne hagain) (hne hname) (hagain ▸ halphanum) (hname ▸ hall)
      rw [hiff, upperCamelCase_eq_self_iff hname hc hall, capitalsSeen_iff, hname]
      constructor
      · rintro hrest (_ | ⟨b, before⟩) d after heq hbefore hd
        · exact absurd rfl hbefore
        · obtain ⟨rfl, hrestEq⟩ := List.cons.inj heq
          exact hrest before d after hrestEq hd
      · intro hrest before d after heq hd
        exact hrest (c :: before) d after (congrArg (c :: ·) heq) (List.cons_ne_nil c before) hd
    · rw [variantName, hcamel', variantName, hcamel]

/-- A capital behind a capital is not seen, so the name changes once, and only once. -/
theorem variantName_settles_capitals : (∀ c ∈ "A_B".toList, c.toNat < 128) ∧
    variantName "A_B" = "AB" ∧ variantName "AB" ≠ "AB" ∧
    variantName (variantName "AB") = variantName "AB" := by
  have hall : "A_B".toList.all (·.toNat < 128) = true := by decide
  have hascii : ∀ c ∈ "A_B".toList, c.toNat < 128 := fun c hc =>
    of_decide_eq_true (List.all_eq_true.mp hall c hc)
  have hname : variantName "A_B" = "AB" := by decide +kernel
  have hcamel : (upperCamelCase "A_B").toList = ['A'] ++ 'B' :: [] := by decide +kernel
  obtain ⟨hiff, hsettles⟩ := variantName_settles hascii
  rw [hname] at hiff hsettles
  refine ⟨hascii, hname, fun hkept => ?_, hsettles⟩
  have hcase : lastCase ['A'] = .uppercase := by decide
  have hbegins := hiff.mp hkept ['A'] 'B' [] hcamel (List.cons_ne_nil _ _) (by decide)
  rw [hcase] at hbegins
  simp [BeginsWord] at hbegins

end Naming

end SchemaBindings
