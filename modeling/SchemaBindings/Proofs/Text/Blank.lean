import Mathlib.Data.List.DropRight
import SchemaBindings.Text.Blank

/-!
Trimming. A list without the elements of a kind at both of its ends, white space among them, begins
and ends with none, and what does not look at such elements at the ends is the same for it.
-/

namespace SchemaBindings.Text

/-- A list without the elements at both of its ends that satisfy a test. -/
def trimBy {α : Type} (p : α → Bool) (l : List α) : List α :=
  (l.dropWhile p).rdropWhile p

section

variable {α β : Type} {p : α → Bool} {a : α} {l : List α}

theorem trimBy_cons (h : p a = true) : trimBy p (a :: l) = trimBy p l := by
  rw [trimBy, List.dropWhile_cons, if_pos h, trimBy]

theorem trimBy_concat (h : p a = true) : trimBy p (l ++ [a]) = trimBy p l := by
  rw [trimBy, List.dropWhile_append, trimBy]
  split
  · next hnil => simp [List.isEmpty_iff.mp hnil, h]
  · exact List.rdropWhile_concat_pos p _ a h

/-- What is the same with such an element put before or behind is the same for the trimmed list. -/
theorem apply_trimBy {f : List α → β} (hstart : ∀ a l, p a = true → f (a :: l) = f l)
    (hend : ∀ a l, p a = true → f (l ++ [a]) = f l) (l : List α) : f (trimBy p l) = f l := by
  have hdrop : f (l.dropWhile p) = f l := by
    induction l with
    | nil => rfl
    | cons a l ih =>
      rw [List.dropWhile_cons]
      split
      · next ha => rw [ih, hstart a l ha]
      · rfl
  rw [← hdrop, trimBy]
  generalize l.dropWhile p = l
  induction l using List.reverseRecOn with
  | nil => rfl
  | append_singleton l a ih =>
    rw [List.rdropWhile_concat]
    split
    · next ha => rw [ih, hend a l ha]
    · rfl

theorem trimBy_eq_nil_iff : trimBy p l = [] ↔ ∀ a ∈ l, p a = true := by
  rw [trimBy, List.rdropWhile_eq_nil_iff]
  constructor
  · intro h a ha
    rw [← List.takeWhile_append_dropWhile (p := p) (l := l)] at ha
    exact (List.mem_append.mp ha).elim (fun ha => List.mem_takeWhile_imp ha) (h a)
  · exact fun h a ha => h a ((List.dropWhile_suffix p).mem ha)

theorem mem_of_mem_trimBy (h : a ∈ trimBy p l) : a ∈ l :=
  (List.dropWhile_suffix p).mem ((List.rdropWhile_prefix p _).mem h)

theorem head?_trimBy (h : (trimBy p l).head? = some a) : p a = false := by
  obtain ⟨trail, heq⟩ := List.rdropWhile_prefix p (l := l.dropWhile p)
  have hhead : (l.dropWhile p).head? = some a := by
    rw [← heq, List.head?_append, ← trimBy, h]
    rfl
  have hfalse := List.head?_dropWhile_not p l
  rw [hhead] at hfalse
  simpa using hfalse

theorem getLast?_trimBy (h : (trimBy p l).getLast? = some a) : p a = false := by
  have hne : trimBy p l ≠ [] := fun hnil => by simp [hnil] at h
  have hlast : ¬ p ((trimBy p l).getLast hne) = true :=
    List.rdropWhile_last_not p (l.dropWhile p) hne
  rw [List.getLast?_eq_some_getLast hne, Option.some.injEq] at h
  simpa [h] using hlast

/-- A list that neither begins nor ends with such an element stays as it is. -/
theorem trimBy_eq_self (hstart : ∀ a, l.head? = some a → p a = false)
    (hend : ∀ a, l.getLast? = some a → p a = false) : trimBy p l = l := by
  have hdrop : l.dropWhile p = l := by
    cases l with
    | nil => rfl
    | cons a l => rw [List.dropWhile_cons, if_neg (by simp [hstart a rfl])]
  rw [trimBy, hdrop, List.rdropWhile_eq_self_iff]
  intro hne
  simp [hend _ (List.getLast?_eq_some_getLast hne)]

theorem trimBy_map {f : β → α} (l : List β) : trimBy p (l.map f) = (trimBy (p ∘ f) l).map f := by
  rw [trimBy, trimBy, List.dropWhile_map, List.rdropWhile, ← List.map_reverse, List.dropWhile_map,
    ← List.map_reverse]
  rfl

end

/-! ## White space -/

variable {c : Char} {s t : List Char}

theorem trim_eq_trimBy : trim s = trimBy isBlank s := rfl

theorem trim_cons (h : isBlank c = true) : trim (c :: s) = trim s :=
  trimBy_cons h

theorem trim_concat (h : isBlank c = true) : trim (s ++ [c]) = trim s :=
  trimBy_concat h

theorem trimEnd_concat (h : isBlank c = true) : trimEnd (s ++ [c]) = trimEnd s :=
  List.rdropWhile_concat_pos isBlank s c h

theorem trimEnd_eq_nil_iff : trimEnd s = [] ↔ ∀ c ∈ s, isBlank c = true :=
  List.rdropWhile_eq_nil_iff

theorem trim_eq_nil_iff : trim s = [] ↔ ∀ c ∈ s, isBlank c = true :=
  trimBy_eq_nil_iff

theorem isBlank_of_trim_cons (h : trim s = c :: t) : isBlank c = false :=
  head?_trimBy (by rw [← trim_eq_trimBy, h, List.head?_cons])

theorem isBlank_of_trim_concat (h : trim s = t ++ [c]) : isBlank c = false :=
  getLast?_trimBy (by rw [← trim_eq_trimBy, h, List.getLast?_concat])

theorem trim_ne_nil (hmem : c ∈ s) (h : isBlank c = false) : trim s ≠ [] :=
  fun hnil => by simp [trim_eq_nil_iff.mp hnil c hmem] at h

/-- Where something is left of a text, what stands before it is left as well. -/
theorem trimEnd_append (h : trimEnd t ≠ []) : trimEnd (s ++ t) = s ++ trimEnd t := by
  rw [trimEnd, List.reverse_append, List.dropWhile_append, if_neg, List.reverse_append,
    List.reverse_reverse, trimEnd]
  intro hnil
  exact h (List.reverse_eq_nil_iff.mpr (List.isEmpty_iff.mp hnil))

theorem trimEnd_eq_self (h : ∀ c, s.getLast? = some c → isBlank c = false) : trimEnd s = s := by
  refine List.rdropWhile_eq_self_iff.mpr fun hne => ?_
  simp [h _ (List.getLast?_eq_some_getLast hne)]

theorem trimEnd_trim : trimEnd (trim s) = trim s :=
  trimEnd_eq_self fun _ h => getLast?_trimBy h

theorem trimStart_trim : trimStart (trim s) = trim s := by
  cases h : trim s with
  | nil => rfl
  | cons c t =>
    rw [trimStart, List.dropWhile_cons, if_neg (Bool.eq_false_iff.mp (isBlank_of_trim_cons h))]

end SchemaBindings.Text
