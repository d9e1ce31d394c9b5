import Mathlib.Data.List.TakeWhile
import SchemaBindings.Proofs.Docs.Fences

/-!
What becomes of the indentation of comments whose lines are indented with spaces and tabs only.
Every line is shown as one line: prose behind a single space, and the lines of a fenced block
without the indentation that all lines share, so that they keep their places among each other.
-/

namespace SchemaBindings.Docs

open Text

/-! ## Indentation by characters -/

/-- How many characters a line is indented by. -/
def depth (line : List Char) : ℕ :=
  (line.takeWhile isBlank).length

/-- A line that is indented with spaces and tabs only. -/
def IsPlainlyIndented (line : List Char) : Prop :=
  ∀ c ∈ line.takeWhile isBlank, c = ' ' ∨ c = '\t'

instance (line : List Char) : Decidable (IsPlainlyIndented line) :=
  List.decidableBAll _ _

/-- The lines that are not blank are indented by this much or more, and one of them by no more. -/
structure IsShared (ls : List (List Char)) (k : ℕ) : Prop where
  le : ∀ line ∈ ls, trim line ≠ [] → k ≤ depth line
  attained : ∀ line ∈ ls, trim line ≠ [] → ∃ least ∈ ls, trim least ≠ [] ∧ depth least = k

/-- How a line is to be shown where lines share this much indentation. A line is inside a fence if
the lines before it leave one open. The line that opens a fence is a part of it; it is shown like
those outside, save that a tag is put to it where it has none. -/
structure IsShown (k : ℕ) (inside : Bool) (line shown : List Char) : Prop where
  blank : trim line = [] → shown = []
  outside : inside = false → trim line ≠ [] → trim line ≠ fence → shown = ' ' :: trim line
  untagged : inside = false → trim line = fence → shown = ' ' :: (fence ++ "text".toList)
  closing : inside = true → isFence line = true → shown = ' ' :: trim line
  fenced : inside = true → isFence line = false → trim line ≠ [] →
    shown = ' ' :: trimEnd (line.drop k)

/-- A line of a fenced block, at its place among the lines. -/
structure FencedAt (ls : List (List Char)) (i : ℕ) (line : List Char) : Prop where
  place : ls[i]? = some line
  inside : leavesOpen (ls.take i) = true
  content : isFence line = false
  nonblank : trim line ≠ []

variable {k : ℕ} {inFence : Bool} {line : List Char} {ls : List (List Char)}

theorem depth_le_length (line : List Char) : depth line ≤ line.length :=
  (List.takeWhile_prefix isBlank).length_le

/-- A line whose indentation is cut short. -/
theorem drop_eq_append (h : k ≤ depth line) :
    line.drop k = (line.takeWhile isBlank).drop k ++ line.dropWhile isBlank := by
  conv_lhs => rw [← List.takeWhile_append_dropWhile (p := isBlank) (l := line)]
  exact List.drop_append_of_le_length h

theorem mem_takeWhile_of_mem_take (h : k ≤ depth line) {c : Char} (hc : c ∈ line.take k) :
    c ∈ line.takeWhile isBlank := by
  rw [← List.takeWhile_append_dropWhile (p := isBlank) (l := line),
    List.take_append_of_le_length h] at hc
  exact List.mem_of_mem_take hc

theorem trim_drop (h : k ≤ depth line) : trim (line.drop k) = trim line := by
  have hblank : ∀ c ∈ (line.takeWhile isBlank).drop k, isBlank c = true :=
    fun c hc => List.mem_takeWhile_imp (List.mem_of_mem_drop hc)
  rw [trim, trimStart, drop_eq_append h, List.dropWhile_append_of_pos hblank,
    List.dropWhile_idempotent, trim, trimStart]

/-- Cutting the indentation short leaves the rest of it. -/
theorem depth_drop (h : k ≤ depth line) : depth (line.drop k) + k = depth line := by
  have hblank : ∀ c ∈ (line.takeWhile isBlank).drop k, isBlank c = true :=
    fun c hc => List.mem_takeWhile_imp (List.mem_of_mem_drop hc)
  have hrest : (line.dropWhile isBlank).takeWhile isBlank = [] := by
    cases hdrop : line.dropWhile isBlank with
    | nil => rfl
    | cons c rest =>
      have hhead := List.head?_dropWhile_not isBlank line
      rw [hdrop] at hhead
      rw [List.takeWhile_cons, if_neg (by simpa using hhead)]
  rw [depth, drop_eq_append h, List.takeWhile_append_of_pos hblank, hrest, List.append_nil,
    List.length_drop, ← depth]
  omega

/-- Blanks at the end of a line that is not blank are no indentation. -/
theorem depth_trimEnd (h : trim line ≠ []) : depth (trimEnd line) = depth line := by
  have hblank : ∀ c ∈ line.takeWhile isBlank, isBlank c = true :=
    fun c hc => List.mem_takeWhile_imp hc
  obtain ⟨c, rest, hline⟩ := List.exists_cons_of_ne_nil h
  rw [depth, trimEnd_eq_append h, List.takeWhile_append_of_pos hblank, hline, List.takeWhile_cons,
    isBlank_of_trim_cons hline, if_neg Bool.false_ne_true, List.append_nil, ← depth]

/-! ## Spaces and tabs -/

theorem IsPlainlyIndented.utf8Size (h : IsPlainlyIndented line) :
    ∀ c ∈ line.takeWhile isBlank, c.utf8Size = 1 := by
  intro c hc
  rcases h c hc with rfl | rfl <;> rfl

/-- Spaces and tabs are characters of one byte. -/
theorem IsPlainlyIndented.indentation_eq (h : IsPlainlyIndented line) :
    indentation line = depth line := by
  have hcount : ∀ cs : List Char, (∀ c ∈ cs, c.utf8Size = 1) →
      cs.foldr (fun c n => c.utf8Size + n) 0 = cs.length := by
    intro cs hcs
    induction cs with
    | nil => rfl
    | cons c cs ih =>
      obtain ⟨hc, hrest⟩ := List.forall_mem_cons.mp hcs
      rw [List.foldr_cons, hc, ih hrest, List.length_cons, Nat.add_comm]
  exact hcount _ h.utf8Size

theorem dropBytes?_eq_drop (hk : k ≤ line.length) (h : ∀ c ∈ line.take k, c.utf8Size = 1) :
    dropBytes? k line = some (line.drop k) := by
  induction k generalizing line with
  | zero => simp [dropBytes?]
  | succ k ih =>
    cases line with
    | nil => simp at hk
    | cons c line =>
      obtain ⟨hc, hrest⟩ := List.forall_mem_cons.mp h
      rw [dropBytes?, hc, if_pos (by omega), List.drop_succ_cons, Nat.add_sub_cancel]
      exact ih (Nat.le_of_succ_le_succ hk) hrest

/-- The shared indentation that is computed is the shared one. -/
theorem isShared_commonIndentation
    (h : ∀ line ∈ ls, trim line ≠ [] → IsPlainlyIndented line) :
    IsShared ls (commonIndentation ls) := by
  have hfilter {line : List Char} :
      line ∈ ls.filter (!isBlankLine ·) ↔ line ∈ ls ∧ trim line ≠ [] := by
    rw [List.mem_filter, isBlankLine, Bool.not_eq_true', List.all_eq_false, ne_eq, trim_eq_nil_iff]
    simp
  constructor
  · intro line hmem hline
    rw [← (h line hmem hline).indentation_eq]
    exact commonIndentation_le hmem hline
  · intro line hmem hline
    have hmin : commonIndentation ls ∈ (ls.filter (!isBlankLine ·)).map indentation := by
      rw [commonIndentation]
      cases hcase : ((ls.filter (!isBlankLine ·)).map indentation).min? with
      | none =>
        rw [List.min?_eq_none_iff, List.map_eq_nil_iff] at hcase
        exact absurd (hcase ▸ hfilter.mpr ⟨hmem, hline⟩) List.not_mem_nil
      | some n => exact List.min?_mem hcase
    obtain ⟨least, hleast, heq⟩ := List.mem_map.mp hmin
    obtain ⟨hmem', hline'⟩ := hfilter.mp hleast
    exact ⟨least, hmem', hline', by rw [← (h least hmem' hline').indentation_eq, heq]⟩

/-! ## Lines as they are shown -/

theorem isShown_shownLine (h : trim line ≠ [] → IsPlainlyIndented line ∧ k ≤ depth line) :
    IsShown k inFence line (shownLine k inFence line) where
  blank := shownLine_eq_nil_iff.mpr
  outside := by
    rintro rfl hline hbare
    rw [shownLine]
    by_cases hfence : isFence line = true
    · rw [if_pos hfence, if_neg (by simpa using hbare)]
    · rw [if_neg hfence, if_neg hline, if_neg Bool.false_ne_true]
  untagged := by
    rintro rfl hbare
    have hfence : isFence line = true := isFence_iff.mpr ⟨[], by rw [hbare, List.append_nil]⟩
    rw [shownLine, if_pos hfence, hbare]
    rfl
  closing := by
    rintro rfl hfence
    rw [shownLine, if_pos hfence]
    rfl
  fenced := by
    rintro rfl hfence hline
    obtain ⟨hplain, hk⟩ := h hline
    have hdrop : dropBytes? k line = some (line.drop k) :=
      dropBytes?_eq_drop (hk.trans (depth_le_length line)) fun c hc =>
        hplain.utf8Size c (mem_takeWhile_of_mem_take hk hc)
    rw [shownLine, hfence, if_neg Bool.false_ne_true, if_neg hline, if_pos rfl, hdrop,
      Option.getD_some]

/-- A line outside of a fence stands behind a single space, so it begins no indented block. -/
theorem IsShown.depth_outside {shown : List Char} (h : IsShown k false line shown)
    (hline : trim line ≠ []) : depth shown = 1 := by
  have hsingle {c : Char} {rest : List Char} (hc : isBlank c = false) :
      depth (' ' :: c :: rest) = 1 := by
    rw [depth, List.takeWhile_cons, if_pos (by decide), List.takeWhile_cons, hc,
      if_neg Bool.false_ne_true]
    rfl
  by_cases hbare : trim line = fence
  · rw [h.untagged rfl hbare]
    exact hsingle (by decide)
  · obtain ⟨c, rest, htrim⟩ := List.exists_cons_of_ne_nil hline
    rw [h.outside rfl hline hbare, htrim]
    exact hsingle (isBlank_of_trim_cons htrim)

/-- A line of a fenced block is shown with one space more and the shared indentation less. -/
theorem depth_fenced (hline : trim line ≠ []) (hk : k ≤ depth line) :
    depth (' ' :: trimEnd (line.drop k)) + k = depth line + 1 := by
  have hcons (l : List Char) : depth (' ' :: l) = depth l + 1 := rfl
  have hrest : trim (line.drop k) ≠ [] := trim_drop hk ▸ hline
  have hdrop := depth_drop hk
  rw [hcons, depth_trimEnd hrest]
  omega

/-- The lines of a comment are shown one by one. What is not blank and outside of a fence is
trimmed and stands behind a single space; what is inside loses exactly the indentation that all
lines share, so two lines of fenced blocks keep their difference. -/
theorem render_indented (text : String)
    (h : ∀ line ∈ lines text.toList, trim line ≠ [] → IsPlainlyIndented line) :
    let ls := lines text.toList
    let shown := (render (some text)).map String.toList
    ∃ k, IsShared ls k ∧ shown.length = ls.length ∧
      (∀ i line, ls[i]? = some line → ∃ s, shown[i]? = some s ∧
        IsShown k (leavesOpen (ls.take i)) line s ∧
        (leavesOpen (ls.take i) = false → trim line ≠ [] → depth s = 1)) ∧
      ∀ i j line line' s s', FencedAt ls i line → FencedAt ls j line' →
        shown[i]? = some s → shown[j]? = some s' →
          depth s + depth line' = depth s' + depth line := by
  intro ls shown
  have hshared := isShared_commonIndentation h
  have hshown : shown = renderLines (commonIndentation ls) false ls := by
    simp [shown, ls, render]
  have hat {i : ℕ} {line : List Char} (hline : ls[i]? = some line) :
      shown[i]? = some (shownLine (commonIndentation ls) (leavesOpen (ls.take i)) line) := by
    rw [hshown, getElem?_renderLines, hline, Bool.false_xor, Option.map_some]
  have his {i : ℕ} {line : List Char} (hline : ls[i]? = some line) :
      IsShown (commonIndentation ls) (leavesOpen (ls.take i)) line
        (shownLine (commonIndentation ls) (leavesOpen (ls.take i)) line) :=
    isShown_shownLine fun hne =>
      ⟨h line (List.mem_of_getElem? hline) hne, hshared.le line (List.mem_of_getElem? hline) hne⟩
  have hdepth {i : ℕ} {line s : List Char} (hfenced : FencedAt ls i line)
      (hs : shown[i]? = some s) : depth s + commonIndentation ls = depth line + 1 := by
    rw [hat hfenced.place, Option.some.injEq] at hs
    have hcut := (his hfenced.place).fenced hfenced.inside hfenced.content hfenced.nonblank
    rw [← hs, hcut]
    exact depth_fenced hfenced.nonblank
      (hshared.le line (List.mem_of_getElem? hfenced.place) hfenced.nonblank)
  refine ⟨_, hshared, ?_, fun i line hline => ⟨_, hat hline, his hline, ?_⟩, ?_⟩
  · rw [hshown, length_renderLines]
  · intro hclosed hne
    have houtside := his hline
    rw [hclosed] at houtside ⊢
    exact houtside.depth_outside hne
  · intro i j line line' s s' hline hline' hs hs'
    have hleft := hdepth hline hs
    have hright := hdepth hline' hs'
    omega

/-- A fenced block whose lines are indented with spaces or a tab and spaces. -/
def tabbed : String :=
  "  Example:\n\t```\n   [\n\t     x\n\n  ```\n      prose"

theorem render_indented_tabbed :
    (∀ line ∈ lines tabbed.toList, trim line ≠ [] → IsPlainlyIndented line) ∧
      ∃ s s', ((render (some tabbed)).map String.toList)[2]? = some s ∧
        ((render (some tabbed)).map String.toList)[3]? = some s' ∧ depth s + 6 = depth s' + 3 := by
  have hplain : ∀ line ∈ lines tabbed.toList, trim line ≠ [] → IsPlainlyIndented line := by decide
  obtain ⟨k, -, -, hshown, hdifference⟩ := render_indented tabbed hplain
  have hopening : FencedAt (lines tabbed.toList) 2 "   [".toList := by
    constructor <;> decide
  have hinner : FencedAt (lines tabbed.toList) 3 "\t     x".toList := by
    constructor <;> decide
  obtain ⟨s, hs, -⟩ := hshown 2 _ hopening.place
  obtain ⟨s', hs', -⟩ := hshown 3 _ hinner.place
  exact ⟨hplain, s, s', hs, hs', hdifference 2 3 _ _ s s' hopening hinner hs hs'⟩

end SchemaBindings.Docs
