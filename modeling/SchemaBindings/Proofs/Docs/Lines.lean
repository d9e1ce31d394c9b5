import SchemaBindings.Docs
import SchemaBindings.Proofs.Text.Blank

/-!
The lines of a comment and how each of them is shown. Whether a line is shown as part of a fenced
block depends only on the number of fences before it, and white space at the ends of a line makes no
difference to it unless it is indentation inside a fence.
-/

namespace SchemaBindings.Docs

open Text

/-! ## One line -/

/-- Whether a line opens or closes a fence. -/
def isFence (line : List Char) : Bool :=
  fence.isPrefixOf (trim line)

/-- Whether lines leave a fence open: an odd number of them are fences. -/
def leavesOpen (ls : List (List Char)) : Bool :=
  ls.countP isFence % 2 == 1

/-- How a line is shown; `inFence` says whether a fence is open before it. -/
def shownLine (indent : Nat) (inFence : Bool) (line : List Char) : List Char :=
  if isFence line then
    ' ' :: if !inFence && trim line == fence then fence ++ "text".toList else trim line
  else if trim line = [] then []
  else if inFence then ' ' :: trimEnd ((dropBytes? indent line).getD (trim line))
  else ' ' :: trim line

variable {indent : Nat} {inFence : Bool} {c : Char} {line s : List Char} {ls : List (List Char)}

theorem isFence_congr {line' : List Char} (h : trim line = trim line') :
    isFence line = isFence line' := by
  rw [isFence, h, isFence]

theorem isFence_iff : isFence line = true ↔ ∃ info, trim line = fence ++ info := by
  rw [isFence, List.isPrefixOf_iff_prefix]
  exact ⟨fun ⟨info, h⟩ => ⟨info, h.symm⟩, fun ⟨info, h⟩ => ⟨info, h.symm⟩⟩

/-- Behind the backticks of a trimmed line nothing is blank but nothing at all. -/
theorem isBlankLine_info {info : List Char} (h : trim line = fence ++ info) :
    isBlankLine info = (trim line == fence) := by
  rw [Bool.eq_iff_iff, isBlankLine, List.all_eq_true, beq_iff_eq, h]
  refine ⟨fun hblank => ?_, fun hnone => ?_⟩
  · cases info using List.reverseRecOn with
    | nil => exact List.append_nil _
    | append_singleton info c =>
      have hlast : isBlank c = false :=
        isBlank_of_trim_concat (h.trans (List.append_assoc ..).symm)
      rw [hblank c (List.mem_append_right _ List.mem_cons_self)] at hlast
      cases hlast
  · rw [List.append_right_eq_self.mp hnone]
    exact List.forall_mem_nil _

theorem renderLines_cons : renderLines indent inFence (line :: ls) =
    shownLine indent inFence line :: renderLines indent (inFence ^^ isFence line) ls := by
  rw [renderLines, fenceInfo?, shownLine]
  by_cases h : isFence line = true
  · obtain ⟨info, hinfo⟩ := isFence_iff.mp h
    have hprefix : fence.isPrefixOf (trim line) = true := h
    have hdrop : (trim line).drop 3 = info := by rw [hinfo]; rfl
    rw [h, if_pos hprefix, hdrop]
    dsimp only
    rw [isBlankLine_info hinfo]
    simp
  · have hprefix : ¬ fence.isPrefixOf (trim line) = true := h
    rw [if_neg hprefix, if_neg h, Bool.eq_false_iff.mpr h]
    simp

theorem shownLine_eq_nil_iff : shownLine indent inFence line = [] ↔ trim line = [] := by
  constructor
  · intro h
    unfold shownLine at h
    split_ifs at h with hfence hnil
    exact hnil
  · intro h
    have hfence : isFence line = false := by rw [isFence, h]; rfl
    rw [shownLine, hfence, if_neg Bool.false_ne_true, if_pos h]

/-- Outside of a fence only what is left of a line when it is trimmed makes a difference, and inside
one, where nothing is taken off its indentation, its end does not. -/
theorem shownLine_congr {line' : List Char} (h : trim line = trim line')
    (hend : inFence = true → trimEnd line = trimEnd line') :
    shownLine 0 inFence line = shownLine 0 inFence line' := by
  have hfence : isFence line = isFence line' := isFence_congr h
  cases inFence with
  | false => simp only [shownLine, hfence, h, Bool.false_eq_true, if_false]
  | true => simp only [shownLine, hfence, h, dropBytes?, Option.getD_some, hend rfl]

theorem shownLine_nil : shownLine indent inFence [] = [] :=
  shownLine_eq_nil_iff.mpr rfl

/-! ## Several lines -/

theorem leavesOpen_cons : leavesOpen (line :: ls) = (isFence line ^^ leavesOpen ls) := by
  rw [leavesOpen, leavesOpen, List.countP_cons]
  cases isFence line <;> grind

theorem leavesOpen_concat : leavesOpen (ls ++ [line]) = (leavesOpen ls ^^ isFence line) := by
  induction ls with
  | nil => rw [List.nil_append, leavesOpen_cons]; exact Bool.xor_comm _ _
  | cons line' ls ih => rw [List.cons_append, leavesOpen_cons, ih, leavesOpen_cons, Bool.xor_assoc]

theorem renderLines_append {ls' : List (List Char)} : renderLines indent inFence (ls ++ ls') =
    renderLines indent inFence ls ++ renderLines indent (inFence ^^ leavesOpen ls) ls' := by
  induction ls generalizing inFence with
  | nil =>
    rw [List.nil_append, renderLines, List.nil_append]
    exact congrArg (renderLines indent · ls') (Bool.xor_false inFence).symm
  | cons line ls ih =>
    rw [List.cons_append, renderLines_cons, renderLines_cons, ih, leavesOpen_cons, Bool.xor_assoc]
    rfl

theorem length_renderLines : (renderLines indent inFence ls).length = ls.length := by
  induction ls generalizing inFence with
  | nil => rfl
  | cons line ls ih => rw [renderLines_cons, List.length_cons, ih, List.length_cons]

/-- Lines that differ in blanks at their ends only are shown alike. -/
theorem renderLines_map {f : List Char → List Char} (h : ∀ line, trim (f line) = trim line)
    (hend : ∀ line, trimEnd (f line) = trimEnd line) :
    renderLines 0 inFence (ls.map f) = renderLines 0 inFence ls := by
  induction ls generalizing inFence with
  | nil => rfl
  | cons line ls ih =>
    rw [List.map_cons, renderLines_cons, renderLines_cons, isFence_congr (h line), ih,
      shownLine_congr (h line) fun _ => hend line]

theorem renderLines_concat : renderLines indent inFence (ls ++ [line]) =
    renderLines indent inFence ls ++ [shownLine indent (inFence ^^ leavesOpen ls) line] := by
  rw [renderLines_append, renderLines_cons, renderLines]

/-! ## The lines of a text -/

theorem exists_withoutReturn (line : List Char) :
    withoutReturn line = line ∨ line = withoutReturn line ++ ['\r'] := by
  rw [withoutReturn]
  split
  · next h => exact .inr (List.dropLast_append_getLast? '\r' h).symm
  · exact .inl rfl

theorem trim_withoutReturn (line : List Char) : trim (withoutReturn line) = trim line := by
  rcases exists_withoutReturn line with h | h
  · rw [h]
  · conv_rhs => rw [h, trim_concat (by decide)]

theorem trimEnd_withoutReturn (line : List Char) :
    trimEnd (withoutReturn line) = trimEnd line := by
  rcases exists_withoutReturn line with h | h
  · rw [h]
  · conv_rhs => rw [h, trimEnd_concat (by decide)]

/-- A character behind a text goes to its last line. -/
theorem splitOn_concat (h : c ≠ '\n') (s : List Char) : ∃ init last,
    s.splitOn '\n' = init ++ [last] ∧ (s ++ [c]).splitOn '\n' = init ++ [last ++ [c]] := by
  induction s with
  | nil => exact ⟨[], [], rfl, by simp [List.splitOn_cons_eq_if_modifyHead, h]⟩
  | cons d s ih =>
    obtain ⟨init, last, hs, hc⟩ := ih
    rw [List.cons_append, List.splitOn_cons_eq_if_modifyHead, List.splitOn_cons_eq_if_modifyHead,
      hs, hc]
    by_cases hd : (d == '\n') = true
    · rw [if_pos hd, if_pos hd]
      exact ⟨[] :: init, last, rfl, rfl⟩
    · rw [if_neg hd, if_neg hd]
      cases init with
      | nil => exact ⟨[], d :: last, rfl, rfl⟩
      | cons first init => exact ⟨(d :: first) :: init, last, rfl, rfl⟩

theorem lines_eq (init : List (List Char)) {last : List Char}
    (h : s.splitOn '\n' = init ++ [last]) :
    lines s = init.map withoutReturn ++ if last.isEmpty then [] else [last] := by
  rw [lines, h]
  simp

/-- What begins with a character other than a blank still does as a line. -/
theorem lines_cons (h : isBlank c = false) : ∃ head rest, lines (c :: s) = (c :: head) :: rest := by
  have hc : ¬ (c == '\n') = true := fun hc => absurd (beq_iff_eq.mp hc ▸ h) (by decide)
  obtain ⟨head, rest, hs⟩ := List.exists_cons_of_ne_nil (List.splitOn_ne_nil '\n' s)
  have hsplit : (c :: s).splitOn '\n' = (c :: head) :: rest := by
    rw [List.splitOn_cons_eq_if_modifyHead, if_neg hc, hs, List.modifyHead_cons]
  cases rest using List.reverseRecOn with
  | nil => exact ⟨head, [], lines_eq [] hsplit⟩
  | append_singleton init last =>
    obtain ⟨head', hhead⟩ : ∃ head', withoutReturn (c :: head) = c :: head' := by
      rcases exists_withoutReturn (c :: head) with heq | heq
      · exact ⟨head, heq⟩
      · cases hreturn : withoutReturn (c :: head) with
        | nil =>
          rw [hreturn, List.nil_append, List.cons.injEq] at heq
          exact absurd (heq.1 ▸ h) (by decide)
        | cons d line =>
          rw [hreturn, List.cons_append, List.cons.injEq] at heq
          exact ⟨line, by rw [heq.1]⟩
    refine ⟨head', init.map withoutReturn ++ if last.isEmpty then [] else [last], ?_⟩
    rw [lines_eq ((c :: head) :: init) hsplit, List.map_cons, hhead, List.cons_append]

theorem lines_concat (h : isBlank c = false) :
    ∃ init last, lines (s ++ [c]) = init ++ [last ++ [c]] := by
  have hc : c ≠ '\n' := fun hc => absurd (hc ▸ h) (by decide)
  obtain ⟨init, last, -, hsplit⟩ := splitOn_concat hc s
  exact ⟨init.map withoutReturn, last, by rw [lines_eq init hsplit, if_neg (by simp)]⟩

end SchemaBindings.Docs
