import SchemaBindings.Proofs.Docs.Lines

/-!
Comments that are trimmed before they are rendered. Blank lines at the ends apart, the lines are the
same ones, but the first line has lost its indentation, so none is common to all of them any more:
the lines of a fenced block keep the indentation that is otherwise taken off.
-/

namespace SchemaBindings.Docs

open Text

/-- Rendered lines without the blank ones at both ends. -/
def withoutBlankEnds (ls : List String) : List String :=
  trimBy String.isEmpty ls

/-- A line that is shown as part of a fenced block: it is not blank, no fence itself, and the lines
before it leave a fence open. -/
def IsFenced (ls : List (List Char)) (line : List Char) : Prop :=
  ∃ before after, ls = before ++ line :: after ∧ leavesOpen before = true ∧
    isFence line = false ∧ trim line ≠ []

variable {indent : Nat} {inFence : Bool} {c : Char} {line s : List Char} {ls : List (List Char)}

/-! ## Without indentation -/

/-- The lines of a text as they are shown with nothing taken off their indentation, without blank
ones at both ends. -/
def shownWhole (s : List Char) : List (List Char) :=
  trimBy List.isEmpty (renderLines 0 false (s.splitOn '\n'))

theorem shownWhole_cons (h : isBlank c = true) : shownWhole (c :: s) = shownWhole s := by
  rw [shownWhole, shownWhole, List.splitOn_cons_eq_if_modifyHead]
  split
  · rw [renderLines_cons, shownLine_nil, trimBy_cons List.isEmpty_nil]
    rfl
  · obtain ⟨head, rest, hs⟩ := List.exists_cons_of_ne_nil (List.splitOn_ne_nil '\n' s)
    rw [hs, List.modifyHead_cons, renderLines_cons, renderLines_cons, isFence_congr (trim_cons h),
      shownLine_congr (trim_cons h) fun hopen => absurd hopen Bool.false_ne_true]

theorem shownWhole_concat (h : isBlank c = true) : shownWhole (s ++ [c]) = shownWhole s := by
  rw [shownWhole, shownWhole]
  by_cases hc : c = '\n'
  · rw [hc, List.splitOn_append_cons_self, List.splitOn_nil, renderLines_concat, shownLine_nil,
      trimBy_concat List.isEmpty_nil]
  · obtain ⟨init, last, hs, hconcat⟩ := splitOn_concat hc s
    rw [hs, hconcat, renderLines_concat, renderLines_concat,
      shownLine_congr (trim_concat h) fun _ => trimEnd_concat h]

theorem shownWhole_trim (s : List Char) : shownWhole (trim s) = shownWhole s :=
  apply_trimBy (fun _ _ => shownWhole_cons) (fun _ _ => shownWhole_concat) s

/-- The lines of a text are shown like what stands between its newlines: the carriage return before
a newline is blank, and so is what stands behind a newline at the end. -/
theorem trimBy_renderLines_lines (s : List Char) :
    trimBy List.isEmpty (renderLines 0 false (lines s)) = shownWhole s := by
  obtain ⟨init, last, hs⟩ :=
    (List.eq_nil_or_concat' _).resolve_left (List.splitOn_ne_nil '\n' s)
  have hinit : renderLines 0 false (init.map withoutReturn) = renderLines 0 false init :=
    renderLines_map trim_withoutReturn trimEnd_withoutReturn
  have hopen : leavesOpen (init.map withoutReturn) = leavesOpen init := by
    rw [leavesOpen, leavesOpen, List.countP_map]
    congr 3
    exact funext fun line => isFence_congr (trim_withoutReturn line)
  rw [lines_eq init hs, shownWhole, hs]
  cases last with
  | nil =>
    rw [if_pos List.isEmpty_nil, List.append_nil, hinit, renderLines_concat, shownLine_nil,
      trimBy_concat List.isEmpty_nil]
  | cons c last =>
    rw [if_neg (by simp), renderLines_concat, renderLines_concat, hinit, hopen]

/-! ## The common indentation -/

theorem commonIndentation_le (h : line ∈ ls) (hline : trim line ≠ []) :
    commonIndentation ls ≤ indentation line := by
  have hmem : indentation line ∈ (ls.filter (!isBlankLine ·)).map indentation := by
    refine List.mem_map_of_mem (List.mem_filter.mpr ⟨h, ?_⟩)
    rw [isBlankLine, Bool.not_eq_true', List.all_eq_false]
    by_contra hall
    exact hline (trim_eq_nil_iff.mpr (by simpa using hall))
  rw [commonIndentation]
  cases hmin : ((ls.filter (!isBlankLine ·)).map indentation).min? with
  | none => exact Nat.zero_le _
  | some k => exact (List.min?_eq_some_iff.mp hmin).2 _ hmem

/-- A trimmed text begins without indentation, so its lines have none in common. -/
theorem commonIndentation_trim (s : List Char) : commonIndentation (lines (trim s)) = 0 := by
  cases h : trim s with
  | nil => rfl
  | cons c t =>
    have hc := isBlank_of_trim_cons h
    obtain ⟨head, rest, hlines⟩ := lines_cons (s := t) hc
    have hmem : c :: head ∈ lines (c :: t) := hlines ▸ List.mem_cons_self
    have hle := commonIndentation_le hmem (trim_ne_nil List.mem_cons_self hc)
    rwa [indentation, List.takeWhile_cons, hc, if_neg Bool.false_ne_true, List.foldr_nil,
      Nat.le_zero] at hle

/-- A trimmed text has no blank line at an end. -/
theorem renderLines_lines_trim (s : List Char) :
    renderLines 0 false (lines (trim s)) = shownWhole s := by
  have hshown {inFence : Bool} {line : List Char} {c : Char} (hmem : c ∈ line)
      (hc : isBlank c = false) : (shownLine 0 inFence line).isEmpty = false := by
    rw [List.isEmpty_eq_false_iff, ne_eq, shownLine_eq_nil_iff]
    exact trim_ne_nil hmem hc
  rw [← shownWhole_trim, ← trimBy_renderLines_lines]
  refine (trimBy_eq_self (fun shown hhead => ?_) (fun shown hlast => ?_)).symm
  · cases h : trim s with
    | nil =>
      rw [h] at hhead
      cases hhead
    | cons c t =>
      have hc := isBlank_of_trim_cons h
      obtain ⟨head, rest, hlines⟩ := lines_cons (s := t) hc
      rw [h, hlines, renderLines_cons, List.head?_cons, Option.some.injEq] at hhead
      exact hhead ▸ hshown List.mem_cons_self hc
  · rcases List.eq_nil_or_concat' (trim s) with h | ⟨t, c, h⟩
    · rw [h] at hlast
      cases hlast
    · have hc := isBlank_of_trim_concat h
      obtain ⟨init, last, hlines⟩ := lines_concat (s := t) hc
      rw [h, hlines, renderLines_concat, List.getLast?_concat, Option.some.injEq] at hlast
      exact hlast ▸ hshown (List.mem_append_right _ List.mem_cons_self) hc

theorem withoutBlankEnds_map (ls : List (List Char)) :
    withoutBlankEnds (ls.map String.ofList) = (trimBy List.isEmpty ls).map String.ofList := by
  rw [withoutBlankEnds, trimBy_map]
  congr 2
  funext line
  rw [Function.comp_apply, Bool.eq_iff_iff, String.isEmpty_iff, List.isEmpty_iff,
    String.ofList_eq_empty_iff]

/-- A trimmed comment is rendered like the comment, blank lines at the ends apart, but with nothing
taken off the indentation of its fenced lines. -/
theorem render_trimmed (text : String) : render (some (trimmed text)) =
    withoutBlankEnds ((renderLines 0 false (lines text.toList)).map String.ofList) := by
  rw [withoutBlankEnds_map, trimBy_renderLines_lines, ← renderLines_lines_trim]
  simp only [render, trimmed, String.toList_ofList, commonIndentation_trim]

/-! ## Fenced lines -/

/-- What is taken off a line within its indentation is blank. -/
theorem dropBytes?_eq_some {rest : List Char} (h : dropBytes? indent line = some rest)
    (hindent : indent ≤ indentation line) :
    ∃ lead, line = lead ++ rest ∧ (∀ c ∈ lead, isBlank c = true) ∧ (lead = [] → indent = 0) := by
  induction indent, line using dropBytes?.induct with
  | case1 line =>
    rw [dropBytes?, Option.some.injEq] at h
    exact ⟨[], h, List.forall_mem_nil _, fun _ => rfl⟩
  | case2 n => cases h
  | case3 n c line hsize ih =>
    rw [dropBytes?, if_pos hsize] at h
    rw [indentation, List.takeWhile_cons] at hindent
    cases hc : isBlank c with
    | false =>
      rw [hc] at hindent
      cases hindent
    | true =>
      rw [hc, if_pos rfl, List.foldr_cons, ← indentation] at hindent
      obtain ⟨lead, heq, hlead, -⟩ := ih h (by omega)
      exact ⟨c :: lead, by rw [heq]; rfl, List.forall_mem_cons.mpr ⟨hc, hlead⟩,
        fun hnil => absurd hnil (List.cons_ne_nil c lead)⟩
  | case4 n c line hsize =>
    rw [dropBytes?, if_neg hsize] at h
    cases h

theorem trimEnd_eq_append (h : trim line ≠ []) :
    trimEnd line = line.takeWhile isBlank ++ trim line := by
  conv_lhs => rw [← List.takeWhile_append_dropWhile (p := isBlank) (l := line)]
  exact trimEnd_append h

/-- A line inside a fence is shown with a part of its indentation, and without a part that is not
empty if anything is to be taken off. -/
theorem shownLine_fenced (hfence : isFence line = false) (hline : trim line ≠ [])
    (hindent : indent ≤ indentation line) :
    ∃ lead kept, (∀ c ∈ kept, isBlank c = true) ∧ (lead = [] → indent = 0) ∧
      trimEnd line = lead ++ kept ++ trim line ∧
      shownLine indent true line = ' ' :: (kept ++ trim line) := by
  rw [shownLine, hfence, if_neg Bool.false_ne_true, if_neg hline, if_pos rfl]
  cases hdrop : dropBytes? indent line with
  | none =>
    refine ⟨line.takeWhile isBlank, [], List.forall_mem_nil _, fun hnil => ?_, ?_, ?_⟩
    · rw [indentation, hnil] at hindent
      exact Nat.le_zero.mp hindent
    · rw [List.append_nil, trimEnd_eq_append hline]
    · rw [Option.getD_none, trimEnd_trim, List.nil_append]
  | some rest =>
    obtain ⟨lead, rfl, hlead, hzero⟩ := dropBytes?_eq_some hdrop hindent
    have htrim : trim (lead ++ rest) = trim rest := by
      rw [trim, trimStart, List.dropWhile_append_of_pos hlead, trim, trimStart]
    rw [htrim] at hline ⊢
    refine ⟨lead, rest.takeWhile isBlank, fun c => List.mem_takeWhile_imp, hzero, ?_, ?_⟩
    · rw [List.append_assoc, ← trimEnd_eq_append hline]
      refine trimEnd_append fun hnil => hline ?_
      exact trim_eq_nil_iff.mpr (trimEnd_eq_nil_iff.mp hnil)
    · rw [Option.getD_some, trimEnd_eq_append hline]

theorem shownLine_eq (h : inFence = true → isFence line = false → trim line = []) :
    shownLine indent inFence line = shownLine 0 inFence line := by
  cases hopen : inFence with
  | false => rfl
  | true =>
    rw [shownLine, shownLine]
    cases hfence : isFence line with
    | true => rfl
    | false => rw [if_pos (h hopen hfence), if_pos (h hopen hfence)]

theorem length_shownLine_lt (hfence : isFence line = false) (hline : trim line ≠ [])
    (hindent : indent ≤ indentation line) (hpos : indent ≠ 0) :
    (shownLine indent true line).length < (shownLine 0 true line).length := by
  obtain ⟨lead, kept, -, hzero, hend, hshown⟩ := shownLine_fenced hfence hline hindent
  have hlead : 0 < lead.length := List.length_pos_iff.mpr (mt hzero hpos)
  have hwhole : shownLine 0 true line = ' ' :: trimEnd line := by
    rw [shownLine, hfence, if_neg Bool.false_ne_true, if_neg hline, if_pos rfl, dropBytes?,
      Option.getD_some]
  rw [hshown, hwhole, hend, List.append_assoc]
  simp only [List.length_cons, List.length_append]
  omega

theorem length_shownLine_le (hindent : trim line ≠ [] → indent ≤ indentation line) :
    (shownLine indent inFence line).length ≤ (shownLine 0 inFence line).length := by
  by_cases h : inFence = true → isFence line = false → trim line = []
  · rw [shownLine_eq h]
  · obtain ⟨rfl, hfence, hline⟩ : inFence = true ∧ isFence line = false ∧ trim line ≠ [] := by
      simpa using h
    rcases eq_or_ne indent 0 with rfl | hpos
    · exact le_rfl
    · exact (length_shownLine_lt hfence hline (hindent hline) hpos).le

theorem length_renderLines_le (hindent : ∀ line ∈ ls, trim line ≠ [] → indent ≤ indentation line) :
    (renderLines indent inFence ls).flatten.length ≤
      (renderLines 0 inFence ls).flatten.length := by
  induction ls generalizing inFence with
  | nil => exact le_rfl
  | cons line ls ih =>
    obtain ⟨hline, hls⟩ := List.forall_mem_cons.mp hindent
    rw [renderLines_cons, renderLines_cons, List.flatten_cons, List.flatten_cons,
      List.length_append, List.length_append]
    exact Nat.add_le_add (length_shownLine_le hline) (ih hls)

theorem length_flatten_trimBy (ls : List (List Char)) :
    (trimBy List.isEmpty ls).flatten.length = ls.flatten.length := by
  refine apply_trimBy (f := fun ls => ls.flatten.length) (fun line ls h => ?_) (fun line ls h => ?_)
    ls
  · rw [List.flatten_cons, List.isEmpty_iff.mp h, List.nil_append]
  · rw [List.flatten_concat, List.isEmpty_iff.mp h, List.append_nil]

/-- Lines without a fenced one are shown with any indentation as with none. -/
theorem renderLines_eq (h : ∀ line, ¬ IsFenced ls line) :
    renderLines indent false ls = renderLines 0 false ls := by
  induction ls using List.reverseRecOn with
  | nil => rfl
  | append_singleton ls last ih =>
    have hls (line : List Char) : ¬ IsFenced ls line := by
      rintro ⟨before, after, rfl, hfenced⟩
      exact h line ⟨before, after ++ [last], by simp, hfenced⟩
    have hlast : shownLine indent (leavesOpen ls) last = shownLine 0 (leavesOpen ls) last :=
      shownLine_eq fun hopen hfence => by
        by_contra hline
        exact h last ⟨ls, [], rfl, hopen, hfence, hline⟩
    rw [renderLines_concat, renderLines_concat, ih hls, Bool.false_xor, hlast]

/-- A comment that was trimmed is rendered like the comment itself, blank lines at the ends apart,
exactly if its lines have no indentation in common or none of them is fenced. -/
theorem render_trimmed_eq_iff (text : String) :
    render (some (trimmed text)) = withoutBlankEnds (render (some text)) ↔
      commonIndentation (lines text.toList) = 0 ∨
        ∀ line, ¬ IsFenced (lines text.toList) line := by
  rw [render_trimmed, render, withoutBlankEnds_map, withoutBlankEnds_map,
    List.map_inj_right fun _ _ => String.ofList_inj.mp]
  generalize hk : commonIndentation (lines text.toList) = k
  have hindent (line : List Char) (hmem : line ∈ lines text.toList) (hline : trim line ≠ []) :
      k ≤ indentation line := hk ▸ commonIndentation_le hmem hline
  constructor
  · intro heq
    by_contra hneither
    obtain ⟨hpos, hfenced⟩ := not_or.mp hneither
    obtain ⟨line, before, after, hlines, hopen, hfence, hline⟩ := not_forall_not.mp hfenced
    rw [hlines] at heq hindent
    obtain ⟨hbefore, hrest⟩ := List.forall_mem_append.mp hindent
    obtain ⟨hat, hafter⟩ := List.forall_mem_cons.mp hrest
    -- Blank lines have no length, so both sides have the length of all lines: no line is longer
    -- without its indentation, and the fenced one is shorter.
    have hlength := congrArg (fun ls => ls.flatten.length) heq
    simp only [length_flatten_trimBy, renderLines_append, renderLines_cons, List.flatten_append,
      List.flatten_cons, List.length_append, hopen, Bool.false_xor] at hlength
    have hlt := length_shownLine_lt hfence hline (hat hline) hpos
    have hle : _ ≤ (renderLines 0 false before).flatten.length := length_renderLines_le hbefore
    have hle' : _ ≤ (renderLines 0 (true ^^ isFence line) after).flatten.length :=
      length_renderLines_le hafter
    omega
  · rintro (rfl | hnone)
    · rfl
    · exact congrArg (trimBy List.isEmpty) (renderLines_eq hnone).symm

end SchemaBindings.Docs
