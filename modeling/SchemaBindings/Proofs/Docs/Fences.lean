import SchemaBindings.Proofs.Docs.Trimming

/-!
The fences of rendered lines, as Markdown reads them: a fence is opened by three backticks or more
and an info string without any, and closed by as many of them or more and nothing else. A comment
whose fences are plain is rendered with a tag at every opening fence. In any other one, a fence is
left untagged where a line of backticks alone is read as an opening and is not taken for one.
-/

namespace SchemaBindings.Docs

open Text

/-! ## Reading fences -/

/-- A line that begins with backticks: how many they are, and the info string behind them. -/
structure Ticks where
  count : ℕ
  info : List Char
deriving DecidableEq

/-- The blanks that Markdown takes off an info string. -/
def isSpaceOrTab (c : Char) : Bool :=
  c == ' ' || c == '\t'

/-- Reads a line that begins with three backticks or more, behind three spaces at most. -/
def ticks? (line : List Char) : Option Ticks :=
  let rest := line.dropWhile (· == ' ')
  let run := rest.takeWhile (· == '\x60')
  if line.length ≤ rest.length + 3 ∧ 3 ≤ run.length then
    some ⟨run.length, trimBy isSpaceOrTab (rest.dropWhile (· == '\x60'))⟩
  else none

/-- What a line makes of the state of the reader: the number of backticks that opened the fence
which the lines before left open, if they did. -/
def readLine (opened : Option ℕ) (line : List Char) : Option ℕ :=
  match ticks? line, opened with
  | none, _ => opened
  | some t, none => if '\x60' ∈ t.info then none else some t.count
  | some t, some count => if t.info = [] ∧ count ≤ t.count then none else some count

def openFence (ls : List (List Char)) : Option ℕ :=
  ls.foldl readLine none

/-- Among the lines there is an opening fence with the info string. -/
def Opens (ls : List (List Char)) (info : List Char) : Prop :=
  ∃ i line count, ls[i]? = some line ∧ openFence (ls.take i) = none ∧
    ticks? line = some ⟨count, info⟩ ∧ '\x60' ∉ info

/-- Whether a line is nothing but three backticks or more. -/
def isBare (line : List Char) : Bool :=
  isFence line && (trim line).all (· == '\x60')

/-- All fences are three backticks: alone where they close, and with no further backtick in the line
where they open. -/
def HasPlainFences (ls : List (List Char)) : Prop :=
  ∀ i line, ls[i]? = some line → isFence line = true →
    if leavesOpen (ls.take i) then trim line = fence else '\x60' ∉ (trim line).drop 3

instance (ls : List (List Char)) : Decidable (HasPlainFences ls) :=
  decidable_of_iff (∀ i (h : i < ls.length), isFence ls[i] = true →
      if leavesOpen (ls.take i) then trim ls[i] = fence else '\x60' ∉ (trim ls[i]).drop 3)
    ⟨fun h i line hline => by
      obtain ⟨hi, rfl⟩ := List.getElem?_eq_some_iff.mp hline
      exact h i hi,
    fun h i hi => h i _ (List.getElem?_eq_getElem hi)⟩

variable {indent i : ℕ} {inFence : Bool} {line s info : List Char} {ls : List (List Char)}

theorem openFence_concat : openFence (ls ++ [line]) = readLine (openFence ls) line := by
  rw [openFence, List.foldl_concat, openFence]

theorem readLine_of_none (h : ticks? line = none) (opened : Option ℕ) :
    readLine opened line = opened := by
  simp only [readLine, h]

/-! ## Lines that begin with backticks -/

theorem ticks?_replicate {count : ℕ} (hcount : 3 ≤ count) (hs : s.head? ≠ some '\x60') :
    ticks? (' ' :: (List.replicate count '\x60' ++ s)) =
      some ⟨count, trimBy isSpaceOrTab s⟩ := by
  have hspace : (' ' :: (List.replicate count '\x60' ++ s)).dropWhile (· == ' ') =
      List.replicate count '\x60' ++ s := by
    obtain ⟨n, rfl⟩ : ∃ n, count = n + 1 := ⟨count - 1, by omega⟩
    rfl
  have hnone : s.takeWhile (· == '\x60') = [] ∧ s.dropWhile (· == '\x60') = s := by
    cases s with
    | nil => exact ⟨rfl, rfl⟩
    | cons c s =>
      have hc : ¬ (c == '\x60') = true := fun hc => hs (congrArg some (beq_iff_eq.mp hc))
      rw [List.takeWhile_cons, List.dropWhile_cons, if_neg hc, if_neg hc]
      exact ⟨rfl, rfl⟩
  have hticks : ∀ c ∈ List.replicate count '\x60', (c == '\x60') = true :=
    fun c hc => beq_iff_eq.mpr (List.eq_of_mem_replicate hc)
  have hlength : (List.replicate count '\x60' ++ s.takeWhile (· == '\x60')).length = count := by
    rw [hnone.1, List.append_nil, List.length_replicate]
  simp only [ticks?, hspace, List.takeWhile_append_of_pos hticks,
    List.dropWhile_append_of_pos hticks, hlength, hnone.2]
  rw [if_pos ⟨by rw [List.length_cons]; omega, hcount⟩]

/-- The backticks that a text begins with. -/
theorem takeWhile_ticks (s : List Char) : s.takeWhile (· == '\x60') =
    List.replicate (s.takeWhile (· == '\x60')).length '\x60' :=
  List.eq_replicate_iff.mpr ⟨rfl, fun c hc => by simpa using List.mem_takeWhile_imp hc⟩

theorem exists_replicate (h : isFence line = true) : ∃ count s, 3 ≤ count ∧
    s.head? ≠ some '\x60' ∧ trim line = List.replicate count '\x60' ++ s := by
  obtain ⟨info, hinfo⟩ := isFence_iff.mp h
  refine ⟨3 + (info.takeWhile (· == '\x60')).length, info.dropWhile (· == '\x60'),
    Nat.le_add_right _ _, fun hhead => ?_, ?_⟩
  · have hfalse := List.head?_dropWhile_not (· == '\x60') info
    rw [hhead] at hfalse
    cases hfalse
  · rw [List.replicate_add, ← takeWhile_ticks, List.append_assoc,
      List.takeWhile_append_dropWhile, hinfo]
    rfl

/-- What is a fence to the reader is one to the renderer. -/
theorem fence_prefix_of_ticks? {t : Ticks} (h : ticks? line = some t) :
    fence <+: trimStart line := by
  rw [ticks?] at h
  split at h
  · next hcount =>
    have hprefix : fence <+: line.dropWhile (· == ' ') := by
      refine List.IsPrefix.trans ?_ (List.takeWhile_prefix (· == '\x60'))
      obtain ⟨n, hn⟩ := Nat.exists_eq_add_of_le hcount.2
      rw [takeWhile_ticks, hn, List.replicate_add]
      exact List.prefix_append _ _
    have hspaces : ∀ c ∈ line.takeWhile (· == ' '), isBlank c = true := by
      intro c hc
      have hspace : c = ' ' := by simpa using List.mem_takeWhile_imp hc
      rw [hspace]
      decide
    rw [trimStart, ← List.takeWhile_append_dropWhile (p := (· == ' ')) (l := line),
      List.dropWhile_append_of_pos hspaces]
    obtain ⟨rest, hrest⟩ := hprefix
    rw [← hrest]
    exact List.prefix_append fence rest
  · cases h

/-! ## Shown lines -/

/-- Of a line that is no fence, nothing but blanks stands before its text when it is shown. -/
theorem trimStart_shownLine (hfence : isFence line = false)
    (hindent : trim line ≠ [] → indent ≤ indentation line) :
    trimStart (shownLine indent inFence line) = trim line := by
  by_cases hline : trim line = []
  · rw [shownLine_eq_nil_iff.mpr hline, hline]
    rfl
  obtain ⟨kept, hkept, hshown⟩ : ∃ kept, (∀ c ∈ kept, isBlank c = true) ∧
      shownLine indent inFence line = ' ' :: (kept ++ trim line) := by
    cases inFence with
    | false =>
      refine ⟨[], List.forall_mem_nil _, ?_⟩
      rw [shownLine, hfence, if_neg Bool.false_ne_true, if_neg hline, if_neg Bool.false_ne_true]
      rfl
    | true =>
      obtain ⟨lead, kept, hkept, -, -, hshown⟩ := shownLine_fenced hfence hline (hindent hline)
      exact ⟨kept, hkept, hshown⟩
  rw [hshown, trimStart, List.dropWhile_cons, if_pos (by decide),
    List.dropWhile_append_of_pos hkept]
  exact trimStart_trim

theorem ticks?_shownLine_eq_none (hfence : isFence line = false)
    (hindent : trim line ≠ [] → indent ≤ indentation line) :
    ticks? (shownLine indent inFence line) = none := by
  cases h : ticks? (shownLine indent inFence line) with
  | none => rfl
  | some t =>
    have hprefix := fence_prefix_of_ticks? h
    rw [trimStart_shownLine hfence hindent, ← List.isPrefixOf_iff_prefix] at hprefix
    exact absurd hprefix (Bool.eq_false_iff.mp hfence)

/-- What stands behind the backticks of a trimmed line is no info string only if it is nothing. -/
theorem info_eq_nil_iff {count : ℕ} (h : trim line = List.replicate count '\x60' ++ s) :
    trimBy isSpaceOrTab s = [] ↔ s = [] := by
  refine ⟨fun hinfo => ?_, fun hs => by rw [hs]; rfl⟩
  rcases List.eq_nil_or_concat' s with hs | ⟨init, c, rfl⟩
  · exact hs
  · have hspace := trimBy_eq_nil_iff.mp hinfo c (List.mem_append_right _ List.mem_cons_self)
    have hc : isBlank c = false := isBlank_of_trim_concat (h.trans (List.append_assoc ..).symm)
    rcases Bool.or_eq_true_iff.mp hspace with hspace | hspace
    all_goals
      rw [beq_iff_eq.mp hspace] at hc
      cases hc

theorem isBare_iff {count : ℕ} (hcount : 3 ≤ count) (hs : s.head? ≠ some '\x60')
    (h : trim line = List.replicate count '\x60' ++ s) : isBare line = true ↔ s = [] := by
  have hfence : isFence line = true := by
    obtain ⟨n, rfl⟩ := Nat.exists_eq_add_of_le hcount
    rw [isFence_iff]
    exact ⟨List.replicate n '\x60' ++ s, by rw [h, List.replicate_add, List.append_assoc]; rfl⟩
  rw [isBare, hfence, Bool.true_and, h, List.all_append, List.all_replicate]
  cases s with
  | nil => simp
  | cons c s =>
    have hc : ¬ c = '\x60' := fun hc => hs (congrArg some hc)
    simp [hc]

/-- An untagged fence is shown of a line that is nothing but backticks, unless the line is tagged:
three backticks where no fence is open. -/
theorem ticks?_shownLine_iff (hindent : trim line ≠ [] → indent ≤ indentation line) :
    (∃ count, ticks? (shownLine indent inFence line) = some ⟨count, []⟩) ↔
      isBare line = true ∧ ¬ (inFence = false ∧ trim line = fence) := by
  cases hfence : isFence line with
  | false =>
    rw [ticks?_shownLine_eq_none hfence hindent, isBare, hfence]
    simp
  | true =>
    by_cases htagged : inFence = false ∧ trim line = fence
    · have hshown : shownLine indent inFence line = ' ' :: (fence ++ "text".toList) := by
        rw [shownLine, if_pos hfence, htagged.1, htagged.2]
        rfl
      have hread : ticks? (' ' :: (fence ++ "text".toList)) = some ⟨3, "text".toList⟩ := by decide
      rw [hshown, hread]
      simp [htagged]
    · obtain ⟨count, s, hcount, hs, hline⟩ := exists_replicate hfence
      have hshown : shownLine indent inFence line = ' ' :: trim line := by
        rw [shownLine, if_pos hfence, if_neg]
        simpa using htagged
      rw [hshown, hline, ticks?_replicate hcount hs, isBare_iff hcount hs hline,
        ← info_eq_nil_iff hline]
      simp [← hline, htagged]

/-! ## Rendered comments -/

theorem take_renderLines :
    (renderLines indent inFence ls).take i = renderLines indent inFence (ls.take i) := by
  induction ls generalizing inFence i with
  | nil => rw [List.take_nil, renderLines, List.take_nil]
  | cons line ls ih =>
    cases i with
    | zero => rfl
    | succ i =>
      rw [renderLines_cons, List.take_succ_cons, ih, List.take_succ_cons, renderLines_cons]

theorem getElem?_renderLines : (renderLines indent inFence ls)[i]? =
    ls[i]?.map (shownLine indent (inFence ^^ leavesOpen (ls.take i))) := by
  induction ls generalizing inFence i with
  | nil => rfl
  | cons line ls ih =>
    rw [renderLines_cons]
    cases i with
    | zero =>
      rw [List.take_zero, List.getElem?_cons_zero, List.getElem?_cons_zero]
      simp [leavesOpen]
    | succ i =>
      rw [List.getElem?_cons_succ, ih, List.getElem?_cons_succ, List.take_succ_cons,
        leavesOpen_cons, Bool.xor_assoc]

theorem HasPlainFences.take (h : HasPlainFences ls) (n : ℕ) : HasPlainFences (ls.take n) := by
  intro i line hline
  rw [List.getElem?_take] at hline
  split at hline
  · next hi =>
    rw [List.take_take, min_eq_left hi.le]
    exact h i line hline
  · cases hline

/-- A plain fence opens where none is open, and closes the one that is. -/
theorem readLine_shownLine (hfence : isFence line = true)
    (hplain : if inFence then trim line = fence else '\x60' ∉ (trim line).drop 3) :
    readLine (if inFence then some 3 else none) (shownLine indent inFence line) =
      if inFence then none else some 3 := by
  cases inFence with
  | true =>
    have hshown : shownLine indent true line = ' ' :: fence := by
      rw [shownLine, if_pos hfence, show trim line = fence from hplain]
      rfl
    rw [hshown]
    decide
  | false =>
    obtain ⟨info, hinfo⟩ := isFence_iff.mp hfence
    have hnone : '\x60' ∉ info := by
      rw [if_neg Bool.false_ne_true, hinfo] at hplain
      exact hplain
    cases info with
    | nil =>
      have hshown : shownLine indent false line = ' ' :: (fence ++ "text".toList) := by
        rw [shownLine, if_pos hfence, hinfo]
        rfl
      rw [hshown]
      decide
    | cons c info =>
      have hhead : (c :: info).head? ≠ some '\x60' := fun hhead => hnone (List.mem_of_head? hhead)
      have hshown : shownLine indent false line =
          ' ' :: (List.replicate 3 '\x60' ++ c :: info) := by
        rw [shownLine, if_pos hfence, hinfo, if_neg (by simp)]
        rfl
      simp only [readLine, hshown, ticks?_replicate le_rfl hhead, Bool.false_eq_true, if_false]
      rw [if_neg (mt mem_of_mem_trimBy hnone)]

/-- While all fences are plain, the reader and the renderer agree on whether one is open. -/
theorem HasPlainFences.openFence_eq (h : HasPlainFences ls)
    (hindent : ∀ line ∈ ls, trim line ≠ [] → indent ≤ indentation line) :
    openFence (renderLines indent false ls) = if leavesOpen ls then some 3 else none := by
  induction ls using List.reverseRecOn with
  | nil => rfl
  | append_singleton ls last ih =>
    obtain ⟨hls, hlast⟩ := List.forall_mem_append.mp hindent
    have hbefore : HasPlainFences ls := by simpa using h.take ls.length
    have hplain := h ls.length last (by rw [List.getElem?_concat_length])
    rw [List.take_left] at hplain
    rw [renderLines_concat, openFence_concat, ih hbefore hls, Bool.false_xor, leavesOpen_concat]
    cases hfence : isFence last with
    | false =>
      rw [readLine_of_none (ticks?_shownLine_eq_none hfence (hlast last List.mem_cons_self)),
        Bool.xor_false]
    | true =>
      rw [readLine_shownLine hfence (hplain hfence), Bool.xor_true]
      cases leavesOpen ls <;> rfl

/-- Where the opening fences of rendered lines lack an info string. -/
theorem opens_renderLines_iff
    (hindent : ∀ line ∈ ls, trim line ≠ [] → indent ≤ indentation line) :
    (∀ info, Opens (renderLines indent false ls) info → info ≠ []) ↔
      ∀ i line, ls[i]? = some line → isBare line = true →
        openFence ((renderLines indent false ls).take i) = none →
          leavesOpen (ls.take i) = false ∧ trim line = fence := by
  constructor
  · intro h i line hline hbare hopen
    by_contra hnot
    obtain ⟨count, hread⟩ :=
      (ticks?_shownLine_iff (hindent line (List.mem_of_getElem? hline))).mpr ⟨hbare, hnot⟩
    refine h [] ⟨i, _, count, ?_, hopen, hread, List.not_mem_nil⟩ rfl
    rw [getElem?_renderLines, hline, Option.map_some, Bool.false_xor]
  · rintro h info ⟨i, line, count, hline, hopen, hread, -⟩ rfl
    rw [getElem?_renderLines, Bool.false_xor, Option.map_eq_some_iff] at hline
    obtain ⟨line, hline, rfl⟩ := hline
    obtain ⟨hbare, hnot⟩ :=
      (ticks?_shownLine_iff (hindent line (List.mem_of_getElem? hline))).mp ⟨count, hread⟩
    exact hnot (h i line hline hbare hopen)

/-- A plain fence that is read as an opening is taken for one. -/
theorem HasPlainFences.eq_fence (h : HasPlainFences ls)
    (hindent : ∀ line ∈ ls, trim line ≠ [] → indent ≤ indentation line)
    (hline : ls[i]? = some line) (hbare : isBare line = true)
    (hopen : openFence ((renderLines indent false ls).take i) = none) :
    leavesOpen (ls.take i) = false ∧ trim line = fence := by
  have hclosed : leavesOpen (ls.take i) = false := by
    rw [take_renderLines, (h.take i).openFence_eq
      fun line hmem => hindent line (List.mem_of_mem_take hmem)] at hopen
    simpa using hopen
  obtain ⟨hfence, hall⟩ := Bool.and_eq_true_iff.mp hbare
  obtain ⟨info, hinfo⟩ := isFence_iff.mp hfence
  have hnone := h i line hline hfence
  rw [hclosed, if_neg Bool.false_ne_true, hinfo] at hnone
  refine ⟨hclosed, ?_⟩
  cases info with
  | nil => exact hinfo
  | cons c info =>
    have hc : (c == '\x60') = true := List.all_eq_true.mp hall c (by simp [hinfo])
    exact absurd (beq_iff_eq.mp hc ▸ List.mem_cons_self) hnone

/-- Every opening fence of a rendered comment has an info string exactly if no line of backticks
alone that is read as an opening is longer than three backticks or taken for a closing one by the
renderer. If all fences of the comment are plain there is no such line. -/
theorem render_opens (text : String) :
    let ls := lines text.toList
    let shown := (render (some text)).map String.toList
    ((∀ info, Opens shown info → info ≠ []) ↔
        ∀ i line, ls[i]? = some line → isBare line = true → openFence (shown.take i) = none →
          leavesOpen (ls.take i) = false ∧ trim line = fence) ∧
      (HasPlainFences ls → ∀ info, Opens shown info → info ≠ []) := by
  intro ls shown
  have hindent (line : List Char) (hmem : line ∈ ls) (hline : trim line ≠ []) :
      commonIndentation ls ≤ indentation line := commonIndentation_le hmem hline
  have hshown : shown = renderLines (commonIndentation ls) false ls := by
    simp [shown, ls, render]
  rw [hshown]
  have huntagged := opens_renderLines_iff hindent
  exact ⟨huntagged, fun hplain => huntagged.mpr fun i line => hplain.eq_fence hindent⟩

/-- A fence of four backticks is left untagged, and one of three is not. -/
theorem render_opens_long :
    Opens ((render (some "````\nx\n````")).map String.toList) [] ∧
      ∀ info, Opens ((render (some "```\nx\n```")).map String.toList) info → info ≠ [] := by
  refine ⟨?_, (render_opens "```\nx\n```").2 ?_⟩
  · by_contra hnone
    have hall := (render_opens "````\nx\n````").1.mp fun info hopens hinfo =>
      hnone (hinfo ▸ hopens)
    exact absurd (hall 0 "````".toList (by decide) (by decide) (by decide)) (by decide)
  · decide

end SchemaBindings.Docs
