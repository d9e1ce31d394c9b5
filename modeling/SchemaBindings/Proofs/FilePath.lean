import SchemaBindings.FilePath

/-!
The components of a path that ends with names: those of what stands before them, and then the names.
So are the components of the directory around such a path and of its neighbour with another
extension.
-/

namespace SchemaBindings.FilePath

/-! ## Pieces -/

theorem notMem_of_mem_splitOn {c : Char} {cs part : List Char} (h : part ∈ cs.splitOn c) :
    c ∉ part := by
  induction cs generalizing part with
  | nil =>
    rw [List.splitOn_nil] at h
    rw [List.mem_singleton.mp h]
    exact List.not_mem_nil
  | cons d cs ih =>
    rw [List.splitOn_cons_eq_if_modifyHead] at h
    split at h
    · rcases List.mem_cons.mp h with rfl | h
      · exact List.not_mem_nil
      · exact ih h
    · next hd =>
      obtain ⟨first, rest, heq⟩ := List.exists_cons_of_ne_nil (List.splitOn_ne_nil c cs)
      rw [heq, List.modifyHead_cons] at h
      rcases List.mem_cons.mp h with rfl | h
      · intro hc
        rcases List.mem_cons.mp hc with rfl | hc
        · exact hd (beq_self_eq_true c)
        · exact ih (heq ▸ List.mem_cons_self) hc
      · exact ih (heq ▸ List.mem_cons_of_mem _ h)

theorem slash_notMem_of_mem_pieces {path piece : String} (h : piece ∈ pieces path) :
    '/' ∉ piece.toList := by
  obtain ⟨part, hpart, rfl⟩ := List.mem_map.mp h
  rw [String.toList_ofList]
  exact notMem_of_mem_splitOn hpart

theorem pieces_ne_nil (path : String) : pieces path ≠ [] := by
  simp [pieces, List.splitOn_ne_nil]

theorem pieces_intercalate {ps : List String} (hne : ps ≠ []) (h : ∀ p ∈ ps, '/' ∉ p.toList) :
    pieces ("/".intercalate ps) = ps := by
  have hsplit : ("/".intercalate ps).toList.splitOn '/' = ps.map String.toList := by
    rw [String.toList_intercalate]
    refine List.splitOn_intercalate '/' ?_ ?_
    · simpa using h
    · simpa using hne
  rw [pieces, hsplit]
  simp

theorem intercalate_pieces (path : String) : "/".intercalate (pieces path) = path := by
  rw [← String.toList_inj, String.toList_intercalate, pieces]
  simp

theorem pieces_append (front inner : String) :
    pieces (front ++ "/" ++ inner) = pieces front ++ pieces inner := by
  have htext : (front ++ "/" ++ inner).toList = front.toList ++ '/' :: inner.toList := by
    simp [String.toList_append]
  rw [pieces, htext, List.splitOn_append_cons_self, List.map_append]
  rfl

/-! ## Steps -/

/-- A text that is a name wherever it stands in a path. -/
structure IsName (name : String) : Prop where
  nonempty : name ≠ ""
  current : name ≠ "."
  parent : name ≠ ".."
  slash : '/' ∉ name.toList

/-- The components of a path by its pieces, save for the empty path. -/
def steps : List String → List Component
  | "" :: rest => .root :: rest.filterMap stepOf?
  | "." :: rest => .current :: rest.filterMap stepOf?
  | ps => ps.filterMap stepOf?

theorem components_eq_steps {path : String} (h : pieces path ≠ [""]) :
    components path = steps (pieces path) := by
  have hne := pieces_ne_nil path
  unfold components steps
  split <;> simp_all

/-- The root is only at the beginning of a path. -/
theorem root_notMem_tail (path : String) : Component.root ∉ (components path).tail := by
  have hstep (ps : List String) : Component.root ∉ ps.filterMap stepOf? := by
    intro hmem
    obtain ⟨p, -, hp⟩ := List.mem_filterMap.mp hmem
    unfold stepOf? at hp
    split at hp <;> cases hp
  unfold components
  split
  · exact List.not_mem_nil
  · exact List.not_mem_nil
  · exact hstep _
  · exact hstep _
  · exact fun hmem => hstep _ (List.mem_of_mem_tail hmem)

theorem IsName.stepOf?_eq {name : String} (h : IsName name) :
    stepOf? name = some (.normal name) := by
  unfold stepOf?
  split
  · exact absurd rfl h.nonempty
  · exact absurd rfl h.current
  · exact absurd rfl h.parent
  · rfl

theorem filterMap_names {names : List String} (h : ∀ name ∈ names, IsName name) :
    names.filterMap stepOf? = names.map .normal := by
  induction names with
  | nil => rfl
  | cons name names ih =>
    obtain ⟨hname, hnames⟩ := List.forall_mem_cons.mp h
    rw [List.filterMap_cons, hname.stepOf?_eq, ih hnames]
    rfl

theorem steps_cons {p : String} (hempty : p ≠ "") (hcurrent : p ≠ ".") (rest : List String) :
    steps (p :: rest) = (p :: rest).filterMap stepOf? := by
  unfold steps
  split <;> simp_all

/-- Names after other pieces are the last components. -/
theorem steps_append (ps : List String) {names : List String} (h : ∀ name ∈ names, IsName name) :
    steps (ps ++ names) = steps ps ++ names.map .normal := by
  cases ps with
  | nil =>
    cases names with
    | nil => rfl
    | cons name names =>
      have hname := h name List.mem_cons_self
      rw [List.nil_append, steps_cons hname.nonempty hname.current, filterMap_names h]
      rfl
  | cons p rest =>
    by_cases hempty : p = ""
    · subst hempty
      simp [steps, filterMap_names h]
    by_cases hcurrent : p = "."
    · subst hcurrent
      simp [steps, filterMap_names h]
    · rw [List.cons_append, steps_cons hempty hcurrent, steps_cons hempty hcurrent,
        ← List.cons_append, List.filterMap_append, filterMap_names h]

theorem eq_of_isIdle {p : String} (h : isIdle p = true) : p = "" ∨ p = "." := by
  rwa [isIdle, Bool.or_eq_true, beq_iff_eq, beq_iff_eq] at h

theorem filterMap_idle {idle : List String} (h : ∀ p ∈ idle, isIdle p = true) :
    idle.filterMap stepOf? = [] := by
  rw [List.filterMap_eq_nil_iff]
  intro p hp
  rcases eq_of_isIdle (h p hp) with rfl | rfl <;> rfl

theorem steps_append_idle (ps : List String) (hps : ps ≠ []) {idle : List String}
    (h : ∀ p ∈ idle, isIdle p = true) : steps (ps ++ idle) = steps ps := by
  obtain ⟨p, rest, rfl⟩ := List.exists_cons_of_ne_nil hps
  by_cases hempty : p = ""
  · subst hempty
    simp [steps, filterMap_idle h]
  by_cases hcurrent : p = "."
  · subst hcurrent
    simp [steps, filterMap_idle h]
  · rw [List.cons_append, steps_cons hempty hcurrent, steps_cons hempty hcurrent,
      ← List.cons_append, List.filterMap_append, filterMap_idle h, List.append_nil]

/-- Of pieces that lead nowhere only the first can count. -/
theorem steps_of_idle {idle : List String} (h : ∀ p ∈ idle, isIdle p = true) :
    steps idle = [] ∨ steps idle = [.root] ∨ steps idle = [.current] := by
  cases idle with
  | nil => exact .inl rfl
  | cons p rest =>
    have hrest := filterMap_idle fun q hq => h q (List.mem_cons_of_mem p hq)
    rcases eq_of_isIdle (h p List.mem_cons_self) with rfl | rfl
    · exact .inr (.inl (congrArg (Component.root :: ·) hrest))
    · exact .inr (.inr (congrArg (Component.current :: ·) hrest))

theorem components_of_idle {path : String} (h : ∀ p ∈ pieces path, isIdle p = true) :
    components path = [] ∨ components path = [.root] ∨ components path = [.current] := by
  by_cases hempty : pieces path = [""]
  · rw [components, hempty]
    exact .inl rfl
  · rw [components_eq_steps hempty]
    exact steps_of_idle h

theorem components_intercalate {ps : List String} (hne : ps ≠ []) (hempty : ps ≠ [""])
    (h : ∀ p ∈ ps, '/' ∉ p.toList) : components ("/".intercalate ps) = steps ps := by
  have hpieces := pieces_intercalate hne h
  rw [components_eq_steps (by rwa [hpieces]), hpieces]

theorem IsName.isIdle_eq {name : String} (h : IsName name) : isIdle name = false := by
  rw [isIdle, Bool.or_eq_false_iff, beq_eq_false_iff_ne, beq_eq_false_iff_ne]
  exact ⟨h.nonempty, h.current⟩

/-! ## A path that ends with a name -/

/-- The path has the pieces, the last of which is a name. -/
structure EndsWith (path : String) (before : List String) (name : String) : Prop where
  pieces_eq : pieces path = before ++ [name]
  isName : IsName name

namespace EndsWith

variable {path name : String} {before : List String}

theorem components_eq (h : EndsWith path before name) :
    components path = steps before ++ [.normal name] := by
  have hne : pieces path ≠ [""] := by
    intro heq
    have hlast : [name] = [""] := by
      rw [h.pieces_eq] at heq
      exact (List.append_inj' (heq.trans (List.nil_append _).symm) rfl).2
    exact h.isName.nonempty (List.singleton_inj.mp hlast)
  rw [components_eq_steps hne, h.pieces_eq, steps_append before (by simpa using h.isName)]
  rfl

theorem endsInDirectory_eq (h : EndsWith path before name) :
    endsInDirectory path = false := by
  rw [endsInDirectory, h.pieces_eq, List.getLast?_concat]
  simp only [h.isName.isIdle_eq, Bool.false_and]

theorem fileName?_eq (h : EndsWith path before name) : fileName? path = some name := by
  rw [fileName?, h.components_eq, List.getLast?_concat]

/-- What is left of the pieces without those at the end that lead nowhere. -/
theorem dropWhile_pieces (h : EndsWith path before name) :
    (pieces path).reverse.dropWhile isIdle = name :: before.reverse := by
  rw [h.pieces_eq, List.reverse_concat, List.dropWhile_cons_of_neg]
  rw [h.isName.isIdle_eq]
  decide

/-- The directory around a path has all its components but the last. -/
theorem components_parent (h : EndsWith path before name) :
    components (parent path) = steps before := by
  have hcomponents := h.components_eq
  have hbefore : before = (before.reverse.dropWhile isIdle).reverse ++
      (before.reverse.takeWhile isIdle).reverse := by
    rw [← List.reverse_append, List.takeWhile_append_dropWhile, List.reverse_reverse]
  have hidle : ∀ p ∈ (before.reverse.takeWhile isIdle).reverse, isIdle p = true := by
    intro p hp
    have hall : (before.reverse.takeWhile isIdle).all isIdle = true := List.all_takeWhile
    exact List.all_eq_true.mp hall p (List.mem_reverse.mp hp)
  unfold parent
  rw [h.dropWhile_pieces, List.drop_one, List.tail_cons, hcomponents]
  split
  · next hkept =>
    rw [hkept, List.reverse_nil, List.nil_append] at hbefore
    rw [← hbefore] at hidle
    rcases steps_of_idle hidle with hsteps | hsteps | hsteps <;> rw [hsteps]
    · have hnowhere : components "" = [] := by decide
      exact hnowhere
    · have hroot : components "/" = [.root] := by decide
      exact hroot
    · have hcurrent : components "." = [.current] := by decide
      exact hcurrent
  · next hkept =>
    have hfirst := List.head_dropWhile_not isIdle hkept
    generalize before.reverse.dropWhile isIdle = kept at *
    have hne : kept.reverse ≠ [] := by simpa using hkept
    have hempty : kept.reverse ≠ [""] := by
      intro heq
      obtain rfl : kept = [""] := by rw [← List.reverse_reverse kept, heq]; rfl
      cases hfirst
    have hslash : ∀ p ∈ kept.reverse, '/' ∉ p.toList := by
      intro p hp
      have hmem : p ∈ pieces path := by
        rw [h.pieces_eq, hbefore]
        exact List.mem_append_left _ (List.mem_append_left _ hp)
      exact slash_notMem_of_mem_pieces hmem
    calc components ("/".intercalate kept.reverse)
        = steps kept.reverse := components_intercalate hne hempty hslash
      _ = steps (kept.reverse ++ (before.reverse.takeWhile isIdle).reverse) :=
          (steps_append_idle _ hne hidle).symm
      _ = steps before := congrArg steps hbefore.symm

theorem withExtension_endsWith (h : EndsWith path before name) {extension : String}
    (hname : IsName ((splitName name).1 ++ "." ++ extension)) :
    EndsWith (withExtension path extension) before ((splitName name).1 ++ "." ++ extension) := by
  refine ⟨?_, hname⟩
  have htext : withExtension path extension =
      "/".intercalate (before ++ [(splitName name).1 ++ "." ++ extension]) := by
    rw [withExtension, h.fileName?_eq, h.dropWhile_pieces]
    simp
  rw [htext, pieces_intercalate (by simp)]
  intro p hp
  rcases List.mem_append.mp hp with hp | hp
  · exact slash_notMem_of_mem_pieces (h.pieces_eq ▸ List.mem_append_left _ hp)
  · exact List.mem_singleton.mp hp ▸ hname.slash

end EndsWith

/-! ## Paths below a directory -/

theorem exists_append_slash {directory : String} (h : directory.endsWith "/" = true) :
    ∃ outer, directory = outer ++ "/" := by
  rw [String.endsWith_eq_endsWith_toSlice, String.Slice.endsWith_string_iff] at h
  obtain ⟨outer, houter⟩ := h
  refine ⟨String.ofList outer, ?_⟩
  rw [← String.toList_inj, String.toList_append, String.toList_ofList]
  simpa using houter.symm

theorem exists_pieces_below (directory : String) {names : List String} (hne : names ≠ [])
    (h : ∀ name ∈ names, IsName name) :
    ∃ before, pieces (below directory names) = before ++ names ∧
      steps before = components directory := by
  have hinner : pieces ("/".intercalate names) = names :=
    pieces_intercalate hne fun name hname => (h name hname).slash
  have hsome : ("/".intercalate names).isEmpty = false := by
    rw [Bool.eq_false_iff, ne_eq, String.isEmpty_iff]
    intro heq
    rw [heq] at hinner
    exact (h "" (hinner ▸ List.mem_singleton_self "")).nonempty rfl
  rw [below, hsome]
  simp only [Bool.false_eq_true, if_false]
  by_cases hempty : directory = ""
  · subst hempty
    exact ⟨[], hinner, rfl⟩
  have hpieces : pieces directory ≠ [""] := by
    intro heq
    have htext := intercalate_pieces directory
    rw [heq] at htext
    exact hempty htext.symm
  split
  · next hend =>
    rw [Bool.or_eq_true, String.isEmpty_iff] at hend
    obtain ⟨outer, rfl⟩ := exists_append_slash (hend.resolve_left hempty)
    have hdirectory : pieces (outer ++ "/") = pieces outer ++ [""] := by
      have happend := pieces_append outer ""
      rwa [String.append_empty] at happend
    refine ⟨pieces outer, by rw [pieces_append, hinner], ?_⟩
    rw [components_eq_steps hpieces, hdirectory, steps_append_idle _ (pieces_ne_nil outer)]
    intro p hp
    rw [List.mem_singleton.mp hp]
    rfl
  · exact ⟨pieces directory, by rw [pieces_append, hinner], (components_eq_steps hpieces).symm⟩

theorem endsWith_below (directory : String) {front : List String} {last : String}
    (h : ∀ name ∈ front ++ [last], IsName name) :
    ∃ before, EndsWith (below directory (front ++ [last])) before last ∧
      steps before = components directory ++ front.map .normal := by
  obtain ⟨before, hpieces, hsteps⟩ := exists_pieces_below directory (by simp) h
  refine ⟨before ++ front, ⟨by rw [hpieces, List.append_assoc], h last (by simp)⟩, ?_⟩
  rw [steps_append before (fun name hname => h name (List.mem_append_left _ hname)), hsteps]

theorem components_below (directory : String) {front : List String} {last : String}
    (h : ∀ name ∈ front ++ [last], IsName name) :
    components (below directory (front ++ [last])) =
      components directory ++ (front ++ [last]).map .normal := by
  obtain ⟨before, hends, hsteps⟩ := endsWith_below directory h
  rw [hends.components_eq, hsteps, List.map_append, List.append_assoc]
  rfl

end SchemaBindings.FilePath
