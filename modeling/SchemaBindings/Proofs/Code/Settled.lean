import SchemaBindings.Code.Printable
import SchemaBindings.Code.WellFormed
import SchemaBindings.Proofs.Code.Finished
import SchemaBindings.Proofs.Code.Paths
import SchemaBindings.Proofs.Lookup

/-!
Code that is read back as it is and can be laid out, however its types are relocated. Where
something is written behind a path, the path consists of plain names and begins at the root; types
may be any that are read back and laid out themselves.
-/

namespace SchemaBindings.Code

/-! ## Paths -/

/-- Whether a path begins at the root and arguments, attributes and types can be made of it. -/
def Path.isGlobal (p : Path) : Bool :=
  p.leading && p.takesArgs && p.namesAttribute

/-- All paths that names are put behind are plain. -/
def Relocation.IsPlain (r : Relocation) : Prop :=
  ∀ e ∈ r, e.2.isPlain = true

theorem allSegments_eq (test : PartTest) (segments : List Segment) :
    allSegments test segments = segments.all (·.all test) := by
  induction segments with
  | nil => rfl
  | cons s rest ih => rw [allSegments, ih, List.all_cons]

theorem Segment.eq_mk_of_isPlain {s : Segment} (h : s.isPlain = true) : s = .mk s.ident .none := by
  unfold isPlain at h
  split at h
  · rfl
  · cases h

theorem allSegments_of_isPlain (test : PartTest) {segments : List Segment}
    (h : segments.all Segment.isPlain = true) : allSegments test segments = true := by
  rw [allSegments_eq, List.all_eq_true]
  intro s hs
  rw [Segment.eq_mk_of_isPlain (List.all_eq_true.mp h s hs)]
  rfl

theorem mapSegments_of_isPlain (f : Ty → Ty) {segments : List Segment}
    (h : segments.all Segment.isPlain = true) : mapSegments f segments = segments := by
  induction segments with
  | nil => rfl
  | cons s rest ih =>
    obtain ⟨hs, hrest⟩ := Bool.and_eq_true_iff.mp (List.all_cons.symm.trans h)
    rw [mapSegments, ih hrest, Segment.eq_mk_of_isPlain hs]
    rfl

namespace Path

variable {p : Path} {r : Relocation}

theorem all_of_isPlain (test : PartTest) (h : p.isPlain = true) : p.all test = true := by
  cases p
  exact allSegments_of_isPlain test h

theorem mapTypes_of_isPlain (f : Ty → Ty) (h : p.isPlain = true) : p.mapTypes f = p := by
  cases p
  exact congrArg (mk _) (mapSegments_of_isPlain f h)

theorem isPlain_appendIdents (h : p.isPlain = true) (idents : List Ident) :
    (p.appendIdents idents).isPlain = true := by
  simp_all [appendIdents, isPlain, segments, Segment.isPlain]

theorem isPlain_relocateHead (hr : r.IsPlain) (h : p.isPlain = true) :
    (p.relocateHead r).isPlain = true := by
  have hrest : ∀ s ∈ p.segments.dropWhile (·.ident.text == "super"), s.isPlain = true := fun s hs =>
    List.all_eq_true.mp h s ((List.dropWhile_suffix _).subset hs)
  unfold relocateHead
  split
  · exact h
  dsimp only
  split
  · exact h
  split
  · exact h
  · next target ht =>
    have htarget := hr _ (mem_of_lookup ht)
    simp only [isPlain, segments, List.all_append, Bool.and_eq_true]
    exact ⟨htarget, List.all_eq_true.mpr hrest⟩

/-! ### Paths from the root -/

theorem isGlobal_iff : p.isGlobal = true ↔ p.leading = true ∧ p.takesArgs = true ∧
    p.isPlain = true ∧ p.segments.all (·.ident.text != "try") = true := by
  rw [isGlobal, namesAttribute, Bool.and_eq_true, Bool.and_eq_true, Bool.and_eq_true, and_assoc]

theorem isPlain_of_isGlobal (h : p.isGlobal = true) : p.isPlain = true :=
  (isGlobal_iff.mp h).2.2.1

theorem namesAttribute_of_isGlobal (h : p.isGlobal = true) : p.namesAttribute = true :=
  (Bool.and_eq_true_iff.mp h).2

theorem standsAsValue_of_isGlobal (h : p.isGlobal = true) : p.standsAsValue = true := by
  obtain ⟨hleading, -, hplain, -⟩ := isGlobal_iff.mp h
  have hvalue : p.segments.all Segment.standsInValue = true := by
    refine List.all_eq_true.mpr fun s hs => ?_
    rw [Segment.eq_mk_of_isPlain (List.all_eq_true.mp hplain s hs)]
    rfl
  rw [standsAsValue, hvalue, hleading, Bool.true_or, Bool.and_self]

theorem isGlobal_appendNames (h : p.isGlobal = true) {front : List String} {last : String}
    (hf : front.all (· != "try") = true) (hl : argumentless.contains last = false) :
    (p.appendNames (front ++ [last])).isGlobal = true := by
  obtain ⟨hleading, -, hplain, htry⟩ := isGlobal_iff.mp h
  have hlast : last ≠ "try" := by
    rintro rfl
    exact absurd hl (by decide)
  refine isGlobal_iff.mpr ⟨hleading, ?_, isPlain_appendIdents hplain _, ?_⟩
  · simp only [appendNames, appendIdents, takesArgs, segments, List.map_append, List.map_cons,
      List.map_nil, ← List.append_assoc, List.getLast?_concat, hl, Bool.not_false]
  · simp_all [appendNames, appendIdents, segments, Segment.ident]

end Path

/-! ## Types -/

/-- A bound without arguments. -/
def Bound.isPlain : Bound → Bool
  | .lifetime _ => true
  | .trait _ _ .none p => p.isPlain
  | _ => false

/-- The bound of streams with the given items, the last name of which is that of the trait. -/
def Bound.streamOf (leading : Bool) (front : List Segment) (ident name : Ident) (item : Ty) :
    Bound :=
  .trait false false .none
    (.mk leading (front ++ [.mk ident (.angle false [.assocType name .none item] false)]))

/-- A type is well-formed and can be laid out, however it is relocated. -/
structure Ty.IsSound (t : Ty) : Prop where
  wellFormed : t.all wellFormed = true
  known : ∀ r : Relocation, r.IsPlain → (t.relocate r).all known = true

/-- Sound types, and what is made of them: arguments of global paths and items of streams. -/
inductive Ty.Settled : Ty → Prop
  | given {t : Ty} (h : t.IsSound) : Settled t
  | applied {p : Path} {t : Ty} (hp : p.isGlobal = true) (h : Settled t) : Settled (.applied p [t])
  | stream {leading : Bool} {front : List Segment} {ident name : Ident} {item : Ty}
      {others : List Bound} (hf : front.all Segment.isPlain = true)
      (ho : others.all Bound.isPlain = true) (h : Settled item) :
    Settled (.implTrait (.streamOf leading front ident name item :: others) false)

theorem allBounds_of_isPlain {test : PartTest} {bounds : List Bound}
    (htest : ∀ b, Bound.isPlain b = true → test.bound b = true)
    (h : bounds.all Bound.isPlain = true) : allBounds test bounds = true := by
  induction bounds with
  | nil => rfl
  | cons b rest ih =>
    obtain ⟨hb, hrest⟩ := Bool.and_eq_true_iff.mp (List.all_cons.symm.trans h)
    rw [allBounds, ih hrest, Bool.and_true]
    have hown := htest b hb
    unfold Bound.isPlain at hb
    split at hb
    · exact hown
    · rw [Bound.all, hown, Quantifier.all, Path.all_of_isPlain test hb]
      rfl
    · cases hb

theorem mapBounds_of_isPlain (f : Ty → Ty) {bounds : List Bound}
    (h : bounds.all Bound.isPlain = true) : mapBounds f bounds = bounds := by
  induction bounds with
  | nil => rfl
  | cons b rest ih =>
    obtain ⟨hb, hrest⟩ := Bool.and_eq_true_iff.mp (List.all_cons.symm.trans h)
    rw [mapBounds, ih hrest]
    unfold Bound.isPlain at hb
    split at hb
    · rfl
    · rw [Bound.mapTypes, Quantifier.mapTypes, Path.mapTypes_of_isPlain f hb]
    · cases hb

theorem all_streamOf {test : PartTest} {leading : Bool} {front : List Segment} {ident name : Ident}
    {item : Ty} (hf : front.all Segment.isPlain = true)
    (hb : test.bound (.streamOf leading front ident name item) = true)
    (hi : item.all test = true) :
    (Bound.streamOf leading front ident name item).all test = true := by
  have hlast : Segment.all test (.mk ident (.angle false [.assocType name .none item] false)) =
      true := by
    simp [Segment.all, PathArgs.all, allGenericArgs, GenericArg.all, hi]
  have hfront := allSegments_of_isPlain test hf
  rw [allSegments_eq] at hfront
  rw [Bound.streamOf] at hb ⊢
  rw [Bound.all, hb, Quantifier.all, Path.all, allSegments_eq, List.all_append, hfront,
    List.all_cons, hlast]
  rfl

/-- A relocated bound of streams is that of streams of the relocated items. -/
theorem relocate_streamOf {r : Relocation} {leading : Bool} {front : List Segment}
    {ident name : Ident} {item : Ty} {others : List Bound}
    (hf : front.all Segment.isPlain = true) (ho : others.all Bound.isPlain = true) :
    (Ty.implTrait (.streamOf leading front ident name item :: others) false).relocate r =
      .implTrait (.streamOf leading front ident name (item.relocate r) :: others) false := by
  rw [Ty.relocate, Ty.mapTypes, mapBounds, mapBounds_of_isPlain _ ho, Bound.streamOf,
    Bound.mapTypes, Path.mapTypes_mk, List.map_append, ← mapSegments_eq,
    mapSegments_of_isPlain _ hf]
  rfl

/-- The argument of a global path is relocated, but not the path. -/
theorem relocate_applied {r : Relocation} {p : Path} (hp : p.isGlobal = true) (t : Ty) :
    (Ty.applied p [t]).relocate r = .applied p [t.relocate r] := by
  have hpath := Path.mapTypes_of_isPlain (Ty.relocateHead r) (Path.isPlain_of_isGlobal hp)
  have hhead := Path.relocateHead_of_leading (r := r) (Path.isGlobal_iff.mp hp).1
  rw [Ty.relocate, Ty.mapTypes, hpath, Ty.relocateHead, hhead]
  rfl

theorem Ty.IsSound.path {p : Path} (h : p.isPlain = true) : (Ty.path p).IsSound := by
  refine ⟨Bool.and_eq_true_iff.mpr ⟨rfl, Path.all_of_isPlain _ h⟩, fun r hr => ?_⟩
  rw [Ty.relocate_path, Path.mapTypes_of_isPlain _ h]
  exact Bool.and_eq_true_iff.mpr ⟨rfl, Path.all_of_isPlain _ (Path.isPlain_relocateHead hr h)⟩

/-- What a reference leads to is relocated with it. -/
theorem Ty.IsSound.reference {t : Ty} (lifetime : Option String) (isMut : Bool) (h : t.IsSound) :
    (Ty.reference lifetime isMut t).IsSound :=
  ⟨Bool.and_eq_true_iff.mpr ⟨rfl, h.wellFormed⟩,
    fun r hr => Bool.and_eq_true_iff.mpr ⟨rfl, h.known r hr⟩⟩

namespace Ty.Settled

variable {t : Ty} {r : Relocation}

theorem path {p : Path} (h : p.isPlain = true) : (Ty.path p).Settled :=
  .given (.path h)

theorem unit : (Ty.tuple [] false).Settled :=
  .given ⟨rfl, fun _ _ => rfl⟩

theorem named (name : Ident) : (Ty.named name).Settled :=
  .path rfl

theorem wellFormed (h : t.Settled) : t.all wellFormed = true := by
  induction h with
  | given h => exact h.wellFormed
  | @applied p t hp _ ih =>
    obtain ⟨hleading, htakes, -⟩ := Path.isGlobal_iff.mp hp
    have htype : Code.wellFormed.type (.applied p [t]) = true := by
      simp [Code.wellFormed, htakes, Path.beginsType, hleading]
    rw [Ty.all, htype, allTypes, ih, Path.all_of_isPlain _ (Path.isPlain_of_isGlobal hp)]
    rfl
  | stream hf ho _ ih =>
    rw [Ty.all, allBounds, all_streamOf hf rfl ih, allBounds_of_isPlain (fun _ _ => rfl) ho]
    rfl

/-- A settled type can be laid out after it is relocated. -/
theorem known (h : t.Settled) (hr : r.IsPlain) : (t.relocate r).all known = true := by
  have hbound (b : Bound) (hb : b.isPlain = true) : Code.known.bound b = true := by
    unfold Bound.isPlain at hb
    split at hb
    · rfl
    · rfl
    · cases hb
  induction h with
  | given h => exact h.known r hr
  | applied hp _ ih =>
    rw [relocate_applied hp, Ty.all, allTypes, ih,
      Path.all_of_isPlain _ (Path.isPlain_of_isGlobal hp)]
    rfl
  | stream hf ho _ ih =>
    rw [relocate_streamOf hf ho, Ty.all, allBounds, all_streamOf hf rfl ih,
      allBounds_of_isPlain hbound ho]
    rfl

end Ty.Settled

/-- Whether a type is a path of names, such a path as the argument of one from the root, or a tuple
of nothing. -/
def Ty.isSimple : Ty → Bool
  | .path p => p.isPlain
  | .applied p [.path q] => p.isGlobal && q.isPlain
  | .tuple [] false => true
  | _ => false

theorem Ty.settled_of_isSimple {t : Ty} (h : t.isSimple = true) : t.Settled := by
  unfold isSimple at h
  split at h
  · exact .path h
  · obtain ⟨hp, hq⟩ := Bool.and_eq_true_iff.mp h
    exact .applied hp (.path hq)
  · exact .unit
  · cases h

/-! ## Expressions and statements -/

inductive Expr.Settled : Expr → Prop
  | literal (text : String) : Settled (.literal text)
  | path {p : Path} (hp : p.isPlain = true) (hv : p.standsAsValue = true) : Settled (.path p)
  | applied {p : Path} {t : Ty} (hp : p.isGlobal = true) (h : t.Settled) : Settled (.applied p [t])
  | unary (form : UnaryForm) {e : Expr} (h : Settled e) : Settled (.unary form e)
  | call {function : Expr} {args : List Expr} (hf : Settled function)
      (h : ∀ a ∈ args, Settled a) : Settled (.call function args false)
  | methodCall {receiver : Expr} (name : Ident) {args : List Expr} (hr : Settled receiver)
      (h : ∀ a ∈ args, Settled a) : Settled (.methodCall receiver name .none args false)
  | macroCall (p : Path) (delimiter : Delimiter) (inner : List Token) :
    Settled (.macroCall p delimiter inner)
  | ofVariables {p : Path} (names : List String) (hp : p.isPlain = true)
      (hv : p.standsAsValue = true) : Settled (.ofVariables p names)
  | lambda (parameter : Ident) {body : Expr} (h : Settled body) : Settled (.lambda parameter body)
  /-- A body that is a value alone. -/
  | block {e : Expr} (h : Settled e) (hb : Reader.beginsItem e.tokens = false) :
    Settled (.block none [] [.result e])

inductive Statement.Settled : Statement → Prop
  | bind {p : Pattern} {e : Expr} (hw : p.all wellFormed = true)
      (hk : ∀ r, (p.mapTypes (Ty.relocateHead r)).all known = true) (h : e.Settled) :
    Settled (.bind p e)
  | effect {e : Expr} (h : e.Settled) (hb : Reader.beginsItem e.tokens = false) :
    Settled (.effect e)
  | result {e : Expr} (h : e.Settled) (hb : Reader.beginsItem e.tokens = false) :
    Settled (.result e)

/-- The words that the tokens of an item can begin with. -/
def itemStarts : List String :=
  ["pub", "extern", "use", "fn", "mod", "type", "struct", "enum", "trait", "impl", "macro", "crate",
   "static", "const", "unsafe", "async", "union", "auto", "default"]

theorem beginsItem_of_word {w : String} (h : w ∉ itemStarts) (ts : List Token) :
    Reader.beginsItem (.word w :: ts) = false := by
  have hw {v : String} (hv : v ∈ itemStarts) : Reader.beginsWord v (.word w :: ts) = false := by
    refine beq_false_of_ne ?_
    rintro rfl
    exact h hv
  have hany : Reader.itemWords.any (Reader.beginsWord · (.word w :: ts)) = false := by
    refine List.any_eq_false.mpr fun v hv => ?_
    have hstart : ∀ v ∈ Reader.itemWords, v ∈ itemStarts := by decide
    simp [hw (hstart v hv)]
  simp only [Reader.beginsItem, Reader.beginsStaticItem, Reader.beginsConstItem,
    Reader.beginsPairedItem, hany, hw (v := "crate") (by decide), hw (v := "static") (by decide),
    hw (v := "const") (by decide), hw (v := "unsafe") (by decide), hw (v := "async") (by decide),
    hw (v := "union") (by decide), hw (v := "auto") (by decide), hw (v := "default") (by decide),
    Bool.false_and, Bool.or_false]

/-- What begins with a path from the root is no item. -/
theorem beginsItem_of_leading {p : Path} (h : p.leading = true) (ts : List Token) :
    Reader.beginsItem (p.tokens ++ ts) = false := by
  obtain ⟨leading, segments⟩ := p
  obtain rfl : leading = true := h
  rfl

namespace Expr.Settled

variable {e : Expr} {r : Relocation}

theorem allExprs_eq (test : PartTest) (es : List Expr) :
    allExprs test es = es.all (·.all test) := by
  induction es with
  | nil => rfl
  | cons e rest ih => rw [allExprs, ih, List.all_cons]

theorem mapExprs_eq (f : Ty → Ty) (es : List Expr) : mapExprs f es = es.map (·.mapTypes f) := by
  induction es with
  | nil => rfl
  | cons e rest ih => rw [mapExprs, ih, List.map_cons]

theorem allExprs_of_forall {test : PartTest} {es : List Expr} (h : ∀ e ∈ es, e.all test = true) :
    allExprs test es = true :=
  (allExprs_eq test es).trans (List.all_eq_true.mpr h)

/-- Entries without values have nothing in them. -/
theorem allExprs_entries {test : PartTest} (htest : ∀ name, test.expr (.entry [] name none) = true)
    (names : List String) :
    allExprs test (names.map fun name => .entry [] name none) = true := by
  refine allExprs_of_forall fun e he => ?_
  obtain ⟨name, -, rfl⟩ := List.mem_map.mp he
  exact Bool.and_eq_true_iff.mpr ⟨Bool.and_eq_true_iff.mpr ⟨htest name, rfl⟩, rfl⟩

theorem mapExprs_entries (f : Ty → Ty) (names : List String) :
    mapExprs f (names.map fun name => .entry [] name none) =
      names.map fun name => .entry [] name none := by
  rw [mapExprs_eq, List.map_map]
  rfl

theorem wellFormed (h : e.Settled) : e.all wellFormed = true := by
  induction h with
  | literal | macroCall => rfl
  | path hp hv => exact Bool.and_eq_true_iff.mpr ⟨hv, Path.all_of_isPlain _ hp⟩
  | @applied p t hp h =>
    have htest : Code.wellFormed.expr (.applied p [t]) = true :=
      Bool.and_eq_true_iff.mpr ⟨(Path.isGlobal_iff.mp hp).2.1, Path.standsAsValue_of_isGlobal hp⟩
    have hpath := Path.all_of_isPlain Code.wellFormed (Path.isPlain_of_isGlobal hp)
    have hargs : allTypes Code.wellFormed [t] = true :=
      Bool.and_eq_true_iff.mpr ⟨h.wellFormed, rfl⟩
    exact Bool.and_eq_true_iff.mpr ⟨Bool.and_eq_true_iff.mpr ⟨htest, hpath⟩, hargs⟩
  | unary _ _ ih | lambda _ _ ih => exact ih
  | call _ _ ihf ih => exact Bool.and_eq_true_iff.mpr ⟨ihf, allExprs_of_forall ih⟩
  | methodCall _ _ _ ihr ih =>
    have hreceiver := Bool.and_eq_true_iff.mpr ⟨ihr, rfl⟩
    exact Bool.and_eq_true_iff.mpr ⟨hreceiver, allExprs_of_forall ih⟩
  | @ofVariables p names hp hv =>
    have hhead : (Expr.path p).all Code.wellFormed = true :=
      Bool.and_eq_true_iff.mpr ⟨hv, Path.all_of_isPlain _ hp⟩
    have hentries : allExprs Code.wellFormed (names.map fun name => .entry [] name none) = true :=
      allExprs_entries (fun _ => rfl) names
    exact Bool.and_eq_true_iff.mpr ⟨Bool.and_eq_true_iff.mpr ⟨hhead, hentries⟩, rfl⟩
  | @block e _ hb ih =>
    have hstatement : (Statement.result e).all Code.wellFormed = true :=
      Bool.and_eq_true_iff.mpr ⟨by simp [Code.wellFormed, hb], ih⟩
    have hbody : allStatements Code.wellFormed [.result e] = true :=
      Bool.and_eq_true_iff.mpr ⟨hstatement, rfl⟩
    exact hbody

theorem known (h : e.Settled) (hr : r.IsPlain) : (e.relocate r).all known = true := by
  have hpath {p : Path} (hp : p.isPlain = true) :
      (p.mapTypes (Ty.relocateHead r)).all Code.known = true := by
    rw [Path.mapTypes_of_isPlain _ hp, Path.all_of_isPlain _ hp]
  have hargs {es : List Expr} (ih : ∀ e ∈ es, (e.relocate r).all Code.known = true) :
      allExprs Code.known (mapExprs (Ty.relocateHead r) es) = true := by
    rw [mapExprs_eq, allExprs_eq, List.all_map]
    exact List.all_eq_true.mpr ih
  induction h with
  | literal | macroCall => rfl
  | path hp _ => exact hpath hp
  | @applied p t hp h =>
    have htypes : allTypes Code.known [t.relocate r] = true :=
      Bool.and_eq_true_iff.mpr ⟨h.known hr, rfl⟩
    exact Bool.and_eq_true_iff.mpr ⟨hpath (Path.isPlain_of_isGlobal hp), htypes⟩
  | unary _ _ ih | lambda _ _ ih => exact ih
  | call _ _ ihf ih => exact Bool.and_eq_true_iff.mpr ⟨ihf, hargs ih⟩
  | methodCall _ _ _ ihr ih =>
    have hreceiver := Bool.and_eq_true_iff.mpr ⟨ihr, rfl⟩
    exact Bool.and_eq_true_iff.mpr ⟨hreceiver, hargs ih⟩
  | @ofVariables p names hp _ =>
    have hentries : allExprs Code.known (names.map fun name => .entry [] name none) = true :=
      allExprs_entries (fun _ => rfl) names
    rw [← mapExprs_entries (Ty.relocateHead r)] at hentries
    exact Bool.and_eq_true_iff.mpr ⟨Bool.and_eq_true_iff.mpr ⟨hpath hp, hentries⟩, rfl⟩
  | @block e _ _ ih =>
    have hbody : allStatements Code.known [.result (e.relocate r)] = true :=
      Bool.and_eq_true_iff.mpr ⟨ih, rfl⟩
    exact hbody

end Expr.Settled

namespace Statement.Settled

variable {s : Statement} {body : List Statement} {r : Relocation}

theorem wellFormed (h : s.Settled) : s.all wellFormed = true := by
  cases h with
  | bind hw _ h =>
    have hvalue : allOptionalExpr Code.wellFormed (some _) = true := h.wellFormed
    rw [Statement.bind, Statement.all, hw, hvalue]
    rfl
  | effect h hb | result h hb =>
    rw [Statement.all, h.wellFormed, Bool.and_true]
    simp [Code.wellFormed, hb]

theorem known (h : s.Settled) (hr : r.IsPlain) : (s.relocate r).all known = true := by
  unfold relocate
  cases h with
  | bind _ hk h =>
    have hvalue :
        allOptionalExpr Code.known (mapOptionalExpr (Ty.relocateHead r) (some _)) = true :=
      h.known hr
    rw [Statement.bind, Statement.mapTypes, Statement.all, hk r, hvalue]
    rfl
  | effect h _ | result h _ => exact Bool.and_eq_true_iff.mpr ⟨rfl, h.known hr⟩

theorem allStatements_eq (test : PartTest) (body : List Statement) :
    allStatements test body = body.all (·.all test) := by
  induction body with
  | nil => rfl
  | cons s rest ih => rw [allStatements, ih, List.all_cons]

end Statement.Settled

/-! ## Items -/

structure StructField.Settled (f : StructField) : Prop where
  attributes : f.attributes.all Attribute.isWellFormed = true
  name : f.name.isName = true
  type : f.type.Settled

structure Variant.Settled (v : Variant) : Prop where
  attributes : v.attributes.all Attribute.isWellFormed = true
  name : v.name.isName = true
  wellFormed : v.discriminant.all wellFormed = true
  known : ∀ r, (v.discriminant.relocate r).all known = true

structure Constant.Settled (c : Constant) : Prop where
  name : c.name.isName = true
  type : c.type.Settled
  value : c.value.Settled

structure Function.Settled (f : Function) : Prop where
  attributes : f.attributes.all Attribute.isWellFormed = true
  name : f.name.isName = true
  parameters : ∀ p ∈ f.parameters, p.type.Settled
  output : f.output.Settled
  body : ∀ s ∈ f.body, s.Settled

inductive Item.Settled : Item → Prop
  | module {attributes : List Attribute} {name : Ident} {items : List Item}
      (ha : attributes.all Attribute.isWellFormed = true) (hn : name.isName = true)
      (h : ∀ i ∈ items, Settled i) : Settled (.module attributes name items)
  | struct {attributes : List Attribute} {name : Ident} {fields : List StructField}
      (ha : attributes.all Attribute.isWellFormed = true) (hn : name.isName = true)
      (h : ∀ f ∈ fields, f.Settled) : Settled (.struct attributes name fields)
  | enum {attributes : List Attribute} {name : Ident} {variants : List Variant}
      (ha : attributes.all Attribute.isWellFormed = true) (hn : name.isName = true)
      (h : ∀ v ∈ variants, v.Settled) : Settled (.enum attributes name variants)
  | implementation {self : Ty} {constant : Option Constant} {functions : List Function}
      (hs : self.Settled) (hc : ∀ c ∈ constant, c.Settled) (h : ∀ f ∈ functions, f.Settled) :
    Settled (.implementation self constant functions)

variable {r : Relocation}

theorem Function.Settled.readBack? {f : Function} (h : f.Settled) : f.readBack? = some f := by
  have hparameters : (f.parameters.all (·.type.all Code.wellFormed)) = true :=
    List.all_eq_true.mpr fun p hp => (h.parameters p hp).wellFormed
  have hhead : f.hasWellFormedHead = true := by
    rw [hasWellFormedHead, h.attributes, h.name, hparameters, h.output.wellFormed]
    rfl
  have hbody : allStatements Code.wellFormed f.body = true := by
    rw [Statement.Settled.allStatements_eq]
    exact List.all_eq_true.mpr fun s hs => (h.body s hs).wellFormed
  simp [Function.readBack?, hhead, hbody]

theorem Function.Settled.isKnown {f : Function} (h : f.Settled) (hr : r.IsPlain) :
    (f.relocate r).isKnown = true := by
  have hparameters : ((f.relocate r).parameters.all (·.type.all Code.known)) = true := by
    refine List.all_eq_true.mpr fun p hp => ?_
    obtain ⟨q, hq, rfl⟩ := List.mem_map.mp hp
    exact (h.parameters q hq).known hr
  have hbody : allStatements Code.known (f.body.map (·.relocate r)) = true := by
    rw [Statement.Settled.allStatements_eq, List.all_map]
    exact List.all_eq_true.mpr fun s hs => (h.body s hs).known hr
  rw [Function.isKnown, hparameters, Function.relocate, h.output.known hr, hbody]
  rfl

theorem StructField.Settled.isWellFormed {f : StructField} (h : f.Settled) :
    f.isWellFormed = true := by
  rw [StructField.isWellFormed, h.attributes, h.name, h.type.wellFormed]
  rfl

theorem Variant.Settled.isWellFormed {v : Variant} (h : v.Settled) : v.isWellFormed = true := by
  rw [Variant.isWellFormed, h.attributes, h.name, h.wellFormed]
  rfl

theorem Constant.settled_wireName (serviceName : String) : (wireName serviceName).Settled where
  name := (by decide : (Ident.mk "SERVICE_NAME").isName = true)
  type := .given (.reference none false (.path rfl))
  value := .literal (quoted serviceName)

theorem Constant.Settled.isWellFormed {c : Constant} (h : c.Settled) : c.isWellFormed = true := by
  rw [Constant.isWellFormed, h.name, h.type.wellFormed, h.value.wellFormed]
  rfl

theorem Constant.Settled.isKnown {c : Constant} (h : c.Settled) (hr : r.IsPlain) :
    (c.relocate r).isKnown = true :=
  Bool.and_eq_true_iff.mpr ⟨h.type.known hr, h.value.known hr⟩

theorem itemsAreKnown_eq (items : List Item) : itemsAreKnown items = items.all Item.isKnown := by
  induction items with
  | nil => rfl
  | cons i rest ih => rw [itemsAreKnown, ih, List.all_cons]

namespace Item.Settled

/-- A settled item is read back as it is. -/
theorem readBack? {i : Item} (h : i.Settled) : i.readBack? = some i := by
  induction h with
  | @module attributes name items ha hn _ ih =>
    have hitems : itemsReadBack? items = some items :=
      itemsReadBack?_eq_some.mpr (List.forall₂_same.mpr ih)
    rw [Item.readBack?, ha, hn, hitems]
    rfl
  | struct ha hn h =>
    have hfields := List.all_eq_true.mpr fun f hf => (h f hf).isWellFormed
    rw [Item.readBack?, ha, hn, hfields]
    rfl
  | enum ha hn h =>
    have hvariants := List.all_eq_true.mpr fun v hv => (h v hv).isWellFormed
    rw [Item.readBack?, ha, hn, hvariants]
    rfl
  | @implementation self constant functions hs hc h =>
    have hconstant : constant.all Constant.isWellFormed = true :=
      (Option.all_eq_true _ _).mpr fun c hc' => (hc c hc').isWellFormed
    have hfunctions : functions.mapM Function.readBack? = some functions :=
      mapM_some.mpr (List.forall₂_same.mpr fun f hf => (h f hf).readBack?)
    rw [Item.readBack?, hs.wellFormed, hconstant, hfunctions]
    rfl

/-- A settled item can be laid out after its types are relocated. -/
theorem isKnown {i : Item} (h : i.Settled) (hr : r.IsPlain) : (i.relocate r).isKnown = true := by
  induction h with
  | module _ _ _ ih =>
    rw [Item.relocate, Item.isKnown, itemsAreKnown_eq, relocateItems_eq]
    exact List.all_map.trans (List.all_eq_true.mpr ih)
  | struct _ _ h =>
    rw [Item.relocate, Item.isKnown, List.all_map]
    exact List.all_eq_true.mpr fun f hf => (h f hf).type.known hr
  | enum _ _ h =>
    rw [Item.relocate, Item.isKnown, List.all_map]
    exact List.all_eq_true.mpr fun v hv => (h v hv).known r
  | @implementation self constant functions hs hc h =>
    have hconstant : (constant.map (·.relocate r)).all Constant.isKnown = true := by
      rw [Option.all_map]
      exact (Option.all_eq_true _ _).mpr fun c hc' => (hc c hc').isKnown hr
    have hfunctions : (functions.map (·.relocate r)).all Function.isKnown = true := by
      rw [List.all_map]
      exact List.all_eq_true.mpr fun f hf => (h f hf).isKnown hr
    rw [Item.relocate, Item.isKnown, hs.known hr, hconstant, hfunctions]
    rfl

end Item.Settled

/-- A file of settled items is well-formed. -/
theorem File.checked_of_settled {f : File} (h : ∀ i ∈ f.items, i.Settled) : f.checked = .ok f := by
  have hitems : itemsReadBack? f.items = some f.items :=
    itemsReadBack?_eq_some.mpr (List.forall₂_same.mpr fun i hi => (h i hi).readBack?)
  rw [File.checked, hitems]

end SchemaBindings.Code
