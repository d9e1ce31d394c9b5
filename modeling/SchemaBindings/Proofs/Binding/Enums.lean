import SchemaBindings.Binding.Message
import SchemaBindings.Proofs.Naming.Spelling
import SchemaBindings.Proofs.Naming.Underscores
import SchemaBindings.Proofs.Package.Generate
import SchemaBindings.Proofs.Schema.Json

/-!
The enumerations of enums variant by variant: which values have a variant, what it is called, what
number it stands for, and which one is the default.
-/

namespace SchemaBindings

open Code Naming

/-! ## Values without aliases -/

/-- The values in order, each number only where it occurs first. -/
def firstValues : List EnumValue → List EnumValue
  | [] => []
  | v :: rest => v :: (firstValues rest).filter (·.number != v.number)

/-- The first values whose numbers were not seen before. -/
def unseenValues (seen : List Int) (values : List EnumValue) : List EnumValue :=
  (firstValues values).filter (!seen.contains ·.number)

section FirstValues

variable {seen : List Int} {v : EnumValue} {rest values : List EnumValue}

theorem unseenValues_nil (values : List EnumValue) : unseenValues [] values = firstValues values :=
  List.filter_eq_self.mpr fun _ _ => rfl

theorem unseenValues_of_mem (h : v.number ∈ seen) :
    unseenValues seen (v :: rest) = unseenValues seen rest := by
  rw [unseenValues, firstValues, List.filter_cons_of_neg (by simpa using h), List.filter_filter]
  refine List.filter_congr fun w _ => ?_
  by_cases hw : w.number = v.number <;> simp [hw, h]

theorem unseenValues_of_notMem (h : v.number ∉ seen) :
    unseenValues seen (v :: rest) = v :: unseenValues (v.number :: seen) rest := by
  rw [unseenValues, firstValues, List.filter_cons_of_pos (by simpa using h), List.filter_filter]
  refine congrArg (v :: ·) (List.filter_congr fun w _ => ?_)
  by_cases hw : w.number = v.number <;> simp [hw]

theorem firstValues_sublist (values : List EnumValue) : (firstValues values).Sublist values := by
  induction values with
  | nil => exact .slnil
  | cons v rest ih => exact (List.filter_sublist.trans ih).cons_cons v

/-- No number is lost with the aliases. -/
theorem mem_numbers_firstValues {n : Int} :
    n ∈ (firstValues values).map (·.number) ↔ n ∈ values.map (·.number) := by
  induction values with
  | nil => rfl
  | cons v rest ih =>
    simp only [firstValues, List.map_cons, List.mem_cons, List.mem_map, List.mem_filter,
      bne_iff_ne] at ih ⊢
    grind

theorem nodup_numbers_firstValues (values : List EnumValue) :
    ((firstValues values).map (·.number)).Nodup := by
  induction values with
  | nil => exact List.nodup_nil
  | cons v rest ih =>
    rw [firstValues, List.map_cons, List.nodup_cons]
    refine ⟨fun h => ?_, ih.sublist (List.filter_sublist.map _)⟩
    obtain ⟨w, hw, he⟩ := List.mem_map.mp h
    exact absurd he (by simpa using (List.mem_filter.mp hw).2)

end FirstValues

/-! ## Numbers as values of variants -/

/-- The number that a text of decimal digits writes. -/
def Code.decimal? (text : String) : Option Nat :=
  if text.toList ≠ [] ∧ text.toList.all Char.isDigit then some (Nat.ofDigitChars 10 text.toList 0)
  else none

/-- The value of an expression of 32 bits with a sign: a literal below 2 ^ 31, or a literal behind a
minus sign, which may be 2 ^ 31 as well. -/
def Code.Expr.int32? : Expr → Option Int
  | .literal text => (decimal? text).bind fun n => if n < 2147483648 then some (n : Int) else none
  | .unary (.operator '-') (.literal text) =>
    (decimal? text).bind fun n => if n ≤ 2147483648 then some (-(n : Int)) else none
  | _ => none

theorem decimal?_toString (n : Nat) : decimal? (toString n) = some n := by
  have hlist : (toString n).toList = Nat.toDigits 10 n := Nat.toList_repr
  have hdigits : (Nat.toDigits 10 n).all Char.isDigit = true :=
    List.all_eq_true.mpr fun _ hc => Nat.isDigit_of_mem_toDigits (by decide) (by decide) hc
  rw [decimal?, hlist, if_pos ⟨Nat.toDigits_ne_nil, hdigits⟩,
    Nat.ofDigitChars_toDigits (by decide) (by decide)]

theorem int32?_discriminant {n : Int} (h : IsInt32 n) :
    (Binding.discriminant n).int32? = some n := by
  obtain ⟨hlow, hhigh⟩ := h
  unfold Binding.discriminant
  dsimp only
  split
  · have hbound : n.natAbs ≤ 2147483648 := by omega
    have habs : -(n.natAbs : Int) = n := by omega
    rw [Expr.negated, Expr.int32?, decimal?_toString, Option.bind_some, if_pos hbound, habs]
  · have hbound : n.natAbs < 2147483648 := by omega
    have habs : (n.natAbs : Int) = n := by omega
    rw [Expr.int32?, decimal?_toString, Option.bind_some, if_pos hbound, habs]

/-! ## Names of variants -/

namespace Naming

/-- Underscores behind the name of a variant do not change whether it is an identifier. -/
theorem isSome_ofText?_withUnderscores (label : String) (count : Nat) :
    (Ident.ofText? (withUnderscores (variantName label) count)).isSome =
      (Ident.ofText? (variantName label)).isSome := by
  have hhash : '#' ∉ (variantName label).toList := notMem_variantName Text.isMark_hash label
  have hmore : '#' ∉ (withUnderscores (variantName label) count).toList := by
    rw [withUnderscores, String.toList_ofList, List.mem_append, not_or]
    exact ⟨hhash, fun hm => absurd (List.eq_of_mem_replicate hm) (by decide)⟩
  rw [Bool.eq_iff_iff, Ident.isSome_ofText?_iff hmore, Ident.isSome_ofText?_iff hhash,
    withUnderscores, String.toList_ofList, hasIdentifierShape_append _ (variantName_ne_nil label)]

end Naming

/-! ## Variants -/

/-- The mark of the variant that stands for an enum without a value. -/
def Code.defaultMark : Attribute :=
  .plain (.ofNames false ["default"])

def Code.Variant.IsDefault (v : Variant) : Prop :=
  defaultMark ∈ v.attributes

namespace Binding

/-- The variant that is made for a value where other variants have the names in `taken`: its name is
the one made of the label, with no more underscores behind it than it takes to be new. -/
structure VariantMade (default : Int) (taken : List String) (v : EnumValue) (made : Variant) :
    Prop where
  name : ∃ count, made.name.text = withUnderscores (variantName v.label) count ∧
    ∀ fewer < count, withUnderscores (variantName v.label) fewer ∈ taken
  new : made.name.text ∉ taken
  value : made.discriminant.int32? = some v.number
  attributes : made.attributes =
    docAttributes v.docs ++ if v.number = default then [defaultMark] else []

/-- One variant for each value in order, where those in front take their names first. -/
inductive VariantsMade (default : Int) : List String → List EnumValue → List Variant → Prop
  | nil {taken : List String} : VariantsMade default taken [] []
  | cons {taken : List String} {v : EnumValue} {made : Variant} {rest : List EnumValue}
      {others : List Variant} (first : VariantMade default taken v made)
      (behind : VariantsMade default (made.name.text :: taken) rest others) :
    VariantsMade default taken (v :: rest) (made :: others)

section Variants

variable {default : Int} {taken : List String} {v : EnumValue} {made : Variant}
  {seen : List Int} {values : List EnumValue} {variants : List Variant} {names : Naming.Table}

theorem VariantMade.isDefault_iff (h : VariantMade default taken v made) :
    made.IsDefault ↔ v.number = default := by
  have hdocs : defaultMark ∉ docAttributes v.docs := by
    simp [docAttributes, defaultMark]
  rw [Variant.IsDefault, h.attributes, List.mem_append, or_iff_right hdocs]
  split <;> simp [*]

namespace VariantsMade

theorem numbers (h : VariantsMade default taken values variants) :
    variants.map (·.discriminant.int32?) = values.map (some ·.number) := by
  induction h with
  | nil => rfl
  | cons first _ ih => rw [List.map_cons, List.map_cons, first.value, ih]

theorem distinct (h : VariantsMade default taken values variants) :
    (variants.map (·.name.text)).Nodup ∧ ∀ made ∈ variants, made.name.text ∉ taken := by
  induction h with
  | nil => exact ⟨List.nodup_nil, nofun⟩
  | cons first _ ih =>
    obtain ⟨hnodup, hnew⟩ := ih
    refine ⟨List.nodup_cons.mpr ⟨fun hm => ?_, hnodup⟩, List.forall_mem_cons.mpr ⟨first.new, ?_⟩⟩
    · obtain ⟨other, ho, he⟩ := List.mem_map.mp hm
      exact hnew other ho (he ▸ List.mem_cons_self)
    · exact fun other ho hm => hnew other ho (List.mem_cons_of_mem _ hm)

/-- The variants of values in front and behind. -/
theorem of_append {front back : List EnumValue}
    (h : VariantsMade default taken (front ++ back) variants) :
    ∃ taken' before behind, variants = before ++ behind ∧
      VariantsMade default taken front before ∧ VariantsMade default taken' back behind := by
  induction front generalizing taken variants with
  | nil => exact ⟨taken, [], variants, rfl, .nil, h⟩
  | cons v rest ih =>
    cases h with
    | cons first hrest =>
      obtain ⟨taken', before, behind, rfl, hbefore, hbehind⟩ := ih hrest
      exact ⟨taken', _ :: before, behind, rfl, .cons first hbefore, hbehind⟩

theorem not_isDefault (h : VariantsMade default taken values variants)
    (hd : default ∉ values.map (·.number)) : ∀ made ∈ variants, ¬ made.IsDefault := by
  induction h with
  | nil => exact nofun
  | cons first _ ih =>
    rw [List.map_cons, List.mem_cons, not_or] at hd
    refine List.forall_mem_cons.mpr ⟨fun hm => ?_, ih hd.2⟩
    exact hd.1 (first.isDefault_iff.mp hm).symm

/-- Among values with different numbers only the variant of one is the default one. -/
theorem default_of_append {front back : List EnumValue}
    (h : VariantsMade v.number taken (front ++ v :: back) variants)
    (hnumbers : ((front ++ v :: back).map (·.number)).Nodup) :
    ∃ before d behind, variants = before ++ d :: behind ∧ (front = [] → before = []) ∧
      d.IsDefault ∧ d.discriminant.int32? = some v.number ∧
      ∀ other ∈ before ++ behind, ¬ other.IsDefault := by
  obtain ⟨taken', before, behind, rfl, hbefore, hbehind⟩ := h.of_append
  cases hbehind with | cons hd hbehind =>
  rw [List.map_append, List.map_cons, List.nodup_middle, List.nodup_cons, List.mem_append,
    not_or] at hnumbers
  obtain ⟨⟨hfront, hback⟩, -⟩ := hnumbers
  refine ⟨before, _, _, rfl, ?_, hd.isDefault_iff.mpr rfl, hd.value, ?_⟩
  · rintro rfl
    cases hbefore
    rfl
  · exact List.forall_mem_append.mpr
      ⟨hbefore.not_isDefault hfront, hbehind.not_isDefault hback⟩

end VariantsMade

/-! ## Runs of values -/

/-- What is made of the labels are identifiers. -/
def VariantsNameable (values : List EnumValue) : Prop :=
  ∀ v ∈ values, (Ident.ofText? (variantName v.label)).isSome = true

/-- The name that a table gives to a variant. -/
theorem ofName_assignUnique (names : Naming.Table) (label : String) :
    Ident.ofName (names.assignUnique (variantName label)).1 =
      if (Ident.ofText? (variantName label)).isSome then
        .ok ⟨(names.assignUnique (variantName label)).1⟩
      else .error .unusableName := by
  obtain ⟨⟨count, hcount⟩, -⟩ := names.assignUnique_spec (variantName label)
  rw [hcount, ← isSome_ofText?_withUnderscores label count]
  split
  · next h => exact Ident.ofName_of_isSome h
  · next h => exact Ident.ofName_of_eq_none (by simpa using h)

/-- A table without reserved names gives the names that variants are made with. -/
theorem variantMade_assignUnique (hreserved : names.reserved = []) (hv : IsInt32 v.number) :
    VariantMade default names.assigned v
      ⟨docAttributes v.docs ++ if v.number = default then [defaultMark] else [],
        ⟨(names.assignUnique (variantName v.label)).1⟩, discriminant v.number⟩ where
  name := by
    have hleast := names.assignUnique_least (variantName v.label)
    rwa [hreserved, List.nil_append] at hleast
  new := fun hm => (names.assignUnique_spec (variantName v.label)).2 (List.mem_append_right _ hm)
  value := int32?_discriminant hv
  attributes := rfl

/-- The values are gone through one by one; those whose numbers were seen leave no trace. -/
theorem enumVariants_run (default : Int) (seen : List Int) (names : Naming.Table)
    (hreserved : names.reserved = []) (hvalues : ∀ v ∈ values, IsInt32 v.number) :
    (VariantsNameable (unseenValues seen values) →
      ∃ variants, enumVariants default values seen names = .ok variants ∧
        VariantsMade default names.assigned (unseenValues seen values) variants) ∧
    (¬ VariantsNameable (unseenValues seen values) →
      enumVariants default values seen names = .error .unusableName) := by
  induction values generalizing seen names with
  | nil => exact ⟨fun _ => ⟨[], rfl, .nil⟩, fun h => absurd nofun h⟩
  | cons v rest ih =>
    obtain ⟨hv, hrest⟩ := List.forall_mem_cons.mp hvalues
    by_cases hseen : v.number ∈ seen
    · rw [enumVariants, if_pos (List.contains_iff_mem.mpr hseen), unseenValues_of_mem hseen]
      exact ih seen names hreserved hrest
    · have ih := ih (v.number :: seen) (names.assignUnique (variantName v.label)).2 hreserved hrest
      rw [names.assigned_assignUnique] at ih
      rw [enumVariants, if_neg (by simpa using hseen), unseenValues_of_notMem hseen]
      dsimp only
      rw [ofName_assignUnique, VariantsNameable, List.forall_mem_cons]
      obtain ⟨hok, herror⟩ := ih
      by_cases hname : (Ident.ofText? (variantName v.label)).isSome = true
      · rw [if_pos hname]
        constructor
        · rintro ⟨-, hall⟩
          obtain ⟨variants, hrun, hmade⟩ := hok hall
          refine ⟨_ :: variants, ?_, .cons (variantMade_assignUnique hreserved hv) hmade⟩
          rw [hrun]
          rfl
        · intro h
          rw [herror fun hall => h ⟨hname, hall⟩]
          rfl
      · rw [if_neg hname]
        exact ⟨fun h => absurd h.1 hname, fun _ => rfl⟩

end Variants

/-! ## Enumerations -/

/-- The names made for an enum, whose registered name is given, are identifiers. -/
structure EnumNameable (registered : String) (e : SchemaBindings.Enum) : Prop where
  enum : (Ident.ofText? registered).isSome = true
  variants : VariantsNameable (firstValues e.values)

/-- The variants that are made for an enum: one for each number, called after the first label with
this number and standing for the number, and one of them the default one. -/
structure EnumMade (e : SchemaBindings.Enum) (variants : List Variant) : Prop where
  each : ∃ default, VariantsMade default [] (firstValues e.values) variants
  numbers : variants.map (·.discriminant.int32?) = (firstValues e.values).map (some ·.number)
  values : (variants.map (·.discriminant.int32?)).Nodup
  names : (variants.map (·.name.text)).Nodup
  default : ∃ before d behind, variants = before ++ d :: behind ∧ d.IsDefault ∧
    (∀ other ∈ before ++ behind, ¬ other.IsDefault) ∧
    (0 ∈ e.numbers → d.discriminant.int32? = some 0) ∧ (0 ∉ e.numbers → before = [])

variable {c : Context} {scope : String} {e : SchemaBindings.Enum}

/-- The value whose variant is the default one. -/
theorem exists_default (first : EnumValue) (rest : List EnumValue) :
    ∃ front v back, firstValues (first :: rest) = front ++ v :: back ∧
      v.number = defaultNumber first (first :: rest) ∧
      (0 ∈ (first :: rest).map (·.number) → v.number = 0) ∧
      (0 ∉ (first :: rest).map (·.number) → front = []) := by
  have hany : (first :: rest).any (·.number == 0) = true ↔
      0 ∈ (first :: rest).map (·.number) := by
    simp only [List.any_eq_true, beq_iff_eq, List.mem_map]
  by_cases hzero : 0 ∈ (first :: rest).map (·.number)
  · have hdefault : defaultNumber first (first :: rest) = 0 := if_pos (hany.mpr hzero)
    obtain ⟨v, hv, hnumber⟩ := List.mem_map.mp (mem_numbers_firstValues.mpr hzero)
    obtain ⟨front, back, hsplit⟩ := List.append_of_mem hv
    exact ⟨front, v, back, hsplit, hnumber.trans hdefault.symm, fun _ => hnumber,
      fun h => absurd hzero h⟩
  · have hdefault : defaultNumber first (first :: rest) = first.number :=
      if_neg fun h => hzero (hany.mp h)
    exact ⟨[], first, _, rfl, hdefault.symm, fun h => absurd h hzero, fun _ => rfl⟩

theorem enumMade {first : EnumValue} {rest : List EnumValue} {variants : List Variant}
    (he : e.values = first :: rest)
    (h : VariantsMade (defaultNumber first e.values) [] (firstValues e.values) variants) :
    EnumMade e variants where
  each := ⟨_, h⟩
  numbers := h.numbers
  values := by
    have hnodup := (nodup_numbers_firstValues e.values).map (Option.some_injective Int)
    rw [List.map_map] at hnodup
    exact h.numbers ▸ hnodup
  names := h.distinct.1
  default := by
    obtain ⟨front, v, back, hsplit, hv, hzero, hfirst⟩ := exists_default first rest
    have hnumbers := nodup_numbers_firstValues e.values
    rw [he, hsplit] at h hnumbers
    rw [← hv] at h
    obtain ⟨before, d, behind, hvariants, hfront, hd, hvalue, hothers⟩ :=
      h.default_of_append hnumbers
    rw [Enum.numbers, he]
    exact ⟨before, d, behind, hvariants, hd, hothers, fun h => hzero h ▸ hvalue,
      fun h => hfront (hfirst h)⟩

/-- The attributes of an enumeration, whose values take 32 bits. -/
def enumAttributes (c : Context) (e : SchemaBindings.Enum) : List Attribute :=
  docAttributes e.docs ++
    [deriveAttribute ["Debug", "Clone", "Copy", "PartialEq", "Eq", "Hash", "PartialOrd", "Ord",
      "Default"] c.library.enumDerive,
    .call (.ofNames false ["repr"]) [.path (.ofNames false ["i32"])]]

theorem enumItem_eq {first : EnumValue} {rest : List EnumValue} (he : e.values = first :: rest) :
    enumItem c scope e = (do
      let name ← definedName c (qualify scope e.name)
      let variants ← enumVariants (defaultNumber first e.values) e.values []
        { scope := qualify scope e.name }
      return .enum (enumAttributes c e) name variants) := by
  rw [enumItem, he]
  rfl

/-- An enum with a value is made into an enumeration with one variant for each of its numbers if
what is made of its names are identifiers, and into nothing if one of them is not. For ASCII labels
they always are. -/
theorem enumItem_variants {s : Symbol} (hs : c.symbols.get? (qualify scope e.name) = some s)
    (hvalues : e.values ≠ []) (hnumbers : ∀ n ∈ e.numbers, IsInt32 n) :
    (EnumNameable s.name e → ∃ variants,
      enumItem c scope e = .ok (.enum (enumAttributes c e) ⟨s.name⟩ variants) ∧
      EnumMade e variants) ∧
    (¬ EnumNameable s.name e → enumItem c scope e = .error .unusableName) ∧
    (isIdentifier s.name = true → (∀ v ∈ e.values, ∀ ch ∈ v.label.toList, ch.toNat < 128) →
      EnumNameable s.name e) := by
  obtain ⟨first, rest, he⟩ := List.exists_cons_of_ne_nil hvalues
  have hrun := enumVariants_run (defaultNumber first e.values) [] { scope := qualify scope e.name }
    rfl fun v hv => hnumbers v.number (List.mem_map_of_mem hv)
  rw [unseenValues_nil] at hrun
  obtain ⟨hok, herror⟩ := hrun
  have hname : definedName c (qualify scope e.name) = Ident.ofName s.name := by
    rw [definedName, hs]
  rw [enumItem_eq he, hname]
  refine ⟨fun h => ?_, fun h => ?_, fun hidentifier hlabels => ⟨?_, fun v hv => ?_⟩⟩
  · obtain ⟨variants, hvariants, hmade⟩ := hok h.variants
    refine ⟨variants, ?_, enumMade he hmade⟩
    rw [bind_of_ok (Ident.ofName_of_isSome h.enum), bind_of_ok hvariants]
    rfl
  · by_cases henum : (Ident.ofText? s.name).isSome = true
    · rw [bind_of_ok (Ident.ofName_of_isSome henum),
        bind_of_error (herror fun hall => h ⟨henum, hall⟩)]
    · rw [bind_of_error (Ident.ofName_of_eq_none (by simpa using henum))]
  · exact isSome_ofText?_of_isIdentifier hidentifier
  · exact (isUsable_variantName (hlabels v ((firstValues_sublist _).subset hv))).isSome_ofText?

/-- A file with one enum. -/
def holding (e : SchemaBindings.Enum) : SchemaFile :=
  { path := "a.proto", package := "p", enums := [e] }

/-- What such a file is generated against. -/
def enumContext (e : SchemaBindings.Enum) : Context :=
  Package.plain.context ((SymbolTable.build [holding e] "Async").toOption.getD {}) (holding e)

/-- An enum with labels that become the same, one of them of an alias, with the least number and
with a zero that does not come first. -/
def levels : SchemaBindings.Enum where
  name := "Level"
  values := [⟨"DEEP_SEA", -2147483648, none⟩, ⟨"deepest", -2147483648, none⟩,
    ⟨"deep_sea", -1, none⟩, ⟨"self", 0, none⟩, ⟨"SELF", 2147483647, none⟩, ⟨"DeepSea", 0, none⟩]

/-- What each variant is called, which number it stands for and whether it has attributes. -/
def overview (e : SchemaBindings.Enum) : List (String × Option Int × Bool) :=
  match enumItem (enumContext e) "p" e with
  | .ok (.enum _ _ variants) =>
    variants.map fun v => (v.name.text, v.discriminant.int32?, !v.attributes.isEmpty)
  | _ => []

theorem enumItem_variants_levels :
    (enumContext levels).symbols.get? (qualify "p" levels.name) =
      some ⟨⟨["a"]⟩, ["Level"], .enum⟩ ∧
    overview levels = [("DeepSea", some (-2147483648), false), ("DeepSea_", some (-1), false),
      ("Self_", some 0, true), ("Self__", some 2147483647, false)] ∧
    ∃ variants, enumItem (enumContext levels) "p" levels =
        .ok (.enum (enumAttributes (enumContext levels) levels) ⟨"Level"⟩ variants) ∧
      EnumMade levels variants := by
  have hs : (enumContext levels).symbols.get? (qualify "p" levels.name) =
      some ⟨⟨["a"]⟩, ["Level"], .enum⟩ := by
    decide +kernel
  have hall : levels.values.all (·.label.toList.all (·.toNat < 128)) = true := by decide +kernel
  have hascii : ∀ v ∈ levels.values, ∀ ch ∈ v.label.toList, ch.toNat < 128 := fun v hv ch hch =>
    of_decide_eq_true (List.all_eq_true.mp (List.all_eq_true.mp hall v hv) ch hch)
  obtain ⟨hok, -, hnameable⟩ := enumItem_variants hs (by decide) (by decide)
  exact ⟨hs, by decide +kernel, hok (hnameable (by decide) hascii)⟩

/-- An enum that is registered and has a value, but whose name is no identifier. -/
def hyphened : SchemaBindings.Enum where
  name := "A-B"
  values := [⟨"X", 0, none⟩]

/-- Nothing is made for an enum whose name is no identifier. -/
theorem enumItem_hyphened :
    (enumContext hyphened).symbols.get? (qualify "p" hyphened.name) =
      some ⟨⟨["a"]⟩, ["A-B"], .enum⟩ ∧
    hyphened.values ≠ [] ∧ (∀ n ∈ hyphened.numbers, IsInt32 n) ∧
    ¬ ∃ item, enumItem (enumContext hyphened) "p" hyphened = .ok item := by
  refine ⟨by decide +kernel, by decide, by decide, ?_⟩
  rintro ⟨item, h⟩
  have hfails : (enumItem (enumContext hyphened) "p" hyphened).toOption.isSome = false := by
    decide +kernel
  rw [h] at hfails
  cases hfails

end Binding

end SchemaBindings
