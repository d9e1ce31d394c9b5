import Mathlib.Data.List.Infix
import Mathlib.Data.List.Nodup
import Mathlib.Data.Set.Lattice
import Mathlib.Order.CompletePartialOrder
import SchemaBindings.Proofs.Descriptor.Comments

/-!
The entities of a descriptor and of the schema file that is made from it, listed from both sides in
the order in which they stand. The entities are the same ones at the same paths, each with the
comment at its path, and no path leads to two of them.
-/

namespace SchemaBindings

/-! ## Entities -/

inductive EntityKind where
  | message
  | field
  | enum
  | enumValue
  | service
  | method
deriving DecidableEq, Repr

/-- An entity of a file, and the path that leads to it: its kind among the parts of its parent and
its place there, below the path of the parent. -/
structure Entity where
  path : List Int
  kind : EntityKind
  name : String
  /-- The number of a field or of an enum value. -/
  number : Option Int := none
deriving DecidableEq, Repr

/-- An entity of a schema file, with its documentation. -/
structure SchemaEntity extends Entity where
  docs : Option String
deriving DecidableEq, Repr

open Descriptor (childPath)

/-- An enum and its values. -/
def Enum.entities (path : List Int) (e : Enum) : List SchemaEntity :=
  ⟨⟨path, .enum, e.name, none⟩, e.docs⟩ :: e.values.mapIdx fun i v =>
    ⟨⟨childPath path 2 i, .enumValue, v.label, some v.number⟩, v.docs⟩

mutual

/-- A message, its fields, and what is nested in it. -/
def Message.entities (path : List Int) : Message → List SchemaEntity
  | ⟨name, fields, messages, enums, docs⟩ =>
    ⟨⟨path, .message, name, none⟩, docs⟩ ::
      ((fields.mapIdx fun i f =>
        ⟨⟨childPath path 2 i, .field, f.name, some f.number⟩, f.docs⟩) ++
      messageEntities path 3 0 messages ++
      (enums.mapIdx fun i e => e.entities (childPath path 4 i)).flatten)

/-- Messages, of which the first has the given place among the parts of the parent. -/
def messageEntities (parent : List Int) (part : Int) (place : ℕ) :
    List Message → List SchemaEntity
  | [] => []
  | m :: rest =>
    m.entities (childPath parent part place) ++ messageEntities parent part (place + 1) rest

end

/-- A service and its methods. -/
def Service.entities (path : List Int) (v : Service) : List SchemaEntity :=
  ⟨⟨path, .service, v.name, none⟩, v.docs⟩ :: v.methods.mapIdx fun i m =>
    ⟨⟨childPath path 2 i, .method, m.name, none⟩, m.docs⟩

/-- Everything in a file, at any depth. -/
def SchemaFile.entities (f : SchemaFile) : List SchemaEntity :=
  messageEntities [] 4 0 f.messages ++
    (f.enums.mapIdx fun i e => e.entities (childPath [] 5 i)).flatten ++
    (f.services.mapIdx fun i v => v.entities (childPath [] 6 i)).flatten

namespace Descriptor

/-- An enum and its values. -/
def Enum.entities (path : List Int) (d : Enum) : List Entity :=
  ⟨path, .enum, d.name, none⟩ ::
    d.values.mapIdx fun i v => ⟨childPath path 2 i, .enumValue, v.name, some v.number⟩

mutual

/-- A message, its fields, and what is nested in it. -/
def Message.entities (path : List Int) : Message → List Entity
  | ⟨name, fields, messages, enums, _⟩ =>
    ⟨path, .message, name, none⟩ ::
      ((fields.mapIdx fun i f => ⟨childPath path 2 i, .field, f.name, some f.number⟩) ++
      messageEntities path 3 0 messages ++
      (enums.mapIdx fun i e => e.entities (childPath path 4 i)).flatten)

/-- Messages, of which the first has the given place among the parts of the parent. -/
def messageEntities (parent : List Int) (part : Int) (place : ℕ) : List Message → List Entity
  | [] => []
  | d :: rest =>
    d.entities (childPath parent part place) ++ messageEntities parent part (place + 1) rest

end

/-- A service and its methods. -/
def Service.entities (path : List Int) (d : Service) : List Entity :=
  ⟨path, .service, d.name, none⟩ ::
    d.methods.mapIdx fun i m => ⟨childPath path 2 i, .method, m.name, none⟩

/-- Everything in a file, at any depth. -/
def File.entities (f : File) : List Entity :=
  messageEntities [] 4 0 f.messages ++
    (f.enums.mapIdx fun i d => d.entities (childPath [] 5 i)).flatten ++
    (f.services.mapIdx fun i d => d.entities (childPath [] 6 i)).flatten

/-! ## Conversion keeps the entities -/

/-- An entity with what the comments say at its path. -/
def Source.document (s : Source) (e : Entity) : SchemaEntity :=
  ⟨e, s.docs? e.path⟩

section

variable (s : Source)

theorem map_mapIdx {α β γ : Type} (g : β → γ) (f : ℕ → α → β) (as : List α) :
    (as.mapIdx f).map g = as.mapIdx fun i a => g (f i a) := by
  rw [List.mapIdx_eq_zipIdx_map, List.mapIdx_eq_zipIdx_map, List.map_map]
  rfl

theorem flatten_mapIdx_document {α β : Type} (convert : ℕ → α → β)
    {after : ℕ → β → List SchemaEntity} {before : ℕ → α → List Entity}
    (h : ∀ i a, after i (convert i a) = (before i a).map s.document) (as : List α) :
    ((as.mapIdx convert).mapIdx after).flatten = (as.mapIdx before).flatten.map s.document := by
  rw [List.mapIdx_mapIdx, List.map_flatten, map_mapIdx]
  exact congrArg (fun f => (as.mapIdx f).flatten) (funext₂ h)

theorem Enum.entities_convert (path : List Int) (d : Enum) :
    (d.convert s path).entities path = (d.entities path).map s.document := by
  rw [Enum.entities, SchemaBindings.Enum.entities, Enum.convert, List.mapIdx_mapIdx, List.map_cons,
    map_mapIdx]
  rfl

theorem Service.entities_convert (package : String) (path : List Int) (d : Service) :
    (d.convert s package path).entities path = (d.entities path).map s.document := by
  rw [Service.entities, SchemaBindings.Service.entities, Service.convert, List.mapIdx_mapIdx,
    List.map_cons, map_mapIdx]
  rfl

mutual

theorem Message.entities_convert (path : List Int) (d : Message) :
    (d.convert s path).entities path = (d.entities path).map s.document := by
  obtain ⟨name, fields, messages, enums, oneofs⟩ := d
  have henums := flatten_mapIdx_document s (fun i => Enum.convert s (childPath path 4 i))
    (fun i e => Enum.entities_convert s (childPath path 4 i) e) enums
  rw [Message.convert, Message.entities, SchemaBindings.Message.entities, List.map_cons,
    List.map_append, List.map_append, ← messageEntities_convert path 3 0 messages, ← henums,
    map_mapIdx, List.mapIdx_mapIdx]
  rfl

theorem messageEntities_convert (parent : List Int) (part : Int) (place : ℕ)
    (ds : List Message) :
    SchemaBindings.messageEntities parent part place (convertMessages s parent part place ds) =
      (messageEntities parent part place ds).map s.document := by
  match ds with
  | [] => rfl
  | d :: rest =>
    rw [convertMessages, messageEntities, SchemaBindings.messageEntities, List.map_append,
      Message.entities_convert (childPath parent part place) d,
      messageEntities_convert parent part (place + 1) rest]

end

end

/-- The comments of a file and its kind of presence, as its conversion looks at them. -/
def File.source (f : File) : Source :=
  ⟨f.syntaxName == "proto3", f.locations⟩

theorem File.entities_convert (f : File) (path : String) :
    (f.convert path).entities = f.entities.map f.source.document := by
  have henums := flatten_mapIdx_document f.source
    (fun i d => Enum.convert f.source (childPath [] 5 i) d)
    (fun i d => Enum.entities_convert f.source (childPath [] 5 i) d) f.enums
  have hservices := flatten_mapIdx_document f.source
    (fun i d => Service.convert f.source f.package (childPath [] 6 i) d)
    (fun i d => Service.entities_convert f.source f.package (childPath [] 6 i) d) f.services
  rw [SchemaFile.entities, File.entities, List.map_append, List.map_append,
    ← messageEntities_convert f.source [] 4 0 f.messages, ← henums, ← hservices]
  rfl

/-! ## Paths of entities -/

/-- A path leads into one child of a parent only. -/
theorem childPath_inj {parent path : List Int} {c d : Int × ℕ}
    (hc : childPath parent c.1 c.2 <+: path) (hd : childPath parent d.1 d.2 <+: path) : c = d := by
  have hlength : (childPath parent c.1 c.2).length = (childPath parent d.1 d.2).length := by
    rw [childPath, childPath, List.length_append, List.length_append]
    rfl
  have heq : childPath parent c.1 c.2 = childPath parent d.1 d.2 :=
    (List.prefix_of_prefix_length_le hc hd hlength.le).eq_of_length hlength
  have hlast : c.1 = d.1 ∧ (c.2 : Int) = d.2 := by
    simpa using List.append_cancel_left heq
  exact Prod.ext hlast.1 (Int.ofNat_inj.mp hlast.2)

/-- The entities are at or inside the path, and the paths of them are distinct. -/
structure AreWithin (path : List Int) (es : List Entity) : Prop where
  within : ∀ e ∈ es, path <+: e.path
  nodup : (es.map (·.path)).Nodup

/-- The entities are at or inside these children of the parent, each given by the part of the parent
that it belongs to and its place there, and the paths of them are distinct. -/
structure AreBelow (parent : List Int) (children : Set (Int × ℕ)) (es : List Entity) : Prop where
  below : ∀ e ∈ es, ∃ c ∈ children, childPath parent c.1 c.2 <+: e.path
  nodup : (es.map (·.path)).Nodup

/-- The children of a part from the given place on. -/
def childrenFrom (part : Int) (place : ℕ) : Set (Int × ℕ) :=
  {c | c.1 = part ∧ place ≤ c.2}

section

variable {parent path : List Int} {part : Int} {place : ℕ} {children others : Set (Int × ℕ)}
  {e : Entity} {es fs : List Entity}

theorem AreBelow.nil : AreBelow parent children [] :=
  ⟨List.forall_mem_nil _, List.nodup_nil⟩

theorem AreBelow.mono (h : AreBelow parent children es) (hsubset : children ⊆ others) :
    AreBelow parent others es := by
  refine ⟨fun e he => ?_, h.nodup⟩
  obtain ⟨c, hc, hbelow⟩ := h.below e he
  exact ⟨c, hsubset hc, hbelow⟩

/-- What is inside different children has different paths. -/
theorem AreBelow.append (h : AreBelow parent children es) (h' : AreBelow parent others fs)
    (hdisjoint : Disjoint children others) : AreBelow parent (children ∪ others) (es ++ fs) := by
  constructor
  · exact List.forall_mem_append.mpr
      ⟨(h.mono Set.subset_union_left).below, (h'.mono Set.subset_union_right).below⟩
  · rw [List.map_append]
    refine List.nodup_append'.mpr ⟨h.nodup, h'.nodup, fun path hes hfs => ?_⟩
    obtain ⟨e, he, rfl⟩ := List.mem_map.mp hes
    obtain ⟨f, hf, heq⟩ := List.mem_map.mp hfs
    obtain ⟨c, hc, hbelow⟩ := h.below e he
    obtain ⟨d, hd, hbelow'⟩ := h'.below f hf
    rw [heq] at hbelow'
    exact Set.disjoint_left.mp hdisjoint hc (childPath_inj hbelow hbelow' ▸ hd)

theorem AreWithin.below (h : AreWithin (childPath parent part place) es) :
    AreBelow parent {(part, place)} es :=
  ⟨fun e he => ⟨_, rfl, h.within e he⟩, h.nodup⟩

/-- An entity with what is inside its children. -/
theorem AreBelow.cons (h : AreBelow e.path children es) : AreWithin e.path (e :: es) := by
  have hparent : ∀ d ∈ es, e.path <+: d.path ∧ d.path ≠ e.path := by
    intro d hd
    obtain ⟨c, -, hbelow⟩ := h.below d hd
    refine ⟨(List.prefix_append _ _).trans hbelow, fun heq => ?_⟩
    have hlength := hbelow.length_le
    rw [heq, childPath, List.length_append, List.length_cons] at hlength
    omega
  constructor
  · exact List.forall_mem_cons.mpr ⟨List.prefix_refl _, fun d hd => (hparent d hd).1⟩
  · refine List.nodup_cons.mpr ⟨fun hin => ?_, h.nodup⟩
    obtain ⟨d, hd, heq⟩ := List.mem_map.mp hin
    exact (hparent d hd).2 heq

theorem disjoint_childrenFrom {part' : Int} {place' : ℕ} (h : part ≠ part') :
    Disjoint (childrenFrom part place) (childrenFrom part' place') :=
  Set.disjoint_left.mpr fun _ hc hd => h (hc.1.symm.trans hd.1)

/-- What is inside one child, and inside the children behind it. -/
theorem AreBelow.append_from (h : AreWithin (childPath parent part place) es)
    (hrest : AreBelow parent (childrenFrom part (place + 1)) fs) :
    AreBelow parent (childrenFrom part place) (es ++ fs) := by
  have hdisjoint : Disjoint {(part, place)} (childrenFrom part (place + 1)) :=
    Set.disjoint_singleton_left.mpr fun hin => Nat.not_succ_le_self place hin.2
  refine (h.below.append hrest hdisjoint).mono (Set.union_subset ?_ fun c hc => ?_)
  · exact Set.singleton_subset_iff.mpr ⟨rfl, le_rfl⟩
  · exact ⟨hc.1, Nat.le_of_succ_le hc.2⟩

theorem AreBelow.flatten_mapIdx {α : Type} {f : ℕ → α → List Entity}
    (h : ∀ i a, AreWithin (childPath parent part i) (f i a)) (as : List α) :
    AreBelow parent (childrenFrom part 0) (as.mapIdx f).flatten := by
  -- The places of the rest of the children are those of the whole list.
  suffices hfrom : ∀ place, AreBelow parent (childrenFrom part place)
      (as.mapIdx fun i a => f (place + i) a).flatten by
    simpa only [Nat.zero_add] using hfrom 0
  induction as with
  | nil => exact fun place => AreBelow.nil
  | cons a as ih =>
    intro place
    have hrest := ih (place + 1)
    simp only [Nat.add_right_comm place 1] at hrest
    rw [List.mapIdx_cons, List.flatten_cons]
    exact AreBelow.append_from (h place a) hrest

theorem AreBelow.mapIdx {α : Type} {f : ℕ → α → Entity}
    (h : ∀ i a, (f i a).path = childPath parent part i) (as : List α) :
    AreBelow parent (childrenFrom part 0) (as.mapIdx f) := by
  have hwithin (i : ℕ) (a : α) : AreWithin (childPath parent part i) [f i a] := by
    have hnone : AreBelow (f i a).path ∅ [] := AreBelow.nil
    exact h i a ▸ hnone.cons
  have hflatten := AreBelow.flatten_mapIdx hwithin as
  rwa [← map_mapIdx (fun e => [e]) f as, ← List.flatMap_def, List.flatMap_singleton'] at hflatten

end

/-! ## Descriptors -/

theorem Enum.entities_within (path : List Int) (d : Enum) : AreWithin path (d.entities path) :=
  AreBelow.cons (e := ⟨path, .enum, d.name, none⟩) (AreBelow.mapIdx (fun _ _ => rfl) d.values)

theorem Service.entities_within (path : List Int) (d : Service) :
    AreWithin path (d.entities path) :=
  AreBelow.cons (e := ⟨path, .service, d.name, none⟩)
    (AreBelow.mapIdx (fun _ _ => rfl) d.methods)

mutual

theorem Message.entities_within (path : List Int) (d : Message) :
    AreWithin path (d.entities path) := by
  obtain ⟨name, fields, messages, enums, oneofs⟩ := d
  have hfields : AreBelow path (childrenFrom 2 0)
      (fields.mapIdx fun i f => ⟨childPath path 2 i, .field, f.name, some f.number⟩) :=
    AreBelow.mapIdx (fun _ _ => rfl) fields
  have hmessages := messageEntities_below path 3 0 messages
  have henums := AreBelow.flatten_mapIdx
    (fun i e => Enum.entities_within (childPath path 4 i) e) enums
  have hparts := (hfields.append hmessages (disjoint_childrenFrom (by decide))).append henums
    (Set.disjoint_union_left.mpr
      ⟨disjoint_childrenFrom (by decide), disjoint_childrenFrom (by decide)⟩)
  exact AreBelow.cons (e := ⟨path, .message, name, none⟩) hparts

theorem messageEntities_below (parent : List Int) (part : Int) (place : ℕ) (ds : List Message) :
    AreBelow parent (childrenFrom part place) (messageEntities parent part place ds) := by
  match ds with
  | [] => exact AreBelow.nil
  | d :: rest =>
    rw [messageEntities]
    exact AreBelow.append_from (Message.entities_within _ d)
      (messageEntities_below parent part (place + 1) rest)

end

/-- No path leads to two entities of a file. -/
theorem File.nodup_entities (f : File) : (f.entities.map (·.path)).Nodup := by
  have hmessages := messageEntities_below [] 4 0 f.messages
  have henums := AreBelow.flatten_mapIdx
    (fun i d => Enum.entities_within (childPath [] 5 i) d) f.enums
  have hservices := AreBelow.flatten_mapIdx
    (fun i d => Service.entities_within (childPath [] 6 i) d) f.services
  exact ((hmessages.append henums (disjoint_childrenFrom (by decide))).append hservices
    (Set.disjoint_union_left.mpr
      ⟨disjoint_childrenFrom (by decide), disjoint_childrenFrom (by decide)⟩)).nodup

/-! ## Comments of entities -/

theorem docs?_eq_some_iff {f : File} {path : List Int} {docs : String} :
    f.source.docs? path = some docs ↔
      ∃ text, f.IsComment path text ∧ docs = Text.trimmed text := by
  constructor
  · intro h
    rw [Source.docs?, List.getLast?_filterMap, List.findSome?_eq_some_iff] at h
    obtain ⟨after, ⟨p, text⟩, before, hlocations, hlast, hafter⟩ := h
    dsimp only at hlast
    split at hlast
    · rename_i hcond
      obtain ⟨hpath, hblank⟩ := Bool.and_eq_true_iff.mp hcond
      obtain rfl := beq_iff_eq.mp hpath
      refine ⟨text, ⟨before.reverse, after.reverse, ?_, ?_, fun l hl hlpath => ?_⟩, ?_⟩
      · rw [← List.reverse_inj, List.reverse_append, List.reverse_cons, List.reverse_reverse,
          List.reverse_reverse, List.append_assoc]
        exact hlocations
      · simpa using hblank
      · have hnone := hafter l (List.mem_reverse.mp hl)
        simpa [hlpath] using hnone
      · exact (Option.some.inj hlast).symm
    · cases hlast
  · rintro ⟨text, hcomment, rfl⟩
    exact docs?_eq hcomment _

/-- The schema file that is made from a descriptor has the entities of the descriptor, in their
order and nested like them. Each is documented by the last comment at its path that is not blank, if
there is one. The paths are distinct, so that a comment documents one entity at most. -/
theorem File.convert_entities (f : File) (path : String) :
    (f.convert path).entities.map (·.toEntity) = f.entities ∧
      (∀ e ∈ (f.convert path).entities, ∀ docs, e.docs = some docs ↔
        ∃ text, f.IsComment e.path text ∧ docs = Text.trimmed text) ∧
      (f.entities.map (·.path)).Nodup ∧
      ∀ l ∈ f.locations, ((f.convert path).entities.map (·.path)).count l.path ≤ 1 := by
  have hsame : (f.convert path).entities.map (·.toEntity) = f.entities := by
    rw [f.entities_convert, List.map_map]
    exact List.map_id _
  have hnodup := f.nodup_entities
  refine ⟨hsame, fun e he docs => ?_, hnodup, fun l hl => ?_⟩
  · rw [f.entities_convert] at he
    obtain ⟨d, hd, rfl⟩ := List.mem_map.mp he
    exact docs?_eq_some_iff
  · have hpaths : (f.convert path).entities.map (·.path) = f.entities.map (·.path) := by
      rw [← hsame, List.map_map]
      rfl
    rw [hpaths]
    exact List.nodup_iff_count_le_one.mp hnodup l.path

end Descriptor

end SchemaBindings
