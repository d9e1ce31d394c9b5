import SchemaBindings.Descriptor
import SchemaBindings.Proofs.Docs.Trimming

/-!
The comments of a descriptor as the documentation of the schema entities that are made from it. An
entity of a schema file is documented by the comment that the path of its descriptor leads to.
-/

namespace SchemaBindings

open Descriptor (childPath)

/-- The documentation of an entity, and the path that leads to the descriptor of it. -/
structure Documented where
  path : List Int
  docs : Option String
deriving DecidableEq

/-- An enum and its values. -/
def Enum.documented (path : List Int) (e : Enum) : List Documented :=
  ⟨path, e.docs⟩ :: e.values.mapIdx fun i v => ⟨childPath path 2 i, v.docs⟩

mutual

/-- A message, its fields, and what is nested in it. -/
def Message.documented (path : List Int) : Message → List Documented
  | ⟨_, fields, messages, enums, docs⟩ =>
    ⟨path, docs⟩ :: ((fields.mapIdx fun i f => ⟨childPath path 2 i, f.docs⟩) ++
      documentedMessages path 3 0 messages ++
      (enums.mapIdx fun i e => e.documented (childPath path 4 i)).flatten)

/-- Messages, of which the first has the given place among the parts of the parent. -/
def documentedMessages (parent : List Int) (part : Int) (place : Nat) :
    List Message → List Documented
  | [] => []
  | m :: rest =>
    m.documented (childPath parent part place) ++ documentedMessages parent part (place + 1) rest

end

/-- A service and its methods. -/
def Service.documented (path : List Int) (v : Service) : List Documented :=
  ⟨path, v.docs⟩ :: v.methods.mapIdx fun i m => ⟨childPath path 2 i, m.docs⟩

/-- Everything in a file that can be documented, at any depth. -/
def SchemaFile.documented (f : SchemaFile) : List Documented :=
  documentedMessages [] 4 0 f.messages ++
    (f.enums.mapIdx fun i e => e.documented (childPath [] 5 i)).flatten ++
    (f.services.mapIdx fun i v => v.documented (childPath [] 6 i)).flatten

namespace Descriptor

/-! ## The documentation of converted entities -/

/-- The documentation is what the comments say at the path. -/
def Source.Documents (s : Source) (e : Documented) : Prop :=
  e.docs = s.docs? e.path

section

variable {s : Source}

theorem documents_mapIdx {α : Type} {f : ℕ → α → Documented}
    (h : ∀ i a, s.Documents (f i a)) (as : List α) : ∀ e ∈ as.mapIdx f, s.Documents e := by
  intro e he
  obtain ⟨i, hi, rfl⟩ := List.mem_mapIdx.mp he
  exact h i _

theorem documents_flatten_mapIdx {α : Type} {f : ℕ → α → List Documented}
    (h : ∀ i a, ∀ e ∈ f i a, s.Documents e) (as : List α) :
    ∀ e ∈ (as.mapIdx f).flatten, s.Documents e := by
  intro e he
  obtain ⟨es, hes, he⟩ := List.mem_flatten.mp he
  obtain ⟨i, hi, rfl⟩ := List.mem_mapIdx.mp hes
  exact h i _ e he

theorem documents_enum (path : List Int) (d : Enum) :
    ∀ e ∈ (d.convert s path).documented path, s.Documents e := by
  rw [SchemaBindings.Enum.documented, Enum.convert, List.mapIdx_mapIdx]
  refine List.forall_mem_cons.mpr ⟨rfl, documents_mapIdx (fun i a => ?_) _⟩
  rfl

theorem documents_service (package : String) (path : List Int) (d : Service) :
    ∀ e ∈ (d.convert s package path).documented path, s.Documents e := by
  rw [SchemaBindings.Service.documented, Service.convert, List.mapIdx_mapIdx]
  refine List.forall_mem_cons.mpr ⟨rfl, documents_mapIdx (fun i a => ?_) _⟩
  rfl

mutual

theorem documents_message (path : List Int) (d : Message) :
    ∀ e ∈ (d.convert s path).documented path, s.Documents e := by
  obtain ⟨name, fields, messages, enums, oneofs⟩ := d
  rw [Message.convert, SchemaBindings.Message.documented, List.mapIdx_mapIdx, List.mapIdx_mapIdx]
  refine List.forall_mem_cons.mpr ⟨rfl, List.forall_mem_append.mpr
    ⟨List.forall_mem_append.mpr ⟨documents_mapIdx (fun i a => ?_) _, ?_⟩, ?_⟩⟩
  · rfl
  · exact documents_messages path 3 0 messages
  · exact documents_flatten_mapIdx (fun i d => documents_enum _ d) enums

theorem documents_messages (parent : List Int) (part : Int) (place : ℕ) (ds : List Message) :
    ∀ e ∈ documentedMessages parent part place (convertMessages s parent part place ds),
      s.Documents e := by
  match ds with
  | [] => exact List.forall_mem_nil _
  | d :: rest =>
    rw [convertMessages, documentedMessages]
    exact List.forall_mem_append.mpr
      ⟨documents_message _ d, documents_messages parent part (place + 1) rest⟩

end

end

/-- Everything in a converted file is documented by what the comments say at its path. -/
theorem File.documented_convert (f : File) (name : String) :
    ∀ e ∈ (f.convert name).documented,
      Source.Documents ⟨f.syntaxName == "proto3", f.locations⟩ e := by
  rw [SchemaFile.documented, File.convert, List.mapIdx_mapIdx, List.mapIdx_mapIdx]
  refine List.forall_mem_append.mpr ⟨List.forall_mem_append.mpr
    ⟨documents_messages [] 4 0 f.messages, ?_⟩, ?_⟩
  · exact documents_flatten_mapIdx (fun i d => documents_enum _ d) f.enums
  · exact documents_flatten_mapIdx (fun i d => documents_service _ _ d) f.services

/-! ## Comments -/

/-- A text is the comment at a path: it is not blank, and no later text at the path is. -/
def File.IsComment (f : File) (path : List Int) (text : String) : Prop :=
  ∃ before after, f.locations = before ++ ⟨path, text⟩ :: after ∧ Text.trimmed text ≠ "" ∧
    ∀ l ∈ after, l.path = path → Text.trimmed l.leading = ""

theorem docs?_eq {f : File} {path : List Int} {text : String} (h : f.IsComment path text)
    (isProto3 : Bool) : Source.docs? ⟨isProto3, f.locations⟩ path = some (Text.trimmed text) := by
  obtain ⟨before, after, hlocations, htext, hafter⟩ := h
  have hnone : after.filterMap (fun l =>
      if l.path == path && !(Text.trimmed l.leading).isEmpty then some (Text.trimmed l.leading)
      else none) = [] := by
    refine List.filterMap_eq_nil_iff.mpr fun l hl => if_neg ?_
    intro hboth
    obtain ⟨hpath, hblank⟩ := Bool.and_eq_true_iff.mp hboth
    rw [hafter l hl (beq_iff_eq.mp hpath)] at hblank
    cases hblank
  have hfirst : ((path == path) && !(Text.trimmed text).isEmpty) = true := by
    simpa using htext
  rw [Source.docs?, hlocations, List.filterMap_append, List.filterMap_cons]
  dsimp only
  rw [if_pos hfirst, hnone, List.getLast?_concat]

/-- What a comment documents is rendered like the comment with nothing taken off the indentation of
its fenced lines, blank lines at the ends apart. So it is rendered like the comment exactly if the
lines of the comment have no indentation in common or none of them is fenced. -/
theorem File.render_documented {f : File} {name : String} {e : Documented} {text : String}
    (he : e ∈ (f.convert name).documented) (h : f.IsComment e.path text) :
    e.docs = some (Text.trimmed text) ∧
      Docs.render e.docs = Docs.withoutBlankEnds
        ((Docs.renderLines 0 false (Docs.lines text.toList)).map String.ofList) ∧
      (Docs.render e.docs = Docs.withoutBlankEnds (Docs.render (some text)) ↔
        Docs.commonIndentation (Docs.lines text.toList) = 0 ∨
          ∀ line, ¬ Docs.IsFenced (Docs.lines text.toList) line) := by
  have hdocs : e.docs = some (Text.trimmed text) :=
    (f.documented_convert name e he).trans (docs?_eq h _)
  rw [hdocs]
  exact ⟨rfl, Docs.render_trimmed text, Docs.render_trimmed_eq_iff text⟩

/-- A message with an example in front of it: the line of the example keeps the blank that begins
every line of the comment. -/
theorem File.render_documented_example :
    let text := " Example:\n ```\n code\n ```"
    let f : File := { messages := [{ name := "A" }], locations := [⟨[4, 0], text⟩] }
    let e : Documented := ⟨[4, 0], some "Example:\n ```\n code\n ```"⟩
    e ∈ (f.convert "a.proto").documented ∧ f.IsComment e.path text ∧
      Docs.render (some text) = [" Example:", " ```text", " code", " ```"] ∧
      Docs.render e.docs = [" Example:", " ```text", "  code", " ```"] ∧
      Docs.render e.docs ≠ Docs.withoutBlankEnds (Docs.render (some text)) := by
  intro text f e
  have he : e ∈ (f.convert "a.proto").documented := by
    decide
  have hcomment : f.IsComment e.path text := ⟨[], [], rfl, by decide, List.forall_mem_nil _⟩
  refine ⟨he, hcomment, by decide, by decide, fun heq => ?_⟩
  rcases (File.render_documented he hcomment).2.2.mp heq with hzero | hnone
  · revert hzero
    decide
  · exact hnone " code".toList
      ⟨[" Example:".toList, " ```".toList], [" ```".toList], by decide, by decide, by decide,
        by decide⟩

end Descriptor

end SchemaBindings
