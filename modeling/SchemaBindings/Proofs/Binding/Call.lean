import SchemaBindings.Proofs.Binding.Signature
import SchemaBindings.Proofs.Code.Settled

/-!
The functions of clients are settled: they reach the library by paths from the root only, and what
they take, give and read are the types of requests and responses.
-/

namespace SchemaBindings

open Code

namespace SupportLibrary

/-- The paths that functions reach the library by. -/
def paths (l : SupportLibrary) : List Path :=
  [l.result, l.toWire, l.fromWire, l.trackingIdBlocking, l.trackingIdSuspending, l.logRequest,
   l.stream, l.blockingUnary, l.blockingStream, l.suspendingUnary, l.suspendingStream]

/-- The types of the fields of clients. -/
def types (l : SupportLibrary) : List Ty :=
  [l.metadata, l.blockingStub, l.suspendingStub]

/-- Generated code reaches the library by paths from the root, and the attribute of fields can be
named. -/
structure IsGlobal (l : SupportLibrary) : Prop where
  paths : ∀ p ∈ l.paths, p.isGlobal = true
  types : ∀ t ∈ l.types, t.Settled
  fieldAttribute : l.fieldAttribute.text ≠ "try"

variable {l : SupportLibrary}

theorem IsGlobal.trackingId (hl : l.IsGlobal) (mode : Mode) :
    (l.trackingId mode).isGlobal = true := by
  cases mode <;> exact hl.paths _ (by simp [SupportLibrary.trackingId, SupportLibrary.paths])

theorem IsGlobal.errorWrapper (hl : l.IsGlobal) (mode : Mode) (outputIsStream : Bool) :
    (l.errorWrapper mode outputIsStream).isGlobal = true := by
  cases mode <;> cases outputIsStream <;>
    exact hl.paths _ (by simp [SupportLibrary.errorWrapper, SupportLibrary.paths])

theorem IsGlobal.stub (hl : l.IsGlobal) (mode : Mode) : (l.stub mode).Settled := by
  cases mode <;> exact hl.types _ (by simp [SupportLibrary.stub, SupportLibrary.types])

/-- The default library is found from the root, with simple types. -/
theorem exists_default : ∃ l, ofSettings {} = .ok l ∧ (l.paths.all Path.isGlobal &&
    l.types.all Ty.isSimple && l.fieldAttribute.text != "try") = true :=
  exists_of_any (by decide +kernel)

end SupportLibrary

namespace Binding

theorem isWellFormed_docAttributes (docs : Option String) :
    (docAttributes docs).all Attribute.isWellFormed = true := by
  simp [docAttributes, Attribute.isWellFormed]

namespace Call

variable {l : SupportLibrary} {item : Ty} {others : List Bound} (c : Call)

/-! ## What a function takes and gives -/

theorem settled_streamOf (hl : l.IsGlobal) (ho : others.all Bound.isPlain = true)
    (h : item.Settled) : (Ty.implTrait (c.streamOf l item :: others) false).Settled := by
  have hstream : l.stream.isGlobal = true := hl.paths _ (by simp [SupportLibrary.paths])
  obtain ⟨leading, front, ident, hfront, heq⟩ := c.streamOf_eq l item
  rw [heq]
  exact .stream (hfront (Path.isPlain_of_isGlobal hstream)) ho h

theorem settled_parameter (hl : l.IsGlobal) (h : c.request.Settled) :
    (c.parameter l).type.Settled := by
  unfold parameter
  split
  · exact c.settled_streamOf hl rfl h
  · exact h

theorem settled_output (hl : l.IsGlobal) (h : c.response.Settled) : (c.output l).Settled := by
  have hresult : l.result.isGlobal = true := hl.paths _ (by simp [SupportLibrary.paths])
  have hone : (Ty.applied l.result [c.response]).Settled := .applied hresult h
  unfold output
  split
  · exact .applied hresult (c.settled_streamOf hl rfl hone)
  · exact hone

/-! ## The body of a function -/

theorem isGlobal_streamMap (hl : l.IsGlobal) : (c.streamMap l).isGlobal = true := by
  unfold streamMap streamItem
  cases c.mode with
  | blocking => rfl
  | suspending =>
    have hstream : l.stream.isGlobal = true := hl.paths _ (by simp [SupportLibrary.paths])
    have hnames : ["StreamExt", "map"] = ["StreamExt"] ++ ["map"] := rfl
    exact hnames ▸ Path.isGlobal_appendNames hstream (by decide) (by decide)

/-- Calls of functions that paths from the root name. -/
theorem settled_call {p : Path} {args : List Expr} (hp : p.isGlobal = true)
    (h : ∀ a ∈ args, a.Settled) : (p.call args).Settled :=
  .call (.path (Path.isPlain_of_isGlobal hp) (Path.standsAsValue_of_isGlobal hp)) h

theorem settled_variable {name : String} (h : name ≠ "try") : (Expr.variable name).Settled :=
  .path rfl (by simp [Path.standsAsValue, Path.ofNames, Path.segments, Segment.standsInValue,
    Segment.ident, h])

theorem beginsItem_call {p : Path} (args : List Expr) (hp : p.isGlobal = true) :
    Reader.beginsItem (p.call args).tokens = false :=
  beginsItem_of_leading (Path.isGlobal_iff.mp hp).1 _

theorem settled_awaited {e : Expr} (h : e.Settled) : (c.awaited e).Settled := by
  unfold awaited
  split
  · exact h
  · exact .unary _ h

theorem settled_marshalling (hl : l.IsGlobal) : (c.marshalling l).Settled := by
  have hto : l.toWire.isGlobal = true := hl.paths _ (by simp [SupportLibrary.paths])
  have hwritten : (l.toWire.call [.reference (.variable "request")]).Settled :=
    settled_call hto (List.forall_mem_singleton.mpr (.unary _ (settled_variable (by decide))))
  unfold marshalling
  split
  · refine .bind rfl (fun _ => rfl) (settled_call (c.isGlobal_streamMap hl) ?_)
    exact List.forall_mem_cons.mpr ⟨settled_variable (by decide),
      List.forall_mem_singleton.mpr (.lambda _ hwritten)⟩
  · exact .bind rfl (fun _ => rfl) (.unary _ hwritten)

theorem settled_calling : c.calling.Settled := by
  have hself (name : String) : ((Expr.variable "self").field name).Settled :=
    .unary _ (settled_variable (by decide))
  have hwire : (Expr.variable (if c.shape.inputIsStream then "wire_requests"
      else "wire_request")).Settled := settled_variable (by split <;> decide)
  have hargs : ∀ a ∈ [Expr.path (.ofNames false ["Self", "SERVICE_NAME"]), c.wireName,
      .variable (if c.shape.inputIsStream then "wire_requests" else "wire_request"),
      .reference ((Expr.variable "self").field "metadata")], a.Settled := by
    simp only [List.forall_mem_cons]
    exact ⟨.path rfl rfl, .literal _, hwire, .unary _ (hself _), List.forall_mem_nil _⟩
  unfold calling
  refine .bind ?_ (fun r => ?_) (.unary _ (c.settled_awaited (.methodCall _ (hself _) hargs)))
  · split <;> rfl
  · split <;> rfl

theorem settled_logging (hl : l.IsGlobal) : (c.logging l).Settled := by
  have hlog : l.logRequest.isGlobal = true := hl.paths _ (by simp [SupportLibrary.paths])
  have hid : ((l.trackingId c.mode).call [.reference (.variable "call")]).Settled :=
    settled_call (hl.trackingId c.mode)
      (List.forall_mem_singleton.mpr (.unary _ (settled_variable (by decide))))
  refine .effect (settled_call hlog ?_) (beginsItem_call _ hlog)
  exact List.forall_mem_cons.mpr ⟨c.settled_awaited hid,
    List.forall_mem_singleton.mpr (.literal _)⟩

theorem settled_unmarshalling (hl : l.IsGlobal) (h : c.response.Settled) :
    (c.unmarshalling l).Settled := by
  have hfrom : l.fromWire.isGlobal = true := hl.paths _ (by simp [SupportLibrary.paths])
  have hread : (Expr.applied l.fromWire [c.response]).Settled := .applied hfrom h
  unfold unmarshalling
  split
  · have hnext : ((Expr.variable "item").callMethod "and_then"
        [.applied l.fromWire [c.response]]).Settled :=
      .methodCall _ (settled_variable (by decide)) (List.forall_mem_singleton.mpr hread)
    have heach := Expr.Settled.lambda ⟨"item"⟩ (.block hnext (beginsItem_of_word (by decide) _))
    refine .result (settled_call rfl (List.forall_mem_singleton.mpr
      (settled_call (c.isGlobal_streamMap hl) ?_))) (beginsItem_call _ rfl)
    exact List.forall_mem_cons.mpr ⟨settled_variable (by decide),
      List.forall_mem_singleton.mpr heach⟩
  · refine .result (.call hread (List.forall_mem_singleton.mpr (settled_variable (by decide)))) ?_
    rw [Expr.tokens, Expr.tokens, List.append_assoc, List.append_assoc]
    exact beginsItem_of_leading (Path.isGlobal_iff.mp hfrom).1 _

theorem settled_body (hl : l.IsGlobal) (h : c.response.Settled) :
    ∀ s ∈ c.body l, s.Settled := by
  unfold body
  split
  · simp only [List.forall_mem_cons]
    exact ⟨c.settled_marshalling hl, c.settled_calling, c.settled_logging hl,
      c.settled_unmarshalling hl h, List.forall_mem_nil _⟩
  · simp only [List.forall_mem_cons]
    exact ⟨.bind rfl (fun _ => rfl) (settled_variable (by decide)),
      .result (.macroCall ..) (beginsItem_of_leading rfl _), List.forall_mem_nil _⟩

/-- A function is settled if the types of its requests and responses are. -/
theorem settled_function (hl : l.IsGlobal) (hn : c.name.isName = true) (hq : c.request.Settled)
    (hr : c.response.Settled) : (c.function l).Settled where
  attributes := by
    have hwrapper := Path.namesAttribute_of_isGlobal
      (hl.errorWrapper c.mode c.shape.outputIsStream)
    simp only [function, List.all_append, isWellFormed_docAttributes, List.all_cons, List.all_nil,
      Attribute.isWellFormed, hwrapper, Bool.true_and, Bool.and_true]
    split <;> rfl
  name := hn
  parameters := List.forall_mem_singleton.mpr (c.settled_parameter hl hq)
  output := c.settled_output hl hr
  body := c.settled_body hl hr

end Call

end Binding

end SchemaBindings
