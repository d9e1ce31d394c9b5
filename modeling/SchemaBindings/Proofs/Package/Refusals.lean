import SchemaBindings.Proofs.Binding.Refusals
import SchemaBindings.Proofs.Package.Assembly
import SchemaBindings.Proofs.Package.Composition
import SchemaBindings.Proofs.Package.Failures

/-!
What a package reports of methods that are not supported, and that this is what its clients do:
exactly the functions of these methods refuse to run, in the client that blocks and in the one that
suspends.
-/

namespace SchemaBindings

open Code

namespace Package

variable {g : Generator} {files : List SchemaFile}

/-- The client of a service in a mode as it stands in a package: its constructor, and a function for
every method, which refuses to run exactly if a single response answers a stream of requests. -/
def ClientStands (asyncPrefix : String) (client : Service × Mode) (item : Item) : Prop :=
  ∃ moved name new functions, name.text = client.1.clientName asyncPrefix client.2 ∧
    item = .finishedClient moved name client.1.fullName (new :: functions) ∧ ¬ new.Refuses ∧
      List.Forall₂ (fun m f => Function.Refuses f ↔ Method.streamsRequestsOnly m = true)
        client.1.methods functions

theorem clientStands_of_finished {c : Binding.Context} {r : Relocation} {client : Service × Mode}
    {i i' : Item} (h : Binding.ClientMade c client i) (hf : i.Finished r i')
    (hkept : r.lookup (client.1.clientName c.asyncPrefix client.2) = none) :
    ClientStands c.asyncPrefix client i' := by
  obtain ⟨name, functions, hname, rfl, hmade⟩ := h
  cases hf with
  | implementation _ _ hread =>
    cases mapM_some.mp hread with
    | @cons _ new _ functions' hnew hfunctions =>
      refine ⟨r, name, new.relocate r, functions'.map (·.relocate r), hname, ?_,
        Binding.not_refuses_constructor hnew r, ?_⟩
      · rw [Ty.relocate_named (hname ▸ hkept)]
        rfl
      rw [List.forall₂_map_right_iff]
      refine (forall₂_comp hmade hfunctions).imp fun m f hmf => ?_
      obtain ⟨_, ⟨-, _, _, _, rfl⟩, hf⟩ := hmf
      exact Binding.Call.refuses_iff hf r

namespace Assembly

variable {s : Stages} {f : SchemaFile} {m : GeneratedModule}

/-- Neither imports nor child modules are clients. -/
theorem filter_isClient (a : Assembly g s f m) :
    m.file.items.filter Item.isClient = a.body.filter Item.isClient := by
  have huses : a.uses.filter Item.isClient = [] := by
    refine List.filter_eq_nil_iff.mpr fun item hm => ?_
    obtain ⟨_, -, _, _, rfl, -⟩ := a.mem_uses hm
    exact Bool.false_ne_true
  have hchildren : a.children.filter Item.isClient = [] := by
    refine List.filter_eq_nil_iff.mpr fun item hm => ?_
    obtain ⟨_, rfl⟩ := a.mem_children hm
    exact Bool.false_ne_true
  rw [a.items, List.filter_append, List.filter_append, huses, hchildren]
  rfl

/-- The clients of a module of the package are those of its services. -/
theorem clients_stand (a : Assembly g s f m) (h : s.Succeed g files) (hf : f ∈ files) :
    List.Forall₂ (ClientStands g.settings.asyncPrefix) f.servicesByMode
      (m.file.items.filter Item.isClient) := by
  obtain ⟨_, _, hraw⟩ := a.made
  have hfinished : List.Forall₂ (Item.Finished a.relocation) (a.raw.filter Item.isClient)
      (a.body.filter Item.isClient) :=
    List.rel_filter (fun _ _ hi => iff_of_eq (congrArg (· = true) hi.isClient.symm)) a.finished
  rw [a.filter_isClient]
  refine forall₂_imp_of_mem (forall₂_comp (Binding.moduleFile_made hraw) hfinished)
    fun client hmem i' hi => ?_
  obtain ⟨i, hmade, hi⟩ := hi
  have hservice := SchemaFile.mem_servicesByMode.mp hmem
  exact clientStands_of_finished hmade hi (a.lookup_clientName h hf hservice client.2)

end Assembly

/-- What the drafts report are the unsupported methods of the files in their order. -/
theorem stubbed_of_drafts {symbols : SymbolTable} {drafts : List Draft}
    (h : List.Forall₂ (fun f d => draft g symbols f = .ok d) files drafts) :
    drafts.flatMap (·.notes.stubbed) = files.flatMap SchemaFile.unsupported := by
  refine flatMap_eq_of_forall₂ h fun f _ d _ hd => ?_
  obtain ⟨-, -, raw, _, hraw, -⟩ := draft_ok hd
  exact Binding.moduleFile_reports f _ _ _ hraw

theorem streamsRequestsOnly_of_draft (hg : g.settings.unimplemented = .failFast)
    {symbols : SymbolTable} {f : SchemaFile} {d : Draft} (hd : draft g symbols f = .ok d) :
    ∀ s ∈ f.services, ∀ m ∈ s.methods, m.streamsRequestsOnly = false := by
  intro s hs m hm
  obtain ⟨-, -, raw, _, hraw, -⟩ := draft_ok hd
  have hmem : (s, Mode.blocking) ∈ f.servicesByMode := SchemaFile.mem_servicesByMode.mpr hs
  obtain ⟨item, -, name, functions, -, -, hmade⟩ :=
    exists_mem_right (Binding.moduleFile_made hraw) hmem
  obtain ⟨_, -, hfail, -⟩ := exists_mem_right hmade hm
  exact hfail hg

theorem unsupported_eq_nil {f : SchemaFile}
    (h : ∀ s ∈ f.services, ∀ m ∈ s.methods, m.streamsRequestsOnly = false) :
    f.unsupported = [] := by
  refine List.flatMap_eq_nil_iff.mpr fun s hs => ?_
  rw [Service.unsupported, List.map_eq_nil_iff, List.filter_eq_nil_iff]
  exact fun m hm => Bool.eq_false_iff.mp (h s hs m hm)

/-- Under the policy that keeps unsupported methods none of them is refused, and the package reports
exactly these methods, each once. Under the other policy a package has no such method. Either way
the functions that refuse to run are those of these methods, in both clients of their services. -/
theorem generate_refusals :
    (g.settings.unimplemented = .stub →
      ∀ service method, generate g files ≠ .error (.unsupportedMethod service method)) ∧
    ∀ p, generate g files = .ok p →
      p.stubbed = files.flatMap SchemaFile.unsupported ∧
      (g.settings.unimplemented = .failFast → p.stubbed = [] ∧
        ∀ f ∈ files, ∀ s ∈ f.services, ∀ m ∈ s.methods, m.streamsRequestsOnly = false) ∧
      ∀ f ∈ files, ∃ m ∈ p.modules, m.module = f.module ∧ m.source = some f.path ∧
        List.Forall₂ (ClientStands g.settings.asyncPrefix) f.servicesByMode
          (m.file.items.filter Item.isClient) := by
  constructor
  · intro hg service method he
    have hpolicy : g.settings.unimplemented = .failFast := generate_failure_ofGeneration he
    cases hg.symm.trans hpolicy
  intro p hp
  obtain ⟨s, h, rfl⟩ := generate_ok.mp hp
  have hstubbed : s.package.stubbed = files.flatMap SchemaFile.unsupported :=
    stubbed_of_drafts h.drafts
  refine ⟨hstubbed, fun hg => ?_, fun f hf => ?_⟩
  · have hnone : ∀ f ∈ files, ∀ s ∈ f.services, ∀ m ∈ s.methods,
        m.streamsRequestsOnly = false := by
      intro f hf
      obtain ⟨d, -, hd⟩ := exists_mem_right h.drafts hf
      exact streamsRequestsOnly_of_draft hg hd
    refine ⟨?_, hnone⟩
    rw [hstubbed, List.flatMap_eq_nil_iff]
    exact fun f hf => unsupported_eq_nil (hnone f hf)
  · obtain ⟨m, hm, ⟨a⟩⟩ := h.exists_assembly hf
    exact ⟨m, hm, a.module, a.source, a.clients_stand h hf⟩

theorem generate_refusals_standalone : plain.settings.unimplemented = .stub ∧
    ∃ p, generate plain standalone = .ok p ∧ p.stubbed = ["d.T.put"] ∧
      ∀ f ∈ standalone, ∃ m ∈ p.modules, m.module = f.module ∧ m.source = some f.path ∧
        List.Forall₂ (ClientStands "Async") f.servicesByMode
          (m.file.items.filter Item.isClient) := by
  obtain ⟨p, hp⟩ := exists_generate_standalone
  obtain ⟨hstubbed, -, hclients⟩ := generate_refusals.2 p hp
  exact ⟨rfl, p, hp, hstubbed.trans (by decide +kernel), hclients⟩

end Package

end SchemaBindings
