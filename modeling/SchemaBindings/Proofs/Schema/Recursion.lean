import SchemaBindings.Proofs.Schema.Containment

/-!
Recursion among the messages of a schema, said of its files alone: whether fields that hold one
value lead from a message to another one. The search through the table of the schema ends for any
two names, and it finds just that.
-/

namespace SchemaBindings

open Relation

/-- The schema defines a message of the name. -/
def DefinesMessage (files : List SchemaFile) (fullName : String) : Prop :=
  ∃ s, (fullName, s) ∈ definitions files ∧ s.kind = .message

/-- A message of the schema has a field that holds one value of another message. -/
def HoldsMessage (files : List SchemaFile) (owner held : String) : Prop :=
  DefinesMessage files held ∧ ∃ p ∈ SymbolTable.placed files, p.fullName = owner ∧
    ∃ f ∈ p.message.fields, f.type = .named held ∧ f.cardinality ≠ .repeated

variable {files : List SchemaFile} {asyncPrefix : String} {t : SymbolTable} {fullName : String}

/-- A message is defined wherever it is placed, at the top of a file or inside other messages. -/
theorem definesMessage_iff :
    DefinesMessage files fullName ↔ ∃ p ∈ SymbolTable.placed files, p.fullName = fullName := by
  constructor
  · rintro ⟨s, hs, hkind⟩
    obtain ⟨f, hf, hdefines⟩ := mem_definitions.mp hs
    cases hdefines with
    | message p hp => exact ⟨p, List.mem_flatMap.mpr ⟨f, hf, hp⟩, rfl⟩
    | enum e he => cases hkind
    | nestedEnum p hp e he => cases hkind
  · rintro ⟨p, hp, rfl⟩
    obtain ⟨f, hf, hp⟩ := List.mem_flatMap.mp hp
    exact ⟨_, mem_definitions.mpr ⟨f, hf, .message p hp⟩, rfl⟩

instance (files : List SchemaFile) (fullName : String) :
    Decidable (DefinesMessage files fullName) :=
  decidable_of_iff _ definesMessage_iff.symm

instance (files : List SchemaFile) (owner held : String) :
    Decidable (HoldsMessage files owner held) :=
  inferInstanceAs (Decidable (_ ∧ _))

namespace SymbolTable

theorem Describes.get?_message_iff (hd : t.Describes asyncPrefix files) (hn : DistinctNames files) :
    (∃ s, t.get? fullName = some s ∧ s.kind = .message) ↔ DefinesMessage files fullName := by
  simp only [hd.get?_eq_some hn, DefinesMessage]

/-- The table of a schema without ambiguous names records what its fields hold. -/
theorem holds_eq (h : build files asyncPrefix = .ok t) (hn : DistinctNames files) :
    t.Holds = HoldsMessage files := by
  obtain ⟨hd, hholds⟩ := build_ok h
  funext x y
  refine propext ((hholds hn x y).trans ?_)
  simp only [HeldBy, heldMessage?_eq_some, hd.get?_message_iff hn, HoldsMessage]
  tauto

/-- Whatever the names, the search from `target` for `owner` ends, and in one way only. It meets
`owner` exactly if that is `target`, or if a chain leads there of messages each of which has a field
that holds one value of the next. -/
theorem isRecursive_leads (h : build files asyncPrefix = .ok t) (hn : DistinctNames files)
    (owner target : String) :
    (∀ met, t.SearchEnds owner [] [target] met ↔ met = t.isRecursive owner target) ∧
      (t.isRecursive owner target = true ↔
        owner = target ∨ TransGen (HoldsMessage files) target owner) := by
  refine ⟨fun _ => t.searchEnds_iff owner target, ?_⟩
  rw [isRecursive_iff, holds_eq h hn]
  exact reflTransGen_iff_eq_or_transGen

/-- A message and one inside it that hold each other, and two of another file that lead there. The
second of these is held in a repeated field as well. -/
def rings : List SchemaFile :=
  [{ path := "a.proto", package := "p"
     messages := [
       { name := "A"
         fields := [{ name := "inner", type := .named "p.A.Inner", number := 1 }]
         messages := [
           { name := "Inner"
             fields := [{ name := "back", type := .named "p.A", number := 1 }] }] }] },
   { path := "b.proto", package := "q"
     messages := [
       { name := "B"
         fields := [
           { name := "a", type := .named "p.A", cardinality := .optional, number := 1 },
           { name := "many", type := .named "q.C", cardinality := .repeated, number := 2 }] },
       { name := "C", fields := [{ name := "b", type := .named "q.B", number := 1 }] }] }]

/-- A chain across the files leads into the ring, while no chain leads out of it, where the search
ends all the same. -/
theorem isRecursive_leads_rings : DistinctNames rings ∧ ∃ t, build rings "Async" = .ok t ∧
    t.isRecursive "p.A.Inner" "q.C" = true ∧ t.isRecursive "r.Unknown" "r.Unknown" = true ∧
    t.SearchEnds "q.C" [] ["q.B"] false ∧ ¬ TransGen (HoldsMessage rings) "q.B" "q.C" := by
  have hn : DistinctNames rings := by
    unfold DistinctNames
    decide
  obtain ⟨t, h, hmissed⟩ : ∃ t, build rings "Async" = .ok t ∧
      (!t.isRecursive "q.C" "q.B") = true := exists_of_any (by decide +kernel)
  have hnone : t.isRecursive "q.C" "q.B" = false := by
    rwa [Bool.not_eq_true'] at hmissed
  have hspec := isRecursive_leads h hn
  refine ⟨hn, t, h, ?_, ?_, ?_, ?_⟩
  · have hc : HoldsMessage rings "q.C" "q.B" := by decide
    have hb : HoldsMessage rings "q.B" "p.A" := by decide
    have ha : HoldsMessage rings "p.A" "p.A.Inner" := by decide
    exact (hspec "p.A.Inner" "q.C").2.mpr (.inr (.head hc (.head hb (.single ha))))
  · exact (hspec "r.Unknown" "r.Unknown").2.mpr (.inl rfl)
  · exact ((hspec "q.C" "q.B").1 false).mpr hnone.symm
  · intro hleads
    rw [(hspec "q.C" "q.B").2.mpr (.inr hleads)] at hnone
    cases hnone

end SymbolTable

end SchemaBindings
