import Mathlib.Logic.Relation
import SchemaBindings.Proofs.Schema.Registration

/-!
Which messages hold which others inline, as the table of a schema records it, and the search for a
message that holds itself: it finds every chain of messages that hold each other.
-/

namespace SchemaBindings.SymbolTable

open Relation (ReflTransGen)

/-! ## What is recorded -/

/-- Records what one placed message holds. -/
def recordPlaced (t : SymbolTable) (p : PlacedMessage) : SymbolTable :=
  let named := p.message.fields.filterMap t.heldMessage?
  let held := named.foldl (fun names n => insertName n names) []
  if held.isEmpty then t else { t with contents := insertByName p.fullName held t.contents }

mutual

theorem recordContents_eq (scope : String) (m : Message) (t : SymbolTable) :
    recordContents scope m t = (m.placed scope).foldl recordPlaced t := by
  obtain ⟨name, fields, messages, enums, docs⟩ := m
  rw [recordContents, recordAllContents_eq, Message.placed, List.foldl_cons, List.foldl_map]
  rfl

theorem recordAllContents_eq (scope : String) (ms : List Message) (t : SymbolTable) :
    recordAllContents scope ms t = (placedMessages scope ms).foldl recordPlaced t := by
  match ms with
  | [] => rw [recordAllContents, placedMessages, List.foldl_nil]
  | m :: rest =>
    rw [recordAllContents, placedMessages, List.foldl_append, ← recordContents_eq scope m,
      recordAllContents_eq scope rest]

end

theorem heldMessage?_eq_some {t : SymbolTable} {f : Field} {held : String} :
    t.heldMessage? f = some held ↔ f.type = .named held ∧ f.cardinality ≠ .repeated ∧
      ∃ s, t.get? held = some s ∧ s.kind = .message := by
  unfold heldMessage?
  cases f.type with
  | scalar kind => simp
  | named fullName =>
    have htest : (f.cardinality != .repeated && (t.get? fullName).any (·.kind == .message)) = true ↔
        f.cardinality ≠ .repeated ∧ ∃ s, t.get? fullName = some s ∧ s.kind = .message := by
      simp [Option.any_eq_true]
    dsimp only
    rw [ite_eq_iff, htest]
    grind

/-- The message holds another one inline. -/
def HeldBy (t : SymbolTable) (p : PlacedMessage) (held : String) : Prop :=
  ∃ f ∈ p.message.fields, t.heldMessage? f = some held

/-- The message is recorded to hold another one inline. -/
def Holds (t : SymbolTable) (owner held : String) : Prop :=
  held ∈ (t.contents.lookup owner).getD []

theorem recordPlaced_symbols (t : SymbolTable) (p : PlacedMessage) :
    (t.recordPlaced p).symbols = t.symbols := by
  grind [recordPlaced]

theorem recordPlaced_locals (t : SymbolTable) (p : PlacedMessage) :
    (t.recordPlaced p).locals = t.locals := by
  grind [recordPlaced]

theorem heldBy_congr {t t' : SymbolTable} (h : t.symbols = t'.symbols) {p : PlacedMessage}
    {held : String} : t.HeldBy p held ↔ t'.HeldBy p held := by
  have hsame (f : Field) : t.heldMessage? f = t'.heldMessage? f := by
    unfold heldMessage? get?
    rw [h]
  simp only [HeldBy, hsame]

private theorem mem_foldl_insertName {n : String} (names sorted : List String) :
    n ∈ names.foldl (fun names n => insertName n names) sorted ↔ n ∈ names ∨ n ∈ sorted := by
  induction names generalizing sorted with
  | nil => simp
  | cons name rest ih =>
    rw [List.foldl_cons, ih, mem_insertName, List.mem_cons]
    tauto

theorem holds_recordPlaced {t : SymbolTable} {p : PlacedMessage}
    (h : ∀ y, ¬ t.Holds p.fullName y) {x y : String} :
    (t.recordPlaced p).Holds x y ↔ x = p.fullName ∧ t.HeldBy p y ∨ t.Holds x y := by
  have hheld : t.HeldBy p y ↔ y ∈ (p.message.fields.filterMap t.heldMessage?).foldl
      (fun names n => insertName n names) [] := by
    rw [mem_foldl_insertName]
    simp [HeldBy]
  rw [hheld]
  unfold recordPlaced
  dsimp only
  split
  · next he => simp [List.isEmpty_iff.mp he]
  · simp only [Holds, lookup_insertByName, beq_iff_eq]
    by_cases hx : x = p.fullName
    · subst hx
      simp only [if_true, Option.getD_some, true_and]
      exact (or_iff_left (h y)).symm
    · simp [hx]

private theorem foldl_recordPlaced_symbols (ps : List PlacedMessage) (t : SymbolTable) :
    (ps.foldl recordPlaced t).symbols = t.symbols := by
  induction ps generalizing t with
  | nil => rfl
  | cons p rest ih => rw [List.foldl_cons, ih, recordPlaced_symbols]

private theorem foldl_recordPlaced_locals (ps : List PlacedMessage) (t : SymbolTable) :
    (ps.foldl recordPlaced t).locals = t.locals := by
  induction ps generalizing t with
  | nil => rfl
  | cons p rest ih => rw [List.foldl_cons, ih, recordPlaced_locals]

theorem holds_foldl_recordPlaced {ps : List PlacedMessage} {t : SymbolTable}
    (hn : (ps.map (·.fullName)).Nodup) (ht : ∀ p ∈ ps, ∀ y, ¬ t.Holds p.fullName y)
    {x y : String} : (ps.foldl recordPlaced t).Holds x y ↔
      (∃ p ∈ ps, p.fullName = x ∧ t.HeldBy p y) ∨ t.Holds x y := by
  induction ps generalizing t with
  | nil => simp
  | cons p rest ih =>
    obtain ⟨hnew, hrest⟩ := List.nodup_cons.mp hn
    have hp := ht p List.mem_cons_self
    have hother (q : PlacedMessage) (hq : q ∈ rest) (y : String) :
        ¬ (t.recordPlaced p).Holds q.fullName y := by
      rw [holds_recordPlaced hp]
      rintro (⟨he, -⟩ | hold)
      · exact hnew (List.mem_map.mpr ⟨q, hq, he⟩)
      · exact ht q (List.mem_cons_of_mem p hq) y hold
    rw [List.foldl_cons, ih hrest hother, holds_recordPlaced hp]
    simp only [heldBy_congr (recordPlaced_symbols t p), List.exists_mem_cons_iff]
    grind

/-! ## The table of a schema -/

private theorem placed_names_sublist (module : ModuleId) (parent : List String)
    (ps : List PlacedMessage) : (ps.map (·.fullName)).Sublist
      ((ps.flatMap (·.definitions module parent)).map (·.1)) := by
  induction ps with
  | nil => exact .refl _
  | cons p rest ih =>
    rw [List.flatMap_cons, List.map_append, List.map_cons, PlacedMessage.definitions,
      List.map_cons, List.cons_append]
    exact (ih.trans (List.sublist_append_right ..)).cons_cons _

/-- All messages of a schema with the full names of their scopes. -/
def placed (files : List SchemaFile) : List PlacedMessage :=
  files.flatMap (·.placedMessages)

theorem placed_names_nodup {files : List SchemaFile} (h : DistinctNames files) :
    ((placed files).map (·.fullName)).Nodup := by
  refine List.Nodup.sublist ?_ h
  induction files with
  | nil => exact .refl _
  | cons f rest ih =>
    have hrest : DistinctNames rest := by
      refine List.Nodup.sublist ?_ h
      rw [definitions, definitions, List.flatMap_cons, List.map_append]
      exact List.sublist_append_right ..
    rw [placed, definitions, List.flatMap_cons, List.flatMap_cons, List.map_append,
      List.map_append]
    refine List.Sublist.append ?_ (ih hrest)
    rw [SchemaFile.definitions, List.map_append]
    exact (placed_names_sublist f.module [] f.placedMessages).trans (List.sublist_append_right ..)

variable {files : List SchemaFile} {asyncPrefix : String} {t : SymbolTable}

/-- The table of a schema describes its files and records what their messages hold. -/
theorem build_ok (h : build files asyncPrefix = .ok t) :
    Describes asyncPrefix t files ∧ (DistinctNames files → ∀ x y, t.Holds x y ↔
      ∃ p ∈ placed files, p.fullName = x ∧ t.HeldBy p y) := by
  rw [build] at h
  obtain ⟨registered, hr, hlast⟩ := bind_ok.mp h
  have hempty : Describes asyncPrefix {} [] := ⟨rfl, by simp [isLocal], List.nodup_nil, by simp⟩
  obtain ⟨hd, hcontents⟩ := registerFiles_ok rfl rfl hempty hr
  have ht : t = (placed files).foldl recordPlaced registered := by
    simp only [pure, Except.pure, Except.ok.injEq] at hlast
    rw [← hlast, placed, List.foldl_flatMap]
    simp only [recordAllContents_eq, SchemaFile.placedMessages]
  have hsymbols : t.symbols = registered.symbols := ht ▸ foldl_recordPlaced_symbols ..
  have hlocals : t.locals = registered.locals := ht ▸ foldl_recordPlaced_locals ..
  refine ⟨⟨hsymbols.trans hd.symbols, fun m name => ?_, hd.modules, hd.claimed⟩,
    fun hn x y => ?_⟩
  · rw [isLocal, hlocals]
    exact hd.isLocal m name
  · have hnone (x y : String) : ¬ registered.Holds x y := by
      simp [Holds, hcontents]
    rw [ht, holds_foldl_recordPlaced (placed_names_nodup hn) fun p _ => hnone p.fullName,
      or_iff_left (hnone x y)]
    simp only [heldBy_congr (foldl_recordPlaced_symbols (placed files) registered)]

/-! ## The search -/

/-- How much is recorded of the messages that were not seen. -/
def unseen (contents : List (String × List String)) (seen : List String) : Nat :=
  ((contents.filter (!seen.contains ·.1)).flatMap (·.2)).length

private theorem unseen_entry (entry : String × List String) (rest : List (String × List String))
    (seen : List String) : unseen (entry :: rest) seen =
      (if entry.1 ∈ seen then 0 else entry.2.length) + unseen rest seen := by
  by_cases h : entry.1 ∈ seen <;> simp [unseen, h]

private theorem unseen_cons_le (contents : List (String × List String)) (seen : List String)
    (current : String) : unseen contents (current :: seen) ≤ unseen contents seen := by
  induction contents with
  | nil => exact Nat.le_refl _
  | cons entry rest ih => grind [unseen_entry]

/-- What a message is recorded to hold counts no more once it is seen. -/
theorem unseen_cons (contents : List (String × List String)) {seen : List String}
    {current : String} (h : current ∉ seen) :
    unseen contents (current :: seen) + ((contents.lookup current).getD []).length ≤
      unseen contents seen := by
  induction contents with
  | nil => exact Nat.le_refl _
  | cons entry rest ih =>
    rw [unseen_entry, unseen_entry, List.lookup_cons]
    by_cases hc : current = entry.1
    · have hrest := unseen_cons_le rest seen current
      simp only [← hc, beq_self_eq_true, List.mem_cons_self, h, if_true, if_false,
        Option.getD_some]
      omega
    · grind

/-- A search that has not met `owner`: whatever leads there is queued or leads on to the queue. -/
structure Searches (t : SymbolTable) (owner : String) (seen queue : List String) : Prop where
  notMet : owner ∉ seen
  closed : ∀ x ∈ seen, ∀ y, t.Holds x y → y ∈ seen ∨ y ∈ queue

theorem Searches.push {owner current : String} {seen queue : List String}
    (h : Searches t owner seen (current :: queue)) (hc : current ≠ owner) :
    Searches t owner (current :: seen) (queue ++ (t.contents.lookup current).getD []) where
  notMet := List.not_mem_cons_of_ne_of_not_mem hc.symm h.notMet
  closed := by
    rintro x (_ | ⟨_, hx⟩) y hy
    · exact .inr (List.mem_append_right _ hy)
    · rcases h.closed x hx y hy with hy | _ | ⟨_, hy⟩
      · exact .inl (List.mem_cons_of_mem _ hy)
      · exact .inl List.mem_cons_self
      · exact .inr (List.mem_append_left _ hy)

theorem Searches.skip {owner current : String} {seen queue : List String}
    (h : Searches t owner seen (current :: queue)) (hc : current ∈ seen) :
    Searches t owner seen queue where
  notMet := h.notMet
  closed := by
    intro x hx y hy
    rcases h.closed x hx y hy with hy | _ | ⟨_, hy⟩
    · exact .inl hy
    · exact .inl hc
    · exact .inr hy

theorem Searches.leads {owner x : String} {seen queue : List String}
    (h : Searches t owner seen queue) (hx : x ∈ seen ∨ x ∈ queue)
    (hlead : ReflTransGen t.Holds x owner) : ∃ q ∈ queue, ReflTransGen t.Holds q owner := by
  induction hlead using ReflTransGen.head_induction_on with
  | refl => exact ⟨owner, hx.resolve_left h.notMet, .refl⟩
  | head hxy hlead ih =>
    rcases hx with hx | hx
    · exact ih (h.closed _ hx _ hxy)
    · exact ⟨_, hx, .head hxy hlead⟩

/-- Skipping what was seen keeps whether `owner` is led to. -/
theorem Searches.skip_leads {owner current : String} {seen queue : List String}
    (h : Searches t owner seen (current :: queue)) (hc : current ∈ seen) :
    (∃ q ∈ queue, ReflTransGen t.Holds q owner) ↔
      ∃ q ∈ current :: queue, ReflTransGen t.Holds q owner := by
  constructor
  · exact fun ⟨q, hq, hlead⟩ => ⟨q, List.mem_cons_of_mem _ hq, hlead⟩
  · rintro ⟨q, hq, hlead⟩
    refine (h.skip hc).leads ?_ hlead
    rcases List.mem_cons.mp hq with rfl | hq
    · exact .inl hc
    · exact .inr hq

/-- Queueing what another message holds keeps whether `owner` is led to. -/
theorem Searches.push_leads {owner current : String} {seen queue : List String}
    (h : Searches t owner seen (current :: queue)) (hc : current ≠ owner) :
    (∃ q ∈ queue ++ (t.contents.lookup current).getD [], ReflTransGen t.Holds q owner) ↔
      ∃ q ∈ current :: queue, ReflTransGen t.Holds q owner := by
  constructor
  · rintro ⟨q, hq, hlead⟩
    rcases List.mem_append.mp hq with hq | hq
    · exact ⟨q, List.mem_cons_of_mem _ hq, hlead⟩
    · exact ⟨current, List.mem_cons_self, .head hq hlead⟩
  · rintro ⟨q, hq, hlead⟩
    refine (h.push hc).leads ?_ hlead
    rcases List.mem_cons.mp hq with rfl | hq
    · exact .inl List.mem_cons_self
    · exact .inr (List.mem_append_left _ hq)

/-- How a search for `owner` ends from what was seen and what is queued: it goes on until it meets
`owner` or nothing is queued any more, whatever the number of its turns comes to. -/
inductive SearchEnds (t : SymbolTable) (owner : String) :
    List String → List String → Bool → Prop
  | missed {seen : List String} : t.SearchEnds owner seen [] false
  | met {seen queue : List String} : t.SearchEnds owner seen (owner :: queue) true
  | skip {current : String} {seen queue : List String} {met : Bool} (hc : current ≠ owner)
    (hseen : current ∈ seen) (hnext : t.SearchEnds owner seen queue met) :
    t.SearchEnds owner seen (current :: queue) met
  | push {current : String} {seen queue : List String} {met : Bool} (hc : current ≠ owner)
    (hnew : current ∉ seen)
    (hnext : t.SearchEnds owner (current :: seen)
      (queue ++ (t.contents.lookup current).getD []) met) :
    t.SearchEnds owner seen (current :: queue) met

/-- With enough fuel a search is carried on to its end. -/
theorem searchEnds_meets {owner : String} {fuel : Nat} {seen queue : List String}
    (hfuel : queue.length + unseen t.contents seen ≤ fuel) :
    t.SearchEnds owner seen queue (t.meets owner fuel seen queue) := by
  induction fuel generalizing seen queue with
  | zero =>
    obtain rfl : queue = [] := List.eq_nil_of_length_eq_zero (by omega)
    rw [meets]
    exact .missed
  | succ fuel ih =>
    match queue with
    | [] =>
      rw [meets]
      exact .missed
    | current :: queue =>
      rw [List.length_cons] at hfuel
      rw [meets]
      by_cases hc : current = owner
      · rw [if_pos (beq_iff_eq.mpr hc), hc]
        exact .met
      rw [if_neg (mt beq_iff_eq.mp hc)]
      by_cases hseen : current ∈ seen
      · rw [if_pos (List.contains_iff_mem.mpr hseen)]
        exact .skip hc hseen (ih (by omega))
      · rw [if_neg (mt List.contains_iff_mem.mp hseen)]
        have hless := unseen_cons t.contents hseen
        exact .push hc hseen (ih (by rw [List.length_append]; omega))

/-- A search meets `owner` exactly if something that is queued leads there. -/
theorem SearchEnds.met_iff {owner : String} {seen queue : List String} {met : Bool}
    (h : t.SearchEnds owner seen queue met) (hs : Searches t owner seen queue) :
    met = true ↔ ∃ q ∈ queue, ReflTransGen t.Holds q owner := by
  induction h with
  | missed => simp
  | met => exact iff_of_true rfl ⟨owner, List.mem_cons_self, .refl⟩
  | skip hc hseen hnext ih => exact (ih (hs.skip hseen)).trans (hs.skip_leads hseen)
  | push hc hnew hnext ih => exact (ih (hs.push hc)).trans (hs.push_leads hc)

private theorem searches_start (t : SymbolTable) (owner target : String) :
    Searches t owner [] [target] :=
  ⟨List.not_mem_nil, nofun⟩

/-- The search that decides recursion ends without a bound as well, with its answer and no other. -/
theorem searchEnds_iff (t : SymbolTable) (owner target : String) {met : Bool} :
    t.SearchEnds owner [] [target] met ↔ met = t.isRecursive owner target := by
  have hends : t.SearchEnds owner [] [target] (t.isRecursive owner target) := by
    refine searchEnds_meets ?_
    simp only [unseen, List.contains_nil, Bool.not_false, List.filter_true, List.length_singleton]
    omega
  have hstart := searches_start t owner target
  constructor
  · intro h
    rw [Bool.eq_iff_iff, h.met_iff hstart, hends.met_iff hstart]
  · rintro rfl
    exact hends

/-- A message is recursive below its owner exactly if a chain of messages that hold each other leads
from it to the owner. -/
theorem isRecursive_iff {owner target : String} :
    t.isRecursive owner target = true ↔ ReflTransGen t.Holds target owner := by
  have hends := (t.searchEnds_iff owner target).mpr rfl
  rw [hends.met_iff (searches_start t owner target)]
  simp

end SchemaBindings.SymbolTable
