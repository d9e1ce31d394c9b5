import SchemaBindings.Proofs.Json.RoundTrip
import SchemaBindings.Proofs.Outcome
import SchemaBindings.Proofs.Schema.Definitions
import SchemaBindings.Schema.Json

/-!
A schema file is read back from its JSON text as long as the text is not nested too deep for the
reader, which allows for messages inside sixty others and refuses any inside more than sixty-one.
-/

namespace SchemaBindings

open Json (Value)

/-! ## The levels of a value -/

namespace Json

mutual

/-- How many arrays and objects lie around the deepest place of the value. -/
def Value.levels : Value → Nat
  | .array elements => elementLevels elements + 1
  | .object members => memberLevels members + 1
  | _ => 0

def elementLevels : List Value → Nat
  | [] => 0
  | v :: vs => max v.levels (elementLevels vs)

def memberLevels : List (Option String × Value) → Nat
  | [] => 0
  | (_, v) :: members => max v.levels (memberLevels members)

end

theorem levels_array_le {vs : List Value} {n : Nat} :
    (Value.array vs).levels ≤ n + 1 ↔ ∀ v ∈ vs, v.levels ≤ n := by
  rw [Value.levels, Nat.add_le_add_iff_right]
  induction vs with
  | nil => simp [elementLevels]
  | cons v vs ih => rw [elementLevels, Nat.max_le, ih, List.forall_mem_cons]

theorem levels_record_le {members : List (String × Value)} {n : Nat} :
    (Value.record members).levels ≤ n + 1 ↔ ∀ m ∈ members, m.2.levels ≤ n := by
  rw [Value.record, Value.levels, Nat.add_le_add_iff_right]
  induction members with
  | nil => simp [memberLevels]
  | cons m members ih => rw [List.map_cons, memberLevels, Nat.max_le, ih, List.forall_mem_cons]

theorem lt_levels_record {members : List (String × Value)} (key : String) {v : Value}
    (hm : (key, v) ∈ members) : v.levels < (Value.record members).levels :=
  Nat.lt_succ_of_le (levels_record_le.mp (Nat.le_refl _) (key, v) hm)

theorem lt_levels_array {vs : List Value} {v : Value} (hv : v ∈ vs) :
    v.levels < (Value.array vs).levels :=
  Nat.lt_succ_of_le (levels_array_le.mp (Nat.le_refl _) v hv)

theorem levels_array_ne_zero (vs : List Value) : (Value.array vs).levels ≠ 0 := by
  rw [Value.levels]
  exact Nat.succ_ne_zero _

@[simp] theorem levels_text (s : String) : (Value.text s).levels = 0 := rfl

@[simp] theorem levels_integer (n : Int) : (Value.integer n).levels = 0 := rfl

@[simp] theorem levels_bool (b : Bool) : (Value.bool b).levels = 0 := rfl

@[simp] theorem isWhole_text (s : String) : (Value.text s).IsWhole := rfl

@[simp] theorem isWhole_integer (n : Int) : (Value.integer n).IsWhole := trivial

@[simp] theorem isWhole_bool (b : Bool) : (Value.bool b).IsWhole := trivial

end Json

/-! ## The numbers of a schema -/

/-- A number of 32 bits with its sign. -/
def IsInt32 (n : Int) : Prop :=
  -2147483648 ≤ n ∧ n ≤ 2147483647

instance (n : Int) : Decidable (IsInt32 n) :=
  inferInstanceAs (Decidable (_ ∧ _))

def Enum.numbers (e : Enum) : List Int :=
  e.values.map (·.number)

/-- The numbers of a message, but for those of the messages nested in it. -/
def Message.numbers (m : Message) : List Int :=
  m.fields.map (·.number) ++ m.enums.flatMap (·.numbers)

def SchemaFile.numbers (f : SchemaFile) : List Int :=
  f.enums.flatMap (·.numbers) ++ f.placedMessages.flatMap (·.message.numbers)

namespace Schema

/-! ## The parts of an entity -/

/-- A key that occurs once has one member. -/
theorem filter_key_eq {members : List (String × Value)} (hkeys : (members.map (·.1)).Nodup)
    {m : String × Value} (hm : m ∈ members) : members.filter (·.1 == m.1) = [m] := by
  induction members with
  | nil => cases hm
  | cons first rest ih =>
    rw [List.map_cons, List.nodup_cons] at hkeys
    rcases List.mem_cons.mp hm with rfl | hm
    · have hrest : rest.filter (·.1 == m.1) = [] := by
        rw [List.filter_eq_nil_iff]
        intro other hother heq
        exact hkeys.1 (List.mem_map.mpr ⟨other, hother, beq_iff_eq.mp heq⟩)
      rw [List.filter_cons_of_pos (by exact beq_self_eq_true m.1), hrest]
    · have hfirst : ¬ (first.1 == m.1) = true := by
        intro heq
        exact hkeys.1 (List.mem_map.mpr ⟨m, hm, (beq_iff_eq.mp heq).symm⟩)
      rw [List.filter_cons_of_neg (by exact hfirst), ih hkeys.2 hm]

theorem knownMembers?_record {members : List (String × Value)}
    (hkeys : (members.map (·.1)).Nodup) :
    knownMembers? (members.map (·.1)) (members.map fun (key, v) => (some key, v)) =
      some (members.map (some ·.2)) := by
  have hgiven : ((members.map fun (key, v) => (some key, v)).any (·.1.isNone)) = false := by
    simp
  rw [knownMembers?, hgiven, if_neg (by decide), mapM_some, List.forall₂_map_left_iff,
    List.forall₂_map_right_iff, List.forall₂_same]
  intro m hm
  have hone : (members.map fun (key, v) => (some key, v)).filter (·.1 == some m.1) =
      [(some m.1, m.2)] := by
    have hfilter := congrArg (List.map fun (key, v) => (some key, v)) (filter_key_eq hkeys hm)
    rw [List.filter_map]
    exact hfilter
  rw [hone]

theorem parts?_record {members : List (String × Value)} (hkeys : (members.map (·.1)).Nodup)
    (depth : Depth) : parts? (members.map (·.1)) (depth + 1) (.record members) =
      some (members.map (some ·.2), depth) := by
  rw [Value.record, parts?, knownMembers?_record hkeys]
  rfl

variable {α : Type}

/-- The entity is read back from its written form exactly if there are levels enough. -/
def ReadsBack (read : Depth → Value → Option α) (v : Value) (a : α) : Prop :=
  ∀ depth, read depth v = if v.levels ≤ depth then some a else none

/-- An entity is read back if it is from its parts, which lie one level deeper. -/
theorem readsBack_record {read : Depth → Value → Option α} {a : α}
    {members : List (String × Value)} (hkeys : (members.map (·.1)).Nodup)
    (hzero : read 0 (.record members) = none)
    (hsucc : ∀ depth, parts? (members.map (·.1)) (depth + 1) (.record members) =
        some (members.map (some ·.2), depth) →
      read (depth + 1) (.record members) =
        if ∀ m ∈ members, m.2.levels ≤ depth then some a else none) :
    ReadsBack read (.record members) a := by
  intro depth
  cases depth with
  | zero =>
    rw [hzero, if_neg]
    rw [Value.record, Value.levels]
    exact Nat.not_succ_le_zero _
  | succ depth =>
    rw [hsucc depth (parts?_record hkeys depth)]
    exact if_congr Json.levels_record_le.symm rfl rfl

theorem list?_map {element? : Depth → Value → Option α} {json : α → Value} {as : List α}
    (h : ∀ a ∈ as, ReadsBack element? (json a) a) (depth : Depth) :
    list? depth element? (.array (as.map json)) =
      if (Value.array (as.map json)).levels ≤ depth then some as else none := by
  cases depth with
  | zero => rfl
  | succ depth =>
    simp only [list?, Json.levels_array_le, List.forall_mem_map]
    split_ifs with hlevels
    · rw [mapM_some, List.forall₂_map_left_iff, List.forall₂_same]
      intro a ha
      rw [h a ha depth, if_pos (hlevels a ha)]
    · rw [Option.eq_none_iff_forall_ne_some]
      intro bs hbs
      refine hlevels fun a ha => ?_
      obtain ⟨b, -, hb⟩ := exists_mem_right (mapM_some.mp hbs) (List.mem_map_of_mem ha)
      by_contra hdeep
      rw [h a ha depth, if_neg hdeep] at hb
      cases hb

/-! ## Values without parts -/

@[simp] theorem text?_text (s : String) : text? (.text s) = some s := rfl

@[simp] theorem choice?_text (depth : Depth) (s : String) : choice? depth (.text s) = some s := rfl

@[simp] theorem bool?_bool (b : Bool) : bool? (.bool b) = some b := rfl

@[simp] theorem optionalText?_docsJson (docs : Option String) :
    optionalText? (docsJson docs) = some docs := by
  cases docs <;> rfl

@[simp] theorem cardinality?_cardinalityText (c : Cardinality) :
    cardinality? (cardinalityText c) = some c := by
  cases c <;> rfl

@[simp] theorem levels_docsJson (docs : Option String) : (docsJson docs).levels = 0 := by
  cases docs <;> rfl

@[simp] theorem isWhole_docsJson (docs : Option String) : (docsJson docs).IsWhole := by
  cases docs
  · trivial
  · rfl

theorem int32?_integer {n : Int} (h : IsInt32 n) : int32? (.integer n) = some n :=
  if_pos h

/-! ## Entities -/

theorem readsBack_fieldType (t : FieldType) : ReadsBack fieldType? (fieldTypeJson t) t := by
  cases t <;>
  · refine readsBack_record (by simp) rfl fun depth hparts => ?_
    simp only [List.map_cons, List.map_nil] at hparts
    simp [fieldType?, hparts]

theorem readsBack_field {f : Field} (hf : IsInt32 f.number) :
    ReadsBack field? (fieldJson f) f := by
  refine readsBack_record (by simp) rfl fun depth hparts => ?_
  simp only [List.map_cons, List.map_nil] at hparts
  have htype := readsBack_fieldType f.type depth
  by_cases h : (fieldTypeJson f.type).levels ≤ depth <;>
    simp [field?, hparts, htype, int32?_integer hf, h]

theorem readsBack_enumValue {v : EnumValue} (hv : IsInt32 v.number) :
    ReadsBack enumValue? (enumValueJson v) v := by
  refine readsBack_record (by simp) rfl fun depth hparts => ?_
  simp only [List.map_cons, List.map_nil] at hparts
  simp [enumValue?, hparts, int32?_integer hv]

theorem readsBack_enum {e : Enum} (he : ∀ n ∈ e.numbers, IsInt32 n) :
    ReadsBack enum? (enumJson e) e := by
  refine readsBack_record (by simp) rfl fun depth hparts => ?_
  simp only [List.map_cons, List.map_nil] at hparts
  have hvalues : ∀ v ∈ e.values, ReadsBack enumValue? (enumValueJson v) v := by
    intro v hv
    exact readsBack_enumValue (he _ (List.mem_map_of_mem hv))
  by_cases h : (Value.array (e.values.map enumValueJson)).levels ≤ depth <;>
    simp [enum?, hparts, list?_map hvalues, h]

theorem readsBack_method (m : Method) : ReadsBack method? (methodJson m) m := by
  refine readsBack_record (by simp) rfl fun depth hparts => ?_
  simp only [List.map_cons, List.map_nil] at hparts
  simp [method?, hparts]

theorem readsBack_service (s : Service) : ReadsBack service? (serviceJson s) s := by
  refine readsBack_record (by simp) rfl fun depth hparts => ?_
  simp only [List.map_cons, List.map_nil] at hparts
  have hmethods : ∀ m ∈ s.methods, ReadsBack method? (methodJson m) m := by
    intro m _
    exact readsBack_method m
  by_cases h : (Value.array (s.methods.map methodJson)).levels ≤ depth <;>
    simp [service?, hparts, list?_map hmethods, h]

theorem readsBack_fields {fields : List Field} (h : ∀ n ∈ fields.map (·.number), IsInt32 n) :
    ∀ f ∈ fields, ReadsBack field? (fieldJson f) f := by
  intro f hf
  exact readsBack_field (h _ (List.mem_map_of_mem hf))

theorem readsBack_enums {enums : List Enum} (h : ∀ n ∈ enums.flatMap (·.numbers), IsInt32 n) :
    ∀ e ∈ enums, ReadsBack enum? (enumJson e) e := by
  intro e he
  refine readsBack_enum fun n hn => h n ?_
  exact List.mem_flatMap.mpr ⟨e, he, hn⟩

/-- A message is read back if the messages nested in it are, which lie two levels deeper. -/
theorem readsBack_message_of_nested {m : Message} (hm : ∀ n ∈ m.numbers, IsInt32 n)
    (hnested : ∀ nested ∈ m.messages, ReadsBack message? (messageJson nested) nested) :
    ReadsBack message? (messageJson m) m := by
  obtain ⟨name, fields, messages, enums, docs⟩ := m
  obtain ⟨hnumbers, henums⟩ := List.forall_mem_append.mp hm
  have hfields := readsBack_fields hnumbers
  have henums := readsBack_enums henums
  rw [messageJson]
  refine readsBack_record (by simp) rfl fun depth hparts => ?_
  simp only [List.map_cons, List.map_nil] at hparts
  cases depth with
  | zero =>
    rw [if_neg]
    · rfl
    · simp [Json.levels_array_ne_zero]
  | succ depth =>
    have hmessages : (messages.map messageJson).mapM (message? depth) =
        if (Value.array (messages.map messageJson)).levels ≤ depth + 1 then some messages
          else none := list?_map hnested (depth + 1)
    by_cases h : (Value.array (fields.map fieldJson)).levels ≤ depth + 1 <;>
      by_cases h' : (Value.array (messages.map messageJson)).levels ≤ depth + 1 <;>
      by_cases h'' : (Value.array (enums.map enumJson)).levels ≤ depth + 1 <;>
      simp [message?, hparts, list?_map hfields, hmessages, list?_map henums, h, h', h'']

mutual

theorem readsBack_message (m : Message) (scope : String)
    (hm : ∀ p ∈ m.placed scope, ∀ n ∈ p.message.numbers, IsInt32 n) :
    ReadsBack message? (messageJson m) m := by
  obtain ⟨name, fields, messages, enums, docs⟩ := m
  refine readsBack_message_of_nested (hm _ (mem_placed.mpr (.inl rfl))) ?_
  refine readsBack_messages messages (qualify scope name) fun q hq => ?_
  exact hm (q.inside (Naming.moduleName name)) (mem_placed.mpr (.inr ⟨q, hq, rfl⟩))

theorem readsBack_messages (ms : List Message) (scope : String)
    (hms : ∀ p ∈ placedMessages scope ms, ∀ n ∈ p.message.numbers, IsInt32 n) :
    ∀ m ∈ ms, ReadsBack message? (messageJson m) m := by
  match ms with
  | [] =>
    intro m hm
    cases hm
  | first :: rest =>
    rw [placedMessages, List.forall_mem_append] at hms
    rw [List.forall_mem_cons]
    exact ⟨readsBack_message first scope hms.1, readsBack_messages rest scope hms.2⟩

end

theorem readsBack_file {f : SchemaFile} (hf : ∀ n ∈ f.numbers, IsInt32 n) :
    ReadsBack file? (fileJson f) f := by
  obtain ⟨henums, hmessages⟩ := List.forall_mem_append.mp hf
  have henums := readsBack_enums henums
  have hmessages := readsBack_messages f.messages f.package fun p hp n hn =>
    hmessages n (List.mem_flatMap.mpr ⟨p, hp, hn⟩)
  have hservices : ∀ s ∈ f.services, ReadsBack service? (serviceJson s) s := by
    intro s _
    exact readsBack_service s
  refine readsBack_record (by simp) rfl fun depth hparts => ?_
  simp only [List.map_cons, List.map_nil] at hparts
  by_cases h : (Value.array (f.messages.map messageJson)).levels ≤ depth <;>
    by_cases h' : (Value.array (f.enums.map enumJson)).levels ≤ depth <;>
    by_cases h'' : (Value.array (f.services.map serviceJson)).levels ≤ depth <;>
    simp [file?, hparts, list?_map hmessages, list?_map henums, list?_map hservices, h, h', h'']

/-! ## What is written -/

theorem isWhole_array_map {json : α → Value} (h : ∀ a, (json a).IsWhole) (as : List α) :
    (Value.array (as.map json)).IsWhole := by
  rw [Json.isWhole_array, List.forall_mem_map]
  exact fun a _ => h a

theorem isWhole_fieldTypeJson (t : FieldType) : (fieldTypeJson t).IsWhole := by
  cases t <;> exact Json.isWhole_record.mpr (by simp)

theorem isWhole_fieldJson (f : Field) : (fieldJson f).IsWhole :=
  Json.isWhole_record.mpr (by simp [isWhole_fieldTypeJson])

theorem isWhole_enumValueJson (v : EnumValue) : (enumValueJson v).IsWhole :=
  Json.isWhole_record.mpr (by simp)

theorem isWhole_enumJson (e : Enum) : (enumJson e).IsWhole :=
  Json.isWhole_record.mpr (by simp [isWhole_array_map isWhole_enumValueJson])

theorem isWhole_methodJson (m : Method) : (methodJson m).IsWhole :=
  Json.isWhole_record.mpr (by simp)

theorem isWhole_serviceJson (s : Service) : (serviceJson s).IsWhole :=
  Json.isWhole_record.mpr (by simp [isWhole_array_map isWhole_methodJson])

mutual

theorem isWhole_messageJson (m : Message) : (messageJson m).IsWhole := by
  obtain ⟨name, fields, messages, enums, docs⟩ := m
  rw [messageJson, Json.isWhole_record]
  simp [isWhole_array_map isWhole_fieldJson, isWhole_array_map isWhole_enumJson,
    Json.isWhole_array.mpr (isWhole_messagesJson messages)]

theorem isWhole_messagesJson (ms : List Message) : ∀ v ∈ ms.map messageJson, v.IsWhole := by
  match ms with
  | [] =>
    intro v hv
    cases hv
  | m :: rest =>
    rw [List.map_cons, List.forall_mem_cons]
    exact ⟨isWhole_messageJson m, isWhole_messagesJson rest⟩

end

theorem isWhole_fileJson (f : SchemaFile) : (fileJson f).IsWhole :=
  Json.isWhole_record.mpr (by
    simp [isWhole_array_map isWhole_messageJson, isWhole_array_map isWhole_enumJson,
      isWhole_array_map isWhole_serviceJson])

/-! ## The levels of a schema file -/

theorem levels_array_map_le {json : α → Value} {n : Nat} (h : ∀ a, (json a).levels ≤ n)
    (as : List α) : (Value.array (as.map json)).levels ≤ n + 1 := by
  rw [Json.levels_array_le, List.forall_mem_map]
  exact fun a _ => h a

theorem levels_fieldTypeJson (t : FieldType) : (fieldTypeJson t).levels ≤ 1 := by
  cases t <;> exact Json.levels_record_le.mpr (by simp)

theorem levels_fieldJson (f : Field) : (fieldJson f).levels ≤ 2 :=
  Json.levels_record_le.mpr (by simp [levels_fieldTypeJson])

theorem levels_enumJson (e : Enum) : (enumJson e).levels ≤ 3 := by
  have hvalue : ∀ v, (enumValueJson v).levels ≤ 1 := by
    intro v
    exact Json.levels_record_le.mpr (by simp)
  exact Json.levels_record_le.mpr (by simp [levels_array_map_le hvalue])

theorem levels_serviceJson (s : Service) : (serviceJson s).levels ≤ 3 := by
  have hmethod : ∀ m, (methodJson m).levels ≤ 1 := by
    intro m
    exact Json.levels_record_le.mpr (by simp)
  exact Json.levels_record_le.mpr (by simp [levels_array_map_le hmethod])

theorem lt_levels_messageJson (m : Message) :
    (Value.array (m.fields.map fieldJson)).levels < (messageJson m).levels ∧
      (Value.array (m.messages.map messageJson)).levels < (messageJson m).levels := by
  obtain ⟨name, fields, messages, enums, docs⟩ := m
  rw [messageJson]
  exact ⟨Json.lt_levels_record "fields" (by simp), Json.lt_levels_record "messages" (by simp)⟩

mutual

/-- A message inside others lies two levels deeper for each of them. -/
theorem le_levels_messageJson (m : Message) {scope : String} {p : PlacedMessage}
    (hp : p ∈ m.placed scope) : 2 * p.parents.length + 2 ≤ (messageJson m).levels := by
  obtain ⟨name, fields, messages, enums, docs⟩ := m
  have hlevels := lt_levels_messageJson ⟨name, fields, messages, enums, docs⟩
  dsimp only at hlevels
  rcases mem_placed.mp hp with rfl | ⟨q, hq, rfl⟩
  · have harray := Json.levels_array_ne_zero (fields.map fieldJson)
    rw [List.length_nil]
    omega
  · obtain ⟨nested, hnested, hle⟩ := exists_le_levels_messageJson messages hq
    have harray := Json.lt_levels_array (List.mem_map_of_mem (f := messageJson) hnested)
    rw [PlacedMessage.inside, List.length_cons]
    omega

theorem exists_le_levels_messageJson (ms : List Message) {scope : String} {p : PlacedMessage}
    (hp : p ∈ placedMessages scope ms) :
    ∃ m ∈ ms, 2 * p.parents.length + 2 ≤ (messageJson m).levels := by
  match ms with
  | [] =>
    rw [placedMessages] at hp
    cases hp
  | m :: rest =>
    rcases mem_placedMessages_cons.mp hp with hp | hp
    · exact ⟨m, List.mem_cons_self, le_levels_messageJson m hp⟩
    · obtain ⟨m', hm', hle⟩ := exists_le_levels_messageJson rest hp
      exact ⟨m', List.mem_cons_of_mem _ hm', hle⟩

end

mutual

theorem levels_messageJson_le (m : Message) (scope : String) (n : Nat)
    (h : ∀ p ∈ m.placed scope, p.parents.length ≤ n) : (messageJson m).levels ≤ 2 * n + 5 := by
  obtain ⟨name, fields, messages, enums, docs⟩ := m
  have hfields := levels_array_map_le levels_fieldJson fields
  have henums := levels_array_map_le levels_enumJson enums
  have hinside : ∀ q ∈ placedMessages (qualify scope name) messages, q.parents.length < n := by
    intro q hq
    exact h (q.inside (Naming.moduleName name)) (mem_placed.mpr (.inr ⟨q, hq, rfl⟩))
  have hmessages := levels_messagesJson_le messages (qualify scope name) n hinside
  rw [messageJson, Json.levels_record_le]
  simp only [List.forall_mem_cons, Json.levels_text, levels_docsJson]
  refine ⟨by omega, by omega, hmessages, by omega, by omega, ?_⟩
  intro member hmember
  cases hmember

theorem levels_messagesJson_le (ms : List Message) (scope : String) (n : Nat)
    (h : ∀ p ∈ placedMessages scope ms, p.parents.length < n) :
    (Value.array (ms.map messageJson)).levels ≤ 2 * n + 4 := by
  match ms with
  | [] =>
    refine Json.levels_array_le.mpr ?_
    intro v hv
    cases hv
  | m :: rest =>
    obtain ⟨hm, hrest⟩ : (∀ p ∈ m.placed scope, p.parents.length < n) ∧
        ∀ p ∈ placedMessages scope rest, p.parents.length < n := by
      rw [placedMessages, List.forall_mem_append] at h
      exact h
    obtain ⟨n, rfl⟩ : ∃ k, n = k + 1 := by
      have hpos := hm ⟨scope, [], m⟩ (mem_placed.mpr (.inl rfl))
      exact ⟨n - 1, by omega⟩
    have hfirst := levels_messageJson_le m scope n fun p hp => Nat.le_of_lt_succ (hm p hp)
    have hothers := levels_messagesJson_le rest scope (n + 1) hrest
    rw [List.map_cons, Json.levels_array_le, List.forall_mem_cons]
    rw [Json.levels_array_le] at hothers
    exact ⟨by omega, hothers⟩

end

/-- Few messages around each other leave levels enough. -/
theorem levels_fileJson_le {f : SchemaFile} {n : Nat}
    (h : ∀ p ∈ f.placedMessages, p.parents.length < n) : (fileJson f).levels ≤ 2 * n + 5 := by
  have hmessages := levels_messagesJson_le f.messages f.package n h
  have henums := levels_array_map_le levels_enumJson f.enums
  have hservices := levels_array_map_le levels_serviceJson f.services
  rw [fileJson, Json.levels_record_le]
  simp only [List.forall_mem_cons, Json.levels_text]
  refine ⟨by omega, by omega, hmessages, by omega, by omega, ?_⟩
  intro member hmember
  cases hmember

theorem le_levels_fileJson {f : SchemaFile} {p : PlacedMessage} (hp : p ∈ f.placedMessages) :
    2 * p.parents.length + 4 ≤ (fileJson f).levels := by
  obtain ⟨m, hm, hle⟩ := exists_le_levels_messageJson f.messages hp
  have harray := Json.lt_levels_array (List.mem_map_of_mem (f := messageJson) hm)
  have hfile : (Value.array (f.messages.map messageJson)).levels < (fileJson f).levels :=
    Json.lt_levels_record "messages" (by simp)
  omega

end Schema

open Schema

/-! ## The text of a schema file -/

namespace SchemaFile

variable {f : SchemaFile}

theorem ofJsonText?_toJsonText (h : ∀ n ∈ f.numbers, IsInt32 n) :
    ofJsonText? f.toJsonText = if (fileJson f).levels ≤ maxDepth then some f else none := by
  rw [ofJsonText?, toJsonText, Json.ofText?_compactText _ (isWhole_fileJson f)]
  exact readsBack_file h maxDepth

/-- Different files have different texts, also where these are too deep to be read. -/
theorem toJsonText_injective {g : SchemaFile} (hf : ∀ n ∈ f.numbers, IsInt32 n)
    (hg : ∀ n ∈ g.numbers, IsInt32 n) (h : f.toJsonText = g.toJsonText) : f = g := by
  have hvalue : fileJson f = fileJson g := by
    have hread := Json.ofText?_compactText _ (isWhole_fileJson f)
    rw [show (fileJson f).compactText = (fileJson g).compactText from h,
      Json.ofText?_compactText _ (isWhole_fileJson g)] at hread
    exact (Option.some.inj hread).symm
  have hread := readsBack_file hf (fileJson f).levels
  rw [if_pos (Nat.le_refl _), hvalue, readsBack_file hg, if_pos (Nat.le_refl _)] at hread
  exact (Option.some.inj hread).symm

/-- A file is read back from its text exactly if the text is nested no deeper than the reader goes.
It always is where every message lies inside sixty others at most, and never where one lies inside
more than sixty-one. -/
theorem roundTrip (h : ∀ n ∈ f.numbers, IsInt32 n) :
    (ofJsonText? f.toJsonText = some f ↔ (fileJson f).levels ≤ maxDepth) ∧
      (maxDepth < (fileJson f).levels → ofJsonText? f.toJsonText = none) ∧
      ((∀ p ∈ f.placedMessages, p.parents.length ≤ 60) → ofJsonText? f.toJsonText = some f) ∧
      ((∃ p ∈ f.placedMessages, 61 < p.parents.length) → ofJsonText? f.toJsonText = none) := by
  have hread := ofJsonText?_toJsonText h
  refine ⟨?_, ?_, ?_, ?_⟩
  · rw [hread]
    simp
  · intro hdeep
    rw [hread, if_neg (Nat.not_le_of_lt hdeep)]
  · intro hfew
    have hlevels : (fileJson f).levels ≤ maxDepth :=
      levels_fileJson_le (n := 61) fun p hp => Nat.lt_succ_of_le (hfew p hp)
    rw [hread, if_pos hlevels]
  · rintro ⟨p, hp, hmany⟩
    have hlevels := le_levels_fileJson hp
    have hdeep : 127 < (fileJson f).levels := by omega
    have hmax : maxDepth = 127 := rfl
    rw [hread, hmax, if_neg (Nat.not_le_of_lt hdeep)]

/-- A file with control characters, a one-of group and a nested message. -/
def quoting : SchemaFile :=
  { path := "é.proto", package := "a\"b"
    messages := [{
      name := "Outer", docs := some "tab\t, unit \u001f"
      fields := [{
        name := "x", type := .named "p.Inner", cardinality := .optional, number := -2147483648
        oneof := some "group" }]
      messages := [{
        name := "Inner"
        enums := [{ name := "E", values := [{ label := "MAX", number := 2147483647 }] }] }] }]
    services := [{
      name := "S", fullName := "p.S"
      methods := [{
        name := "M", inputType := "p.Outer", outputType := "", clientStreaming := true }] }] }

theorem roundTrip_quoting :
    (∀ n ∈ quoting.numbers, IsInt32 n) ∧ ofJsonText? quoting.toJsonText = some quoting := by
  have hnumbers : ∀ n ∈ quoting.numbers, IsInt32 n := by decide
  exact ⟨hnumbers, (roundTrip hnumbers).2.2.1 (by decide)⟩

end SchemaFile

/-! ## Files that are too deep -/

/-- A message around as many others. -/
def Message.chain : Nat → Message
  | 0 => { name := "M" }
  | n + 1 => { name := "M", messages := [chain n] }

namespace Message

theorem mem_placed_chain {n : Nat} {scope : String} {p : PlacedMessage} :
    p ∈ (chain (n + 1)).placed scope ↔ p = ⟨scope, [], chain (n + 1)⟩ ∨
      ∃ q ∈ (chain n).placed (qualify scope "M"), p = q.inside (Naming.moduleName "M") := by
  rw [mem_placed]
  refine or_congr_right (exists_congr fun q => and_congr_left fun _ => ?_)
  rw [chain, mem_placedMessages_cons, placedMessages.eq_1]
  simp

theorem numbers_of_mem_chain (n : Nat) (scope : String) :
    ∀ p ∈ (chain n).placed scope, p.message.numbers = [] := by
  induction n generalizing scope with
  | zero =>
    intro p hp
    rw [List.mem_singleton.mp hp]
    rfl
  | succ n ih =>
    intro p hp
    rcases mem_placed_chain.mp hp with rfl | ⟨q, hq, rfl⟩
    · rfl
    · exact ih (qualify scope "M") q hq

theorem exists_mem_chain (n : Nat) (scope : String) :
    ∃ p ∈ (chain n).placed scope, p.parents.length = n := by
  induction n generalizing scope with
  | zero => exact ⟨_, mem_placed.mpr (.inl rfl), rfl⟩
  | succ n ih =>
    obtain ⟨q, hq, hlength⟩ := ih (qualify scope "M")
    refine ⟨q.inside (Naming.moduleName "M"), mem_placed_chain.mpr (.inr ⟨q, hq, rfl⟩), ?_⟩
    rw [PlacedMessage.inside, List.length_cons, hlength]

end Message

namespace SchemaFile

/-- A file with one message around as many others. -/
def tower (n : Nat) : SchemaFile :=
  { path := "a.proto", package := "p", messages := [.chain n] }

theorem mem_placedMessages_tower {n : Nat} {p : PlacedMessage} :
    p ∈ (tower n).placedMessages ↔ p ∈ (Message.chain n).placed "p" := by
  rw [placedMessages, tower, mem_placedMessages_cons, SchemaBindings.placedMessages.eq_1]
  simp

theorem numbers_tower (n : Nat) : (tower n).numbers = [] := by
  have henums : (tower n).enums.flatMap (·.numbers) = [] := rfl
  rw [numbers, henums, List.nil_append, List.flatMap_eq_nil_iff]
  intro p hp
  exact Message.numbers_of_mem_chain n "p" p (mem_placedMessages_tower.mp hp)

theorem le_levels_tower (n : Nat) : 2 * n + 4 ≤ (fileJson (tower n)).levels := by
  obtain ⟨p, hp, hlength⟩ := Message.exists_mem_chain n "p"
  have hlevels := le_levels_fileJson (mem_placedMessages_tower.mpr hp)
  rwa [hlength] at hlevels

/-- The text of sixty-three messages, one inside the other, is not read back. -/
theorem not_readBack_tower :
    (∀ n ∈ (tower 62).numbers, IsInt32 n) ∧
      ofJsonText? (tower 62).toJsonText ≠ some (tower 62) := by
  have hnumbers : ∀ n ∈ (tower 62).numbers, IsInt32 n := by
    rw [numbers_tower]
    intro n hn
    cases hn
  have hdeep : ¬ (fileJson (tower 62)).levels ≤ maxDepth :=
    Nat.not_le_of_lt (le_levels_tower 62)
  refine ⟨hnumbers, ?_⟩
  rw [ofJsonText?_toJsonText hnumbers, if_neg hdeep]
  exact fun heq => nomatch heq

end SchemaFile

end SchemaBindings
