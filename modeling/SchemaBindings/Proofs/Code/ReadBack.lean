import SchemaBindings.Code.Tree.Reader

/-!
What is certain of a body that is read back from tokens: where they begin with a binding of a
variable, so does the body.
-/

namespace SchemaBindings.Code

namespace Reader

variable {α β : Type} {ts rest : List Token}

/-! ## Steps of readers -/

theorem bind_eq_some {x : Reader α} {f : α → Reader β} {b : β} :
    (x >>= f) ts = some (b, rest) ↔ ∃ a ts', x ts = some (a, ts') ∧ f a ts' = some (b, rest) := by
  change (x ts).bind (fun p => f p.1 p.2) = _ ↔ _
  rw [Option.bind_eq_some_iff, Prod.exists]

/-- What was found before comes behind what is found now. -/
theorem iterate_loop_suffix {item : Reader (Option α)} {fuel : Nat} {found all : List α}
    (h : iterate.loop (fun found => do return (← item).map (· :: found)) fuel found ts =
      some (all, rest)) : found <:+ all := by
  induction fuel generalizing found ts with
  | zero => cases h
  | succ fuel ih =>
    obtain ⟨step, ts', hstep, h⟩ := bind_eq_some.mp h
    cases step with
    | none =>
      cases h
      exact List.suffix_refl _
    | some more =>
      obtain ⟨o, _, -, hmore⟩ := bind_eq_some.mp hstep
      cases o <;> cases hmore
      exact (List.suffix_cons _ _).trans (ih h)

/-- What is found first of many stands first among them. -/
theorem exists_of_many {item : Reader (Option α)} {all : List α}
    (h : many item ts = some (all, rest)) :
    ∃ o ts', item ts = some (o, ts') ∧ ∀ a, o = some a → ∃ others, all = a :: others := by
  obtain ⟨found, _, hfound, h⟩ := bind_eq_some.mp h
  cases h
  obtain ⟨_, _, hget, hfound⟩ := bind_eq_some.mp hfound
  cases hget
  obtain ⟨step, _, hstep, hfound⟩ := bind_eq_some.mp hfound
  obtain ⟨o, ts', ho, hstep⟩ := bind_eq_some.mp hstep
  refine ⟨o, ts', ho, ?_⟩
  rintro a rfl
  cases hstep
  obtain ⟨front, rfl⟩ := iterate_loop_suffix hfound
  exact ⟨front.reverse, by simp⟩

/-! ## Bindings -/

/-- The binding of a variable is read as one. Which variable it is matters only as far as the word
is no keyword, which is computed here. -/
def BindsVariable (name : String) : Prop :=
  ∀ (g : Grammar) (ts : List Token),
    statement g (.word "let" :: .word name :: .mark '=' false :: ts) =
      binding g [] (.word "let" :: .word name :: .mark '=' false :: ts) ∧
    pattern g (.word name :: .mark '=' false :: ts) =
      some (.variable false false ⟨name⟩, .mark '=' false :: ts)

theorem bindsVariable_wireRequest : BindsVariable "wire_request" :=
  fun _ _ => ⟨rfl, rfl⟩

theorem bindsVariable_wireRequests : BindsVariable "wire_requests" :=
  fun _ _ => ⟨rfl, rfl⟩

theorem BindsVariable.binding {name : String} (hn : BindsVariable name) {g g' : Grammar}
    (hg : g.pattern = pattern g') {s : Statement}
    (h : binding g [] (.word "let" :: .word name :: .mark '=' false :: ts) = some (s, rest)) :
    ∃ value otherwise, s = .binding [] (.variable false false ⟨name⟩) value otherwise := by
  obtain ⟨_, _, hword, h⟩ := bind_eq_some.mp h
  cases hword
  obtain ⟨p, _, hp, h⟩ := bind_eq_some.mp h
  rw [hg] at hp
  cases ((hn g' ts).2).symm.trans hp
  obtain ⟨isTyped, _, htyped, h⟩ := bind_eq_some.mp h
  cases htyped
  rw [if_neg Bool.false_ne_true] at h
  obtain ⟨_, _, hsame, h⟩ := bind_eq_some.mp h
  cases hsame
  obtain ⟨value, _, -, h⟩ := bind_eq_some.mp h
  have hend {otherwise : Option Expr} {ts : List Token} (h : (do
      operator ";"
      pure (Statement.binding [] (.variable false false ⟨name⟩) (value.map (·.1)) otherwise) :
        Reader Statement) ts = some (s, rest)) :
      s = .binding [] (.variable false false ⟨name⟩) (value.map (·.1)) otherwise := by
    obtain ⟨_, _, -, h⟩ := bind_eq_some.mp h
    cases h
    rfl
  cases value with
  | none =>
    obtain ⟨otherwise, _, -, h⟩ := bind_eq_some.mp h
    exact ⟨_, otherwise, hend h⟩
  | some value =>
    obtain ⟨otherwise, _, -, h⟩ := bind_eq_some.mp h
    exact ⟨_, otherwise, hend h⟩

end Reader

/-- A body that is read from a binding of a variable and more begins with that binding. -/
theorem exists_of_statements? {name : String} (hn : Reader.BindsVariable name) {ts : List Token}
    {body : List Statement}
    (h : statements? (.word "let" :: .word name :: .mark '=' false :: ts) = some body) :
    ∃ value otherwise rest,
      body = .binding [] (.variable false false ⟨name⟩) value otherwise :: rest := by
  unfold statements? Reader.all at h
  split at h
  · next hall =>
    cases h
    obtain ⟨o, _, ho, hfirst⟩ := Reader.exists_of_many hall
    obtain ⟨atEnd, _, hatEnd, ho⟩ := Reader.bind_eq_some.mp ho
    cases hatEnd
    rw [if_neg (by exact Bool.false_ne_true)] at ho
    obtain ⟨isEmpty, _, hempty, ho⟩ := Reader.bind_eq_some.mp ho
    cases hempty
    rw [if_neg Bool.false_ne_true] at ho
    obtain ⟨s, _, hs, ho⟩ := Reader.bind_eq_some.mp ho
    rw [(hn _ ts).1] at hs
    obtain ⟨value, otherwise, rfl⟩ := hn.binding rfl hs
    obtain ⟨atEnd, _, -, ho⟩ := Reader.bind_eq_some.mp ho
    cases ho
    obtain ⟨others, rfl⟩ := hfirst _ rfl
    exact ⟨value, otherwise, others, rfl⟩
  · cases h

end SchemaBindings.Code
