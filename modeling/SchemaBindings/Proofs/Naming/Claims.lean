import Mathlib.Data.List.Basic
import SchemaBindings.Proofs.Naming.Underscores

/-!
Any claims on the names of one scope, strict and loose ones in any order. Names are given once only,
the table holds exactly those that were given, and a claim is answered by these and the reserved
names alone.
-/

namespace SchemaBindings.Naming

/-- A claim on a name. -/
inductive Claim where
  | strict (name : String)
  | loose (name : String)

namespace Table

/-- The answer to a claim, and the table behind it. A refused claim makes no table, so the old one
stays. -/
def answer (t : Table) : Claim → Except Failure String × Table
  | .strict name =>
    match t.assign name with
    | .ok (given, t') => (.ok given, t')
    | .error e => (.error e, t)
  | .loose name => (.ok (t.assignUnique name).1, (t.assignUnique name).2)

/-- The answers to claims one after the other, and the table behind them. -/
def answers (t : Table) : List Claim → List (Except Failure String) × Table
  | [] => ([], t)
  | c :: rest =>
    let behind := (t.answer c).2.answers rest
    ((t.answer c).1 :: behind.1, behind.2)

/-- The names among answers. -/
def given (answers : List (Except Failure String)) : List String :=
  answers.filterMap Except.toOption

/-- The name that a strict claim asks for. -/
def candidate (reserved : List String) (name : String) : String :=
  if name ∈ reserved then name ++ "_" else name

/-- A name with as many underscores behind it as are put there as long as it is taken, whatever
their number comes to. -/
inductive Settles (taken : List String) : String → String → Prop
  | free {name : String} (h : name ∉ taken) : Settles taken name name
  | next {name settled : String} (h : name ∈ taken) (hnext : Settles taken (name ++ "_") settled) :
    Settles taken name settled

variable {t : Table} {name : String} {c : Claim}

/-! ## One claim -/

theorem assign_of_mem (h : candidate t.reserved name ∈ t.assigned) :
    t.assign name = .error (.nameCollision t.scope (candidate t.reserved name)) := by
  simpa [assign, candidate] using h

theorem assign_of_notMem (h : candidate t.reserved name ∉ t.assigned) :
    t.assign name = .ok (candidate t.reserved name,
      { t with assigned := candidate t.reserved name :: t.assigned }) := by
  simpa [assign, candidate] using h

/-- An answered claim is refused and changes nothing, or gives a name that was not given before. -/
theorem answer_cases (t : Table) (c : Claim) :
    (∃ e, t.answer c = (.error e, t)) ∨
      ∃ n, n ∉ t.assigned ∧ t.answer c = (.ok n, { t with assigned := n :: t.assigned }) := by
  cases c with
  | strict name =>
    by_cases h : candidate t.reserved name ∈ t.assigned
    · exact .inl ⟨_, by rw [answer, assign_of_mem h]⟩
    · exact .inr ⟨_, h, by rw [answer, assign_of_notMem h]⟩
  | loose name =>
    have hnew := (t.assignUnique_spec name).2
    exact .inr ⟨_, fun hm => hnew (List.mem_append_right _ hm), rfl⟩

/-! ## Several claims -/

/-- The table keeps its scope and its reserved names, and the names that are given come in front of
those that it had. No name is given twice. -/
theorem answers_assigned (t : Table) (claims : List Claim) (h : t.assigned.Nodup) :
    (t.answers claims).2 =
        { t with assigned := (given (t.answers claims).1).reverse ++ t.assigned } ∧
      (t.answers claims).2.assigned.Nodup := by
  induction claims generalizing t with
  | nil => exact ⟨rfl, h⟩
  | cons c rest ih =>
    rcases t.answer_cases c with ⟨e, he⟩ | ⟨n, hnew, hn⟩
    · simp only [answers, he, given, List.filterMap_cons, Except.toOption]
      exact ih t h
    · obtain ⟨heq, hnodup⟩ := ih { t with assigned := n :: t.assigned }
        (List.nodup_cons.mpr ⟨hnew, h⟩)
      simp only [answers, hn, given, List.filterMap_cons, Except.toOption, List.reverse_cons,
        List.append_assoc]
      exact ⟨heq, hnodup⟩

/-! ## Underscores without a bound -/

theorem Settles.of_least {taken : List String} {count : ℕ}
    (hfree : withUnderscores name count ∉ taken)
    (hleast : ∀ fewer < count, withUnderscores name fewer ∈ taken) :
    Settles taken name (withUnderscores name count) := by
  induction count generalizing name with
  | zero =>
    rw [withUnderscores_zero] at hfree ⊢
    exact .free hfree
  | succ count ih =>
    have htaken := hleast 0 count.succ_pos
    rw [withUnderscores_zero] at htaken
    rw [← withUnderscores_append] at hfree ⊢
    refine .next htaken (ih hfree fun fewer hlt => ?_)
    rw [withUnderscores_append]
    exact hleast (fewer + 1) (Nat.succ_lt_succ hlt)

/-! ## Main result -/

/-- After any claims on an empty table, the given names are distinct and are those that it contains.
A further strict claim is refused exactly if its candidate was given before, and then the table
stays as it is. A further loose claim gives the name with the least number of underscores behind it
that makes it neither reserved nor given before, and putting underscores there one by one ends with
it. -/
theorem answers_distinct (scope : String) (reserved : List String) (claims : List Claim) :
    let run := ({ scope, reserved } : Table).answers claims
    (given run.1).Nodup ∧
    (∀ n, run.2.contains n = true ↔ n ∈ given run.1) ∧
    (∀ name,
      ((∃ e, (run.2.answer (.strict name)).1 = .error e) ↔
        candidate reserved name ∈ given run.1) ∧
      (candidate reserved name ∈ given run.1 → run.2.answer (.strict name) =
        (.error (.nameCollision scope (candidate reserved name)), run.2)) ∧
      (candidate reserved name ∉ given run.1 →
        (run.2.answer (.strict name)).1 = .ok (candidate reserved name))) ∧
    ∀ name, ∃ count,
      (run.2.answer (.loose name)).1 = .ok (withUnderscores name count) ∧
      withUnderscores name count ∉ reserved ∧ withUnderscores name count ∉ given run.1 ∧
      (∀ fewer < count,
        withUnderscores name fewer ∈ reserved ∨ withUnderscores name fewer ∈ given run.1) ∧
      Settles (reserved ++ given run.1) name (withUnderscores name count) := by
  intro run
  obtain ⟨htable, hnodup⟩ := answers_assigned { scope, reserved } claims List.nodup_nil
  have hreserved : run.2.reserved = reserved := congrArg Table.reserved htable
  have hscope : run.2.scope = scope := congrArg Table.scope htable
  have hassigned : run.2.assigned = (given run.1).reverse := by
    rw [congrArg Table.assigned htable, List.append_nil]
  have hmem (n : String) : n ∈ run.2.assigned ↔ n ∈ given run.1 := by
    rw [hassigned, List.mem_reverse]
  have hrefused {name : String} (h : candidate reserved name ∈ given run.1) :
      run.2.answer (.strict name) =
        (.error (.nameCollision scope (candidate reserved name)), run.2) := by
    have hassign : run.2.assign name = _ := assign_of_mem (by rwa [hreserved, hmem])
    rw [answer, hassign, hreserved, hscope]
  have hgiven {name : String} (h : candidate reserved name ∉ given run.1) :
      (run.2.answer (.strict name)).1 = .ok (candidate reserved name) := by
    have hassign : run.2.assign name = _ := assign_of_notMem (by rwa [hreserved, hmem])
    rw [answer, hassign, hreserved]
  refine ⟨?_, fun n => contains_eq_true.trans (hmem n), fun name => ⟨?_, hrefused, hgiven⟩,
    fun name => ?_⟩
  · exact List.nodup_reverse.mp (hassigned ▸ hnodup)
  · refine ⟨fun ⟨e, he⟩ => ?_, fun h => ⟨_, congrArg Prod.fst (hrefused h)⟩⟩
    by_contra hnew
    rw [hgiven hnew] at he
    cases he
  · obtain ⟨count, hname, hleast⟩ := run.2.assignUnique_least name
    have hfree := (run.2.assignUnique_spec name).2
    have htaken (n : String) :
        n ∈ run.2.reserved ++ run.2.assigned ↔ n ∈ reserved ++ given run.1 := by
      rw [List.mem_append, List.mem_append, hreserved, hmem]
    rw [hname, htaken] at hfree
    have hbelow (fewer : ℕ) (hlt : fewer < count) :
        withUnderscores name fewer ∈ reserved ++ given run.1 := (htaken _).mp (hleast fewer hlt)
    refine ⟨count, congrArg Except.ok hname, ?_, ?_, fun fewer hlt => ?_, .of_least hfree hbelow⟩
    · exact fun hm => hfree (List.mem_append_left _ hm)
    · exact fun hm => hfree (List.mem_append_right _ hm)
    · exact List.mem_append.mp (hbelow fewer hlt)

/-- Loose claims take the names that strict ones get and ask for. -/
def rivals : List Claim :=
  [.strict "new", .loose "new_", .loose "x", .strict "x", .loose "x"]

theorem answers_distinct_rivals :
    let run := ({ scope := "S", reserved := ["new"] } : Table).answers rivals
    given run.1 = ["new_", "new__", "x", "x_"] ∧ (given run.1).Nodup ∧
      run.2.answer (.strict "x_") = (.error (.nameCollision "S" "x_"), run.2) ∧
      (run.2.answer (.strict "y")).1 = .ok "y" := by
  intro run
  obtain ⟨hnodup, -, hstrict, -⟩ := answers_distinct "S" ["new"] rivals
  have hgiven : given run.1 = ["new_", "new__", "x", "x_"] := by decide
  have htaken : candidate ["new"] "x_" ∈ given run.1 := by
    rw [hgiven]
    decide
  have hfree : candidate ["new"] "y" ∉ given run.1 := by
    rw [hgiven]
    decide
  exact ⟨hgiven, hnodup, (hstrict "x_").2.1 htaken, (hstrict "y").2.2 hfree⟩

end Table

end SchemaBindings.Naming
