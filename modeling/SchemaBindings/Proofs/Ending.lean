import SchemaBindings.Package.Write
import SchemaBindings.Proofs.FileSystem

/-!
How actions on files end, with an answer or a failure, and which texts have changed by then. A file
is given its text all at once: whatever is refused on the way, nobody ever sees half of it.
-/

namespace SchemaBindings

open FileTree (Location place)
open LawfulFileSystem (text?)

section Ends

variable {σ α β : Type} {s s' : σ}

/-- The action, started in a state, ends with an answer or a failure and leaves another state. -/
def Ends (x : ExceptT Failure (StateM σ) α) (s : σ) (r : Except Failure α) (s' : σ) : Prop :=
  x.run.run s = (r, s')

namespace Ends

theorem of_pure {a : α} {r : Except Failure α}
    (h : Ends (pure a : ExceptT Failure (StateM σ) α) s r s') : r = .ok a ∧ s' = s := by
  cases h
  exact ⟨rfl, rfl⟩

theorem of_throw {e : Failure} {r : Except Failure α}
    (h : Ends (throw e : ExceptT Failure (StateM σ) α) s r s') : r = .error e ∧ s' = s := by
  cases h
  exact ⟨rfl, rfl⟩

/-- A step that does nothing with the files. -/
theorem of_result {y r : Except Failure α}
    (h : Ends (liftM y : ExceptT Failure (StateM σ) α) s r s') : r = y ∧ s' = s := by
  cases h
  exact ⟨rfl, rfl⟩

theorem of_bind {x : ExceptT Failure (StateM σ) α} {f : α → ExceptT Failure (StateM σ) β}
    {r : Except Failure β} (h : Ends (x >>= f) s r s') :
    (∃ a t, Ends x s (.ok a) t ∧ Ends (f a) t r s') ∨
      ∃ e, Ends x s (.error e) s' ∧ r = .error e := by
  rw [Ends, ExceptT.run_bind, StateT.run_bind] at h
  cases hx : x.run.run s with
  | mk first t =>
    rw [hx] at h
    cases first with
    | ok a => exact .inl ⟨a, t, hx, h⟩
    | error e =>
      cases h
      exact .inr ⟨e, hx, rfl⟩

/-- An action on the files alone does not fail itself. -/
theorem of_bind_action {y : StateM σ α} {f : α → ExceptT Failure (StateM σ) β}
    {r : Except Failure β} (h : Ends (liftM y >>= f) s r s') :
    ∃ a t, y.run s = (a, t) ∧ Ends (f a) t r s' := by
  rw [Ends, ExceptT.run_bind, ExceptT.run_liftM, StateT.run_bind, StateT.run_map] at h
  exact ⟨_, _, rfl, h⟩

theorem bind_action {y : StateM σ α} {f : α → ExceptT Failure (StateM σ) β} {a : α} {t : σ}
    {r : Except Failure β} (hy : y.run s = (a, t)) (hf : Ends (f a) t r s') :
    Ends (liftM y >>= f) s r s' := by
  rw [Ends, ExceptT.run_bind, ExceptT.run_liftM, StateT.run_bind, StateT.run_map, hy]
  exact hf

theorem bind {x : ExceptT Failure (StateM σ) α} {f : α → ExceptT Failure (StateM σ) β} {a : α}
    {t : σ} {r : Except Failure β} (hx : Ends x s (.ok a) t) (hf : Ends (f a) t r s') :
    Ends (x >>= f) s r s' := by
  have hx : x.run.run s = (.ok a, t) := hx
  rw [Ends, ExceptT.run_bind, StateT.run_bind, hx]
  exact hf

theorem bind_error {x : ExceptT Failure (StateM σ) α} {f : α → ExceptT Failure (StateM σ) β}
    {e : Failure} (hx : Ends x s (.error e) s') : Ends (x >>= f) s (.error e) s' := by
  have hx : x.run.run s = (.error e, s') := hx
  rw [Ends, ExceptT.run_bind, StateT.run_bind, hx]
  rfl

/-- The same action for every element of a list either succeeds for all of them or ends with the
first failure. -/
theorem of_mapM {f : α → ExceptT Failure (StateM σ) β} {as : List α} {r : Except Failure (List β)}
    (h : Ends (as.mapM f) s r s') : (∃ bs, r = .ok bs) ∨
      ∃ e before a after bs t, r = .error e ∧ as = before ++ a :: after ∧
        Ends (before.mapM f) s (.ok bs) t ∧ Ends (f a) t (.error e) s' := by
  induction as generalizing s r with
  | nil =>
    rw [List.mapM_nil] at h
    exact .inl ⟨[], h.of_pure.1⟩
  | cons a rest ih =>
    rw [List.mapM_cons] at h
    rcases h.of_bind with ⟨b, t, hfirst, h⟩ | ⟨e, hfirst, rfl⟩
    · rcases h.of_bind with ⟨bs, t', -, h⟩ | ⟨e, hrest, rfl⟩
      · exact .inl ⟨b :: bs, h.of_pure.1⟩
      · obtain ⟨bs, hbs⟩ | ⟨_, before, a', after, bs, t', he, rfl, hbefore, ha'⟩ := ih hrest
        · cases hbs
        · cases he
          refine .inr ⟨_, a :: before, a', after, b :: bs, t', rfl, rfl, ?_, ha'⟩
          rw [List.mapM_cons]
          exact (hfirst.bind (hbefore.bind rfl))
    · exact .inr ⟨e, [], a, rest, [], s, rfl, rfl, rfl, hfirst⟩

/-- The same action succeeds for every element of a list only if it does for each of them. -/
theorem of_mapM_ok {f : α → ExceptT Failure (StateM σ) β} {as : List α} {bs : List β}
    (h : Ends (as.mapM f) s (.ok bs) s') :
    ∀ a ∈ as, ∃ b t t', Ends (f a) t (.ok b) t' := by
  induction as generalizing s s' bs with
  | nil => exact List.forall_mem_nil _
  | cons a rest ih =>
    rw [List.mapM_cons] at h
    rcases h.of_bind with ⟨b, t, hfirst, h⟩ | ⟨_, -, he⟩
    · rcases h.of_bind with ⟨_, _, hrest, -⟩ | ⟨_, -, he⟩
      · exact List.forall_mem_cons.mpr ⟨⟨b, s, t, hfirst⟩, ih hrest⟩
      · cases he
    · cases he

end Ends

end Ends

/-! ## Writing one file -/

theorem Ends.of_orUnwritable {σ : Type} {s s' : σ} {path : String} {done : StateM σ Bool}
    {r : Except Failure Unit} (h : Ends (orUnwritable path done) s r s') :
    (r = .ok () ∧ done.run s = (true, s')) ∨
      r = .error (.unwritable path) ∧ done.run s = (false, s') := by
  obtain ⟨isDone, t, hrun, h⟩ := h.of_bind_action
  cases isDone with
  | true =>
    obtain ⟨rfl, rfl⟩ := h.of_pure
    exact .inl ⟨rfl, hrun⟩
  | false =>
    obtain ⟨rfl, rfl⟩ := h.of_throw
    exact .inr ⟨rfl, hrun⟩

variable {σ : Type} [FileSystem (StateM σ)] [LawfulFileSystem σ] {s s' : σ} {path text : String}

/-- The two states differ in the texts at the given locations only. -/
def ChangesOnly (places : List Location) (s s' : σ) : Prop :=
  ∀ l ∉ places, text? s' l = text? s l

/-- A file is written first beside its place and then moved there, after its directories were made,
which changes no text. -/
theorem Ends.of_writeWhole {r : Except Failure Unit} (h : Ends (writeWhole path text) s r s') :
    (∃ t, text? t = text? s ∧ Ends (do
        orUnwritable (temporaryPath path) (FileSystem.write (temporaryPath path) text)
        orUnwritable path (FileSystem.rename (temporaryPath path) path)) t r s') ∨
      r = .error (.unwritable (FilePath.parent path)) ∧ text? s' = text? s := by
  unfold writeWhole at h
  dsimp only at h
  split at h
  · exact .inl ⟨s, rfl, h⟩
  · rcases h.of_bind with ⟨_, t, hway, h⟩ | ⟨e, hway, rfl⟩ <;>
      rcases hway.of_orUnwritable with ⟨he, hrun⟩ | ⟨he, hrun⟩ <;> cases he
    · exact .inl ⟨t, LawfulFileSystem.makeDirectories hrun, h⟩
    · exact .inr ⟨rfl, LawfulFileSystem.makeDirectories hrun⟩

/-- Either a file has its text in the end, or it is as it was and one of the three steps that give
it the text was refused. -/
theorem writeWhole_ends {r : Except Failure Unit} (h : Ends (writeWhole path text) s r s') :
    (r = .ok () ∧ text? s' (place path) = some text ∧
      ChangesOnly [place path, place (temporaryPath path)] s s') ∨
    ∃ stage ∈ [FilePath.parent path, temporaryPath path, path],
      r = .error (.unwritable stage) ∧ ChangesOnly [place (temporaryPath path)] s s' := by
  rcases h.of_writeWhole with ⟨t₁, htexts, h⟩ | ⟨rfl, htexts⟩
  · rcases h.of_bind with ⟨_, t₂, hwrite, h⟩ | ⟨e, hwrite, rfl⟩ <;>
      rcases hwrite.of_orUnwritable with ⟨he, hrun⟩ | ⟨he, hrun⟩ <;> cases he <;>
      obtain ⟨hother, htext⟩ := LawfulFileSystem.write hrun
    · rcases h.of_orUnwritable with ⟨rfl, hmove⟩ | ⟨rfl, hmove⟩ <;>
        obtain ⟨hrefused, hmoved⟩ := LawfulFileSystem.rename hmove
      · obtain ⟨htarget, hrest⟩ := hmoved rfl
        refine .inl ⟨rfl, htarget.trans (htext rfl), fun l hl => ?_⟩
        simp only [List.mem_cons, List.not_mem_nil, or_false, not_or] at hl
        rw [hrest l hl.2 hl.1, hother l hl.2, htexts]
      · refine .inr ⟨path, by simp, rfl, fun l hl => ?_⟩
        rw [hrefused rfl, hother l (by simpa using hl), htexts]
    · refine .inr ⟨_, by simp, rfl, fun l hl => ?_⟩
      rw [hother l (by simpa using hl), htexts]
  · exact .inr ⟨_, by simp, rfl, fun l _ => congrFun htexts l⟩

end SchemaBindings
