import SchemaBindings.Proofs.FileTree

/-!
What runs rely on of the files around them, whatever keeps these files: operations may be refused at
any time, and one that writes may leave anything at its path, but what they are not about stays as
it is. Trees of files are lawful in this sense.
-/

namespace SchemaBindings

open FileTree (Location place)

/-- A state that holds files, whose operations change no text of a file but those that they are
about. Nothing is said of when an operation is refused, or of what a refused write leaves at its
path. -/
class LawfulFileSystem (σ : Type) [FileSystem (StateM σ)] where
  /-- The text of the file at a location. -/
  text? : σ → Location → Option String
  read {path : String} {s s' : σ} {answer : Option String}
    (h : (FileSystem.read path : StateM σ _).run s = (answer, s')) :
    text? s' = text? s ∧ ∀ text, answer = some text → text? s (place path) = some text
  filesBelow {path : String} {s s' : σ} {answer : Option (List (List String))}
    (h : (FileSystem.filesBelow path : StateM σ _).run s = (answer, s')) :
    text? s' = text? s ∧ ∀ files, answer = some files → ∀ names ∈ files, names ≠ [] →
      text? s (place path) = none
  makeDirectories {path : String} {s s' : σ} {done : Bool}
    (h : (FileSystem.makeDirectories path : StateM σ _).run s = (done, s')) : text? s' = text? s
  write {path text : String} {s s' : σ} {done : Bool}
    (h : (FileSystem.write path text : StateM σ _).run s = (done, s')) :
    (∀ l, l ≠ place path → text? s' l = text? s l) ∧
      (done = true → text? s' (place path) = some text)
  rename {source target : String} {s s' : σ} {done : Bool}
    (h : (FileSystem.rename source target : StateM σ _).run s = (done, s')) :
    (done = false → text? s' = text? s) ∧
      (done = true → text? s' (place target) = text? s (place source) ∧
        ∀ l, l ≠ place source → l ≠ place target → text? s' l = text? s l)

/-! ## Trees of files -/

namespace FileTree

def Node.text? : Node → Option String
  | .file text => some text
  | .directory => none

/-- The text of the file at a location of a tree. -/
def text? (t : FileTree) (l : Location) : Option String :=
  (t.get? l).bind Node.text?

variable {t t' : FileTree} {l : Location} {path text : String}

theorem text?_put (hl : l ≠ []) (n : Node) (place : Location) :
    (t.put l n).text? place = if place = l then n.text? else t.text? place := by
  rw [text?, get?_put]
  by_cases h : place = l
  · rw [if_pos ⟨h, h ▸ hl⟩, if_pos h, Option.bind_some]
  · rw [if_neg fun he => h he.1, if_neg h, text?]

theorem text?_erase (hl : l ≠ []) (place : Location) :
    (t.erase l).text? place = if place = l then none else t.text? place := by
  rw [text?, get?_erase]
  by_cases h : place = l
  · rw [if_pos ⟨h, h ▸ hl⟩, if_pos h, Option.bind_none]
  · rw [if_neg fun he => h he.1, if_neg h, text?]

theorem lead_of_step? {c : Component} {l' : Location} (h : t.step? l c = some l') :
    l' = c.lead l := by
  cases c <;> simp only [step?] at h <;> (try split at h) <;> cases h <;> rfl

/-- Wherever a path leads, it is the location that it names. -/
theorem eq_place_of_locate? (h : t.locate? path = some l) : l = place path := by
  have harrive {cs : List Component} {l l' : Location} (h : cs.foldlM t.step? l = some l') :
      l' = arrive l cs := by
    induction cs generalizing l with
    | nil => exact (Option.some.inj h).symm
    | cons c cs ih =>
      obtain ⟨next, hstep, hrest⟩ := Option.bind_eq_some_iff.mp h
      rw [ih hrest, lead_of_step? hstep, arrive]
  unfold locate? at h
  split at h
  · next hgone =>
    split at h <;> cases h
    exact harrive hgone
  · cases h

theorem text?_of_read? (h : t.read? path = some text) : t.text? (place path) = some text := by
  unfold read? at h
  split at h
  · next hfile =>
    obtain ⟨l, hl, hget⟩ := Option.bind_eq_some_iff.mp hfile
    cases h
    rw [← eq_place_of_locate? hl, text?, hget]
    rfl
  · cases h

/-- Only below a directory there are other files. -/
theorem text?_of_filesBelow? {files : List Location} (h : t.filesBelow? path = some files)
    {names : Location} (hm : names ∈ files) (hne : names ≠ []) : t.text? (place path) = none := by
  obtain ⟨l, hl, h⟩ := Option.bind_eq_some_iff.mp h
  obtain ⟨n, hget, h⟩ := Option.bind_eq_some_iff.mp h
  rw [← eq_place_of_locate? hl, text?, hget]
  cases n with
  | file text =>
    cases h
    exact absurd (List.mem_singleton.mp hm) hne
  | directory => rfl

theorem text?_enter {c : Component} {l' : Location} (h : t.enter l c = some (l', t')) :
    t'.text? = t.text? := by
  obtain ⟨_, -, h⟩ := Option.bind_eq_some_iff.mp h
  split at h
  · cases h
    rfl
  · cases h
  · next hnone =>
    cases h
    have hne : l' ≠ [] := by
      rintro rfl
      cases hnone
    funext place
    rw [text?_put hne]
    split
    · next he =>
      rw [he, text?, hnone]
      rfl
    · rfl

/-- Where directories are made there was nothing. -/
theorem text?_makeWay (t : FileTree) (l : Location) (cs : List Component) :
    (t.makeWay l cs).2.text? = t.text? := by
  induction cs generalizing t l with
  | nil => rfl
  | cons c cs ih =>
    rw [makeWay]
    split
    · next henter => rw [ih, text?_enter henter]
    · rfl

theorem ne_nil_of_get?_file (h : t.get? l = some (.file text)) : l ≠ [] := by
  rintro rfl
  cases h

theorem ne_nil_of_not_isDirectory (h : ¬ t.isDirectory l = true) : l ≠ [] := by
  rintro rfl
  exact h rfl

/-- Nothing is written in the place of a directory. -/
theorem write?_eq_some (h : t.write? path text = some t') :
    t.locate? path = some (place path) ∧ ¬ t.isDirectory (place path) = true ∧
      t' = t.put (place path) (.file text) := by
  obtain ⟨target, htarget, h⟩ := Option.bind_eq_some_iff.mp h
  split at h
  · cases h
  · next hfree =>
    obtain rfl := eq_place_of_locate? htarget
    exact ⟨htarget, hfree, (Option.some.inj h).symm⟩

theorem text?_write? (h : t.write? path text = some t') (l : Location) :
    t'.text? l = if l = place path then some text else t.text? l := by
  obtain ⟨-, hfree, rfl⟩ := write?_eq_some h
  rw [text?_put (ne_nil_of_not_isDirectory hfree)]
  rfl

/-- Only files are moved, and not to the place of a directory. -/
theorem rename?_eq_some {source target : String} (h : t.rename? source target = some t') :
    ∃ text, t.get? (place source) = some (.file text) ∧ ¬ t.isDirectory (place target) = true ∧
      t' = (t.erase (place source)).put (place target) (.file text) := by
  obtain ⟨a, ha, h⟩ := Option.bind_eq_some_iff.mp h
  obtain ⟨b, hb, h⟩ := Option.bind_eq_some_iff.mp h
  obtain rfl := eq_place_of_locate? ha
  obtain rfl := eq_place_of_locate? hb
  split at h
  · next text hget =>
    split at h
    · cases h
    · next hfree => exact ⟨text, hget, hfree, (Option.some.inj h).symm⟩
  · cases h

/-- A file that is moved takes its text along. -/
theorem text?_rename? {source target : String} (h : t.rename? source target = some t') :
    t'.text? (place target) = t.text? (place source) ∧
      ∀ l, l ≠ place source → l ≠ place target → t'.text? l = t.text? l := by
  obtain ⟨text, hget, hfree, rfl⟩ := rename?_eq_some h
  refine ⟨?_, fun l hsource htarget => ?_⟩
  · rw [text?_put (ne_nil_of_not_isDirectory hfree), if_pos rfl, text?, hget]
    rfl
  · rw [text?_put (ne_nil_of_not_isDirectory hfree), if_neg htarget,
      text?_erase (ne_nil_of_get?_file hget), if_neg hsource]

theorem change_eq {f : FileTree → Option FileTree} {done : Bool}
    (h : change f t = (done, t')) :
    (done = true ∧ f t = some t') ∨ (done = false ∧ f t = none ∧ t' = t) := by
  unfold change at h
  split at h <;> cases h
  · exact .inl ⟨rfl, ‹_›⟩
  · exact .inr ⟨rfl, ‹_›, rfl⟩

end FileTree

instance : LawfulFileSystem FileTree where
  text? := FileTree.text?
  read h := by
    cases h
    exact ⟨rfl, fun text htext => FileTree.text?_of_read? htext⟩
  filesBelow h := by
    cases h
    exact ⟨rfl, fun files hfiles names hm hne => FileTree.text?_of_filesBelow? hfiles hm hne⟩
  makeDirectories {path s _ _} h := by
    have hway := FileTree.text?_makeWay s [] (FilePath.components path)
    rw [run_makeDirectories] at h
    rwa [h] at hway
  write {path text s s' done} h := by
    change FileTree.change (·.write? path text) s = (done, s') at h
    rcases FileTree.change_eq h with ⟨-, hs⟩ | ⟨rfl, -, rfl⟩
    · have htext := FileTree.text?_write? hs
      exact ⟨fun l hl => by rw [htext, if_neg hl], fun _ => by rw [htext, if_pos rfl]⟩
    · exact ⟨fun _ _ => rfl, nofun⟩
  rename {source target s s' done} h := by
    change FileTree.change (·.rename? source target) s = (done, s') at h
    rcases FileTree.change_eq h with ⟨rfl, hs⟩ | ⟨rfl, -, rfl⟩
    · exact ⟨nofun, fun _ => FileTree.text?_rename? hs⟩
    · exact ⟨fun _ => rfl, nofun⟩

end SchemaBindings
