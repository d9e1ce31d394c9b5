import SchemaBindings.Proofs.Naming.Words
import SchemaBindings.Text.IdentifierClass

/-!
What a character can be in an identifier. The tables of Unicode agree there on a letter and its
lowercase image, so a name in lowercase can begin and go on like the name itself.
-/

namespace SchemaBindings.Text

/-! ## Ranges of code points -/

/-- Membership in a set on a range of code points, where it is the same for all of them. -/
def steady? (first last : Nat) : List Nat → Option Bool
  | [] => some false
  | place :: rest =>
    if place ≤ first then (steady? first last rest).map (!·)
    else if place ≤ last then none
    else some false

/-- The places of a set without those, two by two, that a reader has passed. -/
def ahead (reached : Nat) : List Nat → List Nat
  | enter :: leave :: rest =>
    if enter ≤ reached ∧ leave ≤ reached then ahead reached rest else enter :: leave :: rest
  | rest => rest

/-- Membership on one range after the other. Reading goes on where it has got to, and begins again
only where the next range lies before. -/
def sweep (places : List Nat) : List Nat → Nat → List (Nat × Nat) → List (Option Bool)
  | _, _, [] => []
  | near, reached, (first, last) :: ranges =>
    let next := ahead first (if reached ≤ first then near else places)
    steady? first last next :: sweep places next first ranges

theorem flipped_of_steady {places : List Nat} {first last n : Nat} {inside : Bool}
    (h : steady? first last places = some inside) (hfirst : first ≤ n) (hlast : n ≤ last) :
    flipped places n = inside := by
  induction places generalizing inside with
  | nil => exact Option.some.inj h
  | cons place rest ih =>
    rw [steady?] at h
    rw [flipped]
    split at h
    · obtain ⟨outside, hrest, rfl⟩ := Option.map_eq_some_iff.mp h
      rw [if_neg (by omega), ih hrest]
    split at h
    · cases h
    · rw [if_pos (by omega)]
      exact Option.some.inj h

theorem steady?_ahead {reached first : Nat} (h : reached ≤ first) (last : Nat)
    (places : List Nat) :
    steady? first last (ahead reached places) = steady? first last places := by
  induction places using ahead.induct reached with
  | case1 enter leave rest hpassed ih =>
    -- two places flip membership back to what it was
    rw [ahead, if_pos hpassed, ih, steady?, if_pos (by omega), steady?, if_pos (by omega),
      Option.map_map]
    simp [Function.comp_def]
  | case2 enter leave rest hahead => rw [ahead, if_neg hahead]
  | case3 rest hshort => rw [ahead]; exact hshort

/-- Reading on is as good as reading from the beginning, if what was passed lies before. -/
theorem sweep_eq {places near : List Nat} {reached : Nat}
    (h : ∀ first, reached ≤ first → ∀ last, steady? first last near = steady? first last places)
    (ranges : List (Nat × Nat)) :
    sweep places near reached ranges = ranges.map fun r => steady? r.1 r.2 places := by
  induction ranges generalizing near reached with
  | nil => rfl
  | cons range ranges ih =>
    obtain ⟨first, last⟩ := range
    have hnext (first' : Nat) (hle : first ≤ first') (last' : Nat) :
        steady? first' last' (ahead first (if reached ≤ first then near else places)) =
          steady? first' last' places := by
      rw [steady?_ahead hle]
      split
      · exact h first' (by omega) last'
      · rfl
    rw [sweep, List.map_cons]
    dsimp only
    rw [hnext first (Nat.le_refl first), ih hnext]

/-! ## Letters and their images -/

/-- What a character can be in an identifier. -/
structure Role where
  starts : Bool
  continues : Bool
  digit : Bool
  underscore : Bool
deriving DecidableEq

def role (c : Char) : Role :=
  ⟨isIdentifierStart c, isIdentifierContinue c, c.isDigit, c == '_'⟩

theorem role_of_le {c : Char} (h : 128 ≤ c.toNat) :
    role c = ⟨flipped identifierStartBeyondAscii.flips c.toNat,
      flipped identifierContinueBeyondAscii.flips c.toNat, false, false⟩ := by
  have hdigit : c.isDigit = false := by
    rw [Bool.eq_false_iff]
    intro hd
    have hlow := toNat_lt_of_isAlphanum (c := c) (by simp [Char.isAlphanum, hd])
    omega
  have hunderscore : (c == '_') = false := by
    rw [beq_eq_false_iff_ne]
    rintro rfl
    exact absurd h (by decide)
  have hhigh : ¬ c.toNat < 128 := by omega
  rw [role, isIdentifierStart, isIdentifierContinue, if_neg hhigh, if_neg hhigh, hdigit,
    hunderscore]
  rfl

/-- The tables that tell what a character beyond ASCII can be in an identifier. -/
def identifierTables : List (List Nat) :=
  [identifierStartBeyondAscii.flips, identifierContinueBeyondAscii.flips]

/-- Whether the tables can be asked for a run as a whole. One run steps over code points that stand
for nothing, and the sign for kelvins has its image in ASCII. -/
def CaseRun.isRegular (r : CaseRun) : Bool :=
  r.first != 8025 && r.first != 8490

def regularRuns : List CaseRun :=
  lowercaseRuns.filter CaseRun.isRegular

/-- The first and the last code point of a run. -/
def CaseRun.range (r : CaseRun) : Nat × Nat :=
  (r.first, r.last)

/-- The first and the last image of a run. -/
def CaseRun.images (r : CaseRun) : Nat × Nat :=
  (r.target, r.target + (r.last - r.first))

/-- The tables hold all code points of a run and all images of it, or none of them. -/
theorem sweep_regularRuns : ∀ places ∈ identifierTables,
    sweep places places 0 (regularRuns.map CaseRun.images) =
      sweep places places 0 (regularRuns.map CaseRun.range) ∧
    none ∉ sweep places places 0 (regularRuns.map CaseRun.range) := by
  decide +kernel

/-- Images of regular runs are characters beyond ASCII. -/
theorem images_regularRuns : ∀ r ∈ regularRuns, 128 ≤ r.images.1 ∧
    (r.images.2 < 55296 ∨ 57343 < r.images.1 ∧ r.images.2 < 1114112) := by
  decide +kernel

theorem role_irregular : ∀ r ∈ lowercaseRuns, r.isRegular = false →
    r.last < r.first + 7 ∧ ∀ k < 7, ∀ m ∈ r.image? (r.first + k),
      role (Char.ofNat m) = role (Char.ofNat (r.first + k)) := by
  decide +kernel

theorem CaseRun.image?_eq_some {r : CaseRun} {n m : Nat} (h : r.image? n = some m) :
    (r.first ≤ n ∧ n ≤ r.last) ∧ m = r.target + (n - r.first) := by
  unfold CaseRun.image? at h
  split at h
  · next hn => exact ⟨⟨hn.1, hn.2.1⟩, (Option.some.inj h).symm⟩
  · cases h

theorem toNat_ofNat_of_isValidChar {n : Nat} (h : n < 55296 ∨ 57343 < n ∧ n < 1114112) :
    (Char.ofNat n).toNat = n := by
  have hvalid : n.isValidChar := h
  rw [Char.ofNat, dif_pos hvalid]
  rfl

/-- The tables hold a letter exactly if they hold its image. -/
theorem flipped_image {places : List Nat} (hp : places ∈ identifierTables) {r : CaseRun}
    (hr : r ∈ regularRuns) {n m : Nat} (h : r.image? n = some m) :
    flipped places m = flipped places n := by
  obtain ⟨heq, hnone⟩ := sweep_regularRuns places hp
  rw [sweep_eq (fun _ _ _ => rfl), sweep_eq (fun _ _ _ => rfl), List.map_map, List.map_map] at heq
  rw [sweep_eq (fun _ _ _ => rfl), List.map_map] at hnone
  have himages := List.map_inj_left.mp heq r hr
  obtain ⟨inside, hinside⟩ : ∃ inside, steady? r.first r.last places = some inside :=
    Option.ne_none_iff_exists'.mp fun he => hnone (List.mem_map.mpr ⟨r, hr, he⟩)
  obtain ⟨⟨hfirst, hlast⟩, rfl⟩ := CaseRun.image?_eq_some h
  rw [flipped_of_steady hinside hfirst hlast]
  refine flipped_of_steady (himages.trans hinside) (Nat.le_add_right _ _) ?_
  dsimp only [CaseRun.images]
  omega

/-- The lowercase image of a letter can be what the letter can be. -/
theorem role_image {r : CaseRun} (hr : r ∈ lowercaseRuns) {c : Char} (hc : 128 ≤ c.toNat) {m : Nat}
    (h : r.image? c.toNat = some m) : role (Char.ofNat m) = role c := by
  obtain ⟨⟨hfirst, hlast⟩, hm⟩ := CaseRun.image?_eq_some h
  cases hregular : r.isRegular with
  | true =>
    have hmem : r ∈ regularRuns := List.mem_filter.mpr ⟨hr, hregular⟩
    obtain ⟨hlow, hvalid⟩ := images_regularRuns r hmem
    dsimp only [CaseRun.images] at hlow hvalid
    have himage : (Char.ofNat m).toNat = m := toNat_ofNat_of_isValidChar (by omega)
    rw [role_of_le hc, role_of_le (by omega), himage,
      flipped_image (by simp [identifierTables]) hmem h,
      flipped_image (by simp [identifierTables]) hmem h]
  | false =>
    obtain ⟨hshort, hk⟩ := role_irregular r hr hregular
    obtain ⟨k, hn⟩ := Nat.exists_eq_add_of_le hfirst
    rw [hn] at h
    rw [hk k (by omega) m h, ← hn, Char.ofNat_toNat]

/-- Lowercase begins with a character that can be what the letter can be, and goes on with what can
stand inside an identifier. -/
theorem lowercaseImage_role (c : Char) : ∃ d ds, lowercaseImage c = d :: ds ∧ role d = role c ∧
    ds.all isIdentifierContinue = true := by
  unfold lowercaseImage
  split
  · next hc =>
    have hall : ∀ n < 128, role (Char.ofNat n).toLower = role (Char.ofNat n) := by
      decide +kernel
    have hrole := hall c.toNat hc
    rw [Char.ofNat_toNat] at hrole
    exact ⟨_, [], rfl, hrole, rfl⟩
  split
  · next hc =>
    have hrole : role 'i' = role (Char.ofNat 304) := by decide +kernel
    rw [← hc, Char.ofNat_toNat] at hrole
    exact ⟨_, _, rfl, hrole, by decide +kernel⟩
  · next hhigh _ =>
    split
    · next m hm =>
      obtain ⟨r, hr, himage⟩ := List.exists_of_findSome?_eq_some hm
      exact ⟨_, [], rfl, role_image hr (by omega) himage, rfl⟩
    · exact ⟨c, [], rfl, rfl, rfl⟩

end SchemaBindings.Text
