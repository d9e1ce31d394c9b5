import Mathlib.Data.Nat.Digits.Defs
import Mathlib.Tactic.SplitIfs
import SchemaBindings.Json.Printer
import SchemaBindings.Json.Reader

/-!
The compact form of a value is read back as the value, whatever its texts and however deep it is.
-/

namespace SchemaBindings.Json

/-! ## Texts -/

theorem hexValue?_hexDigit : ∀ n < 16, hexValue? (hexDigit n) = some n := by
  decide

theorem unicodeEscape?_control {n : Nat} (hn : n < 32) (rest : List Char) :
    unicodeEscape? ('0' :: '0' :: hexDigit (n / 16) :: hexDigit (n % 16) :: rest) =
      some (some (Char.ofNat n), rest) := by
  have hzero : hexValue? '0' = some 0 := by decide
  have hhigh := hexValue?_hexDigit (n / 16) (by omega)
  have hlow := hexValue?_hexDigit (n % 16) (by omega)
  have hunit : ((0 * 16 + 0) * 16 + n / 16) * 16 + n % 16 = n := by omega
  have hquad : hexQuad? ('0' :: '0' :: hexDigit (n / 16) :: hexDigit (n % 16) :: rest) =
      some (n, rest) := by
    simp only [hexQuad?, hzero, hhigh, hlow, Option.bind_eq_bind, Option.bind_some, hunit]
    rfl
  have hbelow : n < 0xD800 := by omega
  simp only [unicodeEscape?, hquad, Option.bind_eq_bind, Option.bind_some]
  rw [if_neg (by omega), if_pos (.inl hbelow)]
  rfl

theorem readText_simpleEscape (fuel : Nat) {e c : Char} (he : simpleEscape? e = some c)
    (rest : List Char) :
    readText (fuel + 1) ('\\' :: e :: rest) =
      (readText fuel rest).map fun (tail, rest) => (tail.map (c :: ·), rest) := by
  have hu : e ≠ 'u' := by
    rintro rfl
    cases he
  rw [readText, if_neg (by decide), if_neg (by decide), if_pos rfl]
  · simp only [he, Option.bind_eq_bind, Option.bind_some, Option.map_eq_bind]
    rfl
  · exact hu

theorem readText_unicodeEscape (fuel : Nat) {digits rest : List Char} {c : Char}
    (h : unicodeEscape? digits = some (some c, rest)) :
    readText (fuel + 1) ('\\' :: 'u' :: digits) =
      (readText fuel rest).map fun (tail, rest) => (tail.map (c :: ·), rest) := by
  rw [readText, if_neg (by decide), if_neg (by decide), if_pos rfl]
  simp only [h, Option.bind_eq_bind, Option.bind_some, Option.pure_def, Option.map_eq_bind]
  rfl

theorem readText_plain (fuel : Nat) {c : Char} (rest : List Char) (hquote : c ≠ '"')
    (hcontrol : 32 ≤ c.toNat) (hslash : c ≠ '\\') :
    readText (fuel + 1) (c :: rest) =
      (readText fuel rest).map fun (tail, rest) => (tail.map (c :: ·), rest) := by
  rw [readText.eq_def]
  dsimp only
  rw [if_neg hquote, if_neg (by omega), if_neg hslash, Option.map_eq_bind]
  rfl

/-- What stands for a character in a text is read as the character. -/
theorem readText_escapedChar (fuel : Nat) (c : Char) (rest : List Char) :
    readText (fuel + 1) (escapedChar c ++ rest) =
      (readText fuel rest).map fun (tail, rest) => (tail.map (c :: ·), rest) := by
  have hof : ∀ n, c.toNat = n → c = Char.ofNat n := by
    rintro _ rfl
    exact (Char.ofNat_toNat c).symm
  unfold escapedChar
  split_ifs with hquote hslash hback htab hline hform hreturn hcontrol
  · subst hquote
    exact readText_simpleEscape fuel rfl rest
  · subst hslash
    exact readText_simpleEscape fuel rfl rest
  · obtain rfl := hof 8 hback
    exact readText_simpleEscape fuel rfl rest
  · obtain rfl := hof 9 htab
    exact readText_simpleEscape fuel rfl rest
  · obtain rfl := hof 10 hline
    exact readText_simpleEscape fuel rfl rest
  · obtain rfl := hof 12 hform
    exact readText_simpleEscape fuel rfl rest
  · obtain rfl := hof 13 hreturn
    exact readText_simpleEscape fuel rfl rest
  · have hescape := unicodeEscape?_control hcontrol rest
    rw [Char.ofNat_toNat] at hescape
    exact readText_unicodeEscape fuel hescape
  · exact readText_plain fuel rest hquote (by omega) hslash

theorem length_le_flatMap_escapedChar (s : List Char) :
    s.length ≤ (s.flatMap escapedChar).length := by
  induction s with
  | nil => exact Nat.le_refl 0
  | cons c s ih =>
    have hone : 1 ≤ (escapedChar c).length := by
      unfold escapedChar
      split_ifs <;> simp
    rw [List.flatMap_cons, List.length_append, List.length_cons]
    omega

theorem readText_flatMap {fuel : Nat} {s : List Char} (hfuel : s.length < fuel)
    (rest : List Char) :
    readText fuel (s.flatMap escapedChar ++ '"' :: rest) = some (some s, rest) := by
  obtain ⟨fuel, rfl⟩ := Nat.exists_eq_add_one_of_ne_zero (Nat.ne_zero_of_lt hfuel)
  induction s generalizing fuel with
  | nil => simp [readText]
  | cons c s ih =>
    rw [List.length_cons, Nat.add_lt_add_iff_right] at hfuel
    obtain ⟨fuel, rfl⟩ := Nat.exists_eq_add_one_of_ne_zero (Nat.ne_zero_of_lt hfuel)
    rw [List.flatMap_cons, List.append_assoc, readText_escapedChar, ih fuel hfuel]
    rfl

/-! ## Numbers -/

theorem decimal_toDigits (n : Nat) : decimal (Nat.toDigits 10 n) = n := by
  have hvalue : Nat.ofDigitChars 10 (Nat.toDigits 10 n) 0 = n :=
    Nat.ofDigitChars_toDigits (by decide) (by decide)
  have hstep : (fun (m : Nat) (c : Char) => m * 10 + (c.toNat - 48)) =
      fun m c => 10 * m + (c.toNat - '0'.toNat) := by
    funext m c
    rw [Nat.mul_comm]
    rfl
  rw [decimal, hstep]
  exact hvalue

theorem isDigit_of_mem_toDigits {n : Nat} : ∀ c ∈ Nat.toDigits 10 n, c.isDigit = true :=
  fun _ hc => Nat.isDigit_of_mem_toDigits (by decide) (by decide) hc

theorem exists_toDigits_eq (n : Nat) : ∃ c digits, Nat.toDigits 10 n = c :: digits ∧
    c.isDigit = true := by
  obtain ⟨c, digits, h⟩ := List.exists_cons_of_ne_nil (Nat.toDigits_ne_nil (n := n) (b := 10))
  exact ⟨c, digits, h, isDigit_of_mem_toDigits c (h ▸ List.mem_cons_self)⟩

/-- The digits of a number other than zero do not begin with a zero. -/
theorem head?_toDigits_ne_zero {n : Nat} (h : n ≠ 0) : (Nat.toDigits 10 n).head? ≠ some '0' := by
  induction n using Nat.strong_induction_on with
  | _ n ih =>
    by_cases hlt : n < 10
    · rw [Nat.toDigits_of_lt_base hlt]
      have hchar : ∀ d < 10, d ≠ 0 → Nat.digitChar d ≠ '0' := by decide
      intro heq
      exact hchar n hlt h (Option.some.inj heq)
    · have hrest := ih (n / 10) (by omega) (by omega)
      rw [Nat.toDigits_of_base_le (by decide) (by omega), List.head?_append]
      obtain ⟨c, digits, hdigits, -⟩ := exists_toDigits_eq (n / 10)
      rw [hdigits] at hrest ⊢
      exact hrest

/-- What can stand after a number: it does not go on with it. -/
def EndsNumber (rest : List Char) : Prop :=
  ∀ c ∈ rest.head?, c.isDigit = false ∧ c ≠ '.' ∧ c ≠ 'e' ∧ c ≠ 'E'

theorem endsNumber_nil : EndsNumber [] := by
  intro c hc
  cases hc

theorem endsNumber_cons {c : Char} (h : c = ',' ∨ c = ']' ∨ c = '\x7d') (rest : List Char) :
    EndsNumber (c :: rest) := by
  intro c' hc'
  obtain rfl : c = c' := Option.some.inj hc'
  rcases h with rfl | rfl | rfl <;> decide

theorem takeWhile_digits {digits rest : List Char} (h : ∀ c ∈ digits, c.isDigit = true)
    (hend : EndsNumber rest) : (digits ++ rest).takeWhile (·.isDigit) = digits ∧
      (digits ++ rest).dropWhile (·.isDigit) = rest := by
  rw [List.takeWhile_append_of_pos h, List.dropWhile_append_of_pos h]
  cases rest with
  | nil => simp
  | cons c rest =>
    have hc : ¬ c.isDigit = true := by
      rw [(hend c rfl).1]
      decide
    rw [List.takeWhile_cons_of_neg hc, List.dropWhile_cons_of_neg hc, List.append_nil]
    exact ⟨rfl, rfl⟩

theorem readWhole?_toDigits (n : Nat) {rest : List Char} (hend : EndsNumber rest) :
    readWhole? (Nat.toDigits 10 n ++ rest) = some (Nat.toDigits 10 n, rest) := by
  by_cases hzero : n = 0
  · subst hzero
    have hhead : rest.head?.any (·.isDigit) = false := by
      cases rest with
      | nil => rfl
      | cons c rest => exact (hend c rfl).1
    have hdigits : Nat.toDigits 10 0 = ['0'] := by decide
    rw [hdigits, List.singleton_append, readWhole?, hhead]
    rfl
  · obtain ⟨c, digits, hdigits, -⟩ := exists_toDigits_eq n
    have hc : c ≠ '0' := by
      rintro rfl
      have hhead := head?_toDigits_ne_zero hzero
      rw [hdigits] at hhead
      exact hhead rfl
    obtain ⟨htake, hdrop⟩ := takeWhile_digits (isDigit_of_mem_toDigits (n := n)) hend
    have hempty : (Nat.toDigits 10 n).isEmpty = false := by
      rw [hdigits]
      rfl
    have hother : ∀ rest', Nat.toDigits 10 n ++ rest ≠ '0' :: rest' := by
      intro rest' heq
      rw [hdigits, List.cons_append] at heq
      exact hc (List.cons.inj heq).1
    rw [readWhole?.eq_2 _ hother, htake, hdrop, hempty]
    rfl

theorem skipFraction?_of_endsNumber {rest : List Char} (hend : EndsNumber rest) :
    skipFraction? rest = some (false, rest) := by
  cases rest with
  | nil => rfl
  | cons c rest =>
    obtain ⟨-, hdot, he, hE⟩ := hend c rfl
    unfold skipFraction?
    split
    · next rest' heq => exact absurd (List.cons.inj heq).1 hdot
    · simp only [Option.bind_eq_bind, Option.bind_some]
      split <;> simp_all

theorem readNumber?_integerText (n : Int) {rest : List Char} (hend : EndsNumber rest) :
    readNumber? (integerText n ++ rest) = some (.integer n, rest) := by
  have hwhole := readWhole?_toDigits n.natAbs hend
  have hrest := skipFraction?_of_endsNumber hend
  have hn := decimal_toDigits n.natAbs
  by_cases hneg : n < 0
  · have hne : ¬ n.natAbs = 0 := by omega
    have habs : -(n.natAbs : Int) = n := by omega
    rw [integerText, if_pos hneg, List.cons_append, readNumber?]
    simp only [hwhole, hrest, hn, hne, habs, Option.bind_eq_bind, Option.bind_some]
    rfl
  · have habs : (n.natAbs : Int) = n := by omega
    have hminus : ∀ rest', Nat.toDigits 10 n.natAbs ++ rest ≠ '-' :: rest' := by
      intro rest' heq
      obtain ⟨c, digits, hdigits, hc⟩ := exists_toDigits_eq n.natAbs
      rw [hdigits, List.cons_append] at heq
      rw [(List.cons.inj heq).1] at hc
      exact absurd hc (by decide)
    rw [integerText, if_neg hneg, readNumber?]
    · simp only [hwhole, hrest, hn, habs, Option.bind_eq_bind, Option.bind_some]
      rfl
    · exact hminus

/-! ## Values -/

mutual

/-- No number and no text of the value is missing. -/
def Value.IsWhole : Value → Prop
  | .fraction => False
  | .string s => s.isSome = true
  | .array elements => ElementsAreWhole elements
  | .object members => MembersAreWhole members
  | _ => True

def ElementsAreWhole : List Value → Prop
  | [] => True
  | v :: vs => v.IsWhole ∧ ElementsAreWhole vs

def MembersAreWhole : List (Option String × Value) → Prop
  | [] => True
  | (key, v) :: members => key.isSome = true ∧ v.IsWhole ∧ MembersAreWhole members

end

theorem skipBlanks_cons {c : Char} (hc : isBlank c = false) (s : List Char) :
    skipBlanks (c :: s) = c :: s := by
  rw [skipBlanks, List.dropWhile_cons_of_neg]
  rw [hc]
  decide

/-- A digit or a sign is neither a blank nor the beginning of anything but a number. -/
theorem not_of_beginsNumber {c : Char} (h : c = '-' ∨ c.isDigit = true) :
    isBlank c = false ∧ c ∉ ['n', 't', 'f', '"', '[', ']', '\x7b', '\x7d'] := by
  rcases h with rfl | h
  · decide
  · constructor
    · have hne : ∀ b : Char, b.isDigit = false → (c == b) = false := by
        rintro b hb
        rw [beq_eq_false_iff_ne]
        rintro rfl
        rw [hb] at h
        cases h
      rw [isBlank, hne ' ' (by decide), hne '\n' (by decide), hne '\t' (by decide),
        hne '\r' (by decide)]
      rfl
    · intro hmem
      have hnone : ∀ b ∈ ['n', 't', 'f', '"', '[', ']', '\x7b', '\x7d'], b.isDigit = false := by
        simp
      rw [hnone c hmem] at h
      cases h

theorem exists_integerText_eq (n : Int) : ∃ c rest, integerText n = c :: rest ∧
    (c = '-' ∨ c.isDigit = true) := by
  obtain ⟨c, digits, hdigits, hc⟩ := exists_toDigits_eq n.natAbs
  unfold integerText
  split
  · exact ⟨'-', _, rfl, .inl rfl⟩
  · exact ⟨c, digits, hdigits, .inr hc⟩

/-- A value begins with a character that is neither a blank nor the end of an array. -/
theorem exists_compact_eq (v : Value) :
    ∃ c rest, compact v = c :: rest ∧ isBlank c = false ∧ c ≠ ']' := by
  match v with
  | .integer n =>
    obtain ⟨c, rest, heq, hc⟩ := exists_integerText_eq n
    obtain ⟨hblank, hnone⟩ := not_of_beginsNumber hc
    refine ⟨c, rest, heq, hblank, ?_⟩
    rintro rfl
    exact hnone (by decide)
  | .null | .bool true | .bool false | .fraction | .string s | .array [] | .array (v :: vs)
  | .object [] | .object ((key, v) :: members) => exact ⟨_, _, rfl, by decide, by decide⟩

/-! ## Reading a value -/

/-- A value that begins like a number is read as one. -/
theorem readValue_number (fuel : Nat) {c : Char} (h : c = '-' ∨ c.isDigit = true)
    (s : List Char) : readValue (fuel + 1) (c :: s) = readNumber? (c :: s) := by
  obtain ⟨hblank, hnone⟩ := not_of_beginsNumber h
  rw [readValue, skipBlanks_cons hblank]
  split <;> simp_all

theorem exists_quoted_eq (s : String) (rest : List Char) :
    ∃ text, quoted s ++ rest = '"' :: text ∧
      readText (text.length + 1) text = some (some s.toList, rest) := by
  refine ⟨s.toList.flatMap escapedChar ++ '"' :: rest, ?_, ?_⟩
  · rw [quoted, List.cons_append, List.append_assoc, List.singleton_append]
  · apply readText_flatMap
    have hle := length_le_flatMap_escapedChar s.toList
    rw [List.length_append]
    omega

theorem readValue_string (fuel : Nat) (s : String) (rest : List Char) :
    readValue (fuel + 1) (quoted s ++ rest) = some (.string (some s), rest) := by
  obtain ⟨text, heq, htext⟩ := exists_quoted_eq s rest
  rw [heq, readValue, skipBlanks_cons (by decide)]
  simp only [htext, Option.bind_eq_bind, Option.bind_some, Option.map_some, String.ofList_toList]
  rfl

theorem readValue_array (fuel : Nat) (v : Value) (tail : List Char) :
    readValue (fuel + 1) ('[' :: (compact v ++ tail)) =
      (readElements fuel (compact v ++ tail)).map fun (vs, rest) => (.array vs, rest) := by
  obtain ⟨c, s, heq, hblank, hc⟩ := exists_compact_eq v
  rw [readValue, skipBlanks_cons (by decide)]
  simp only [heq, List.cons_append, skipBlanks_cons hblank]
  split
  · next heq' => exact absurd (List.cons.inj heq').1 hc
  · rw [Option.map_eq_bind]
    rfl

theorem readValue_object (fuel : Nat) (key : String) (s : List Char) :
    readValue (fuel + 1) ('\x7b' :: (quoted key ++ s)) =
      (readMembers fuel (quoted key ++ s)).map fun (members, rest) => (.object members, rest) := by
  obtain ⟨text, heq, -⟩ := exists_quoted_eq key s
  have hquote : isBlank '"' = false := by decide
  rw [heq, readValue, skipBlanks_cons (by decide)]
  simp only [skipBlanks_cons hquote]
  rw [Option.map_eq_bind]
  rfl

theorem readElements_last {fuel : Nat} {s rest : List Char} {v : Value}
    (h : readValue fuel s = some (v, ']' :: rest)) :
    readElements (fuel + 1) s = some ([v], rest) := by
  rw [readElements, h]
  rfl

theorem readElements_next {fuel : Nat} {s rest : List Char} {v : Value}
    (h : readValue fuel s = some (v, ',' :: rest)) :
    readElements (fuel + 1) s = (readElements fuel rest).map fun (vs, rest) => (v :: vs, rest) := by
  have hcomma : skipBlanks (',' :: rest) = ',' :: rest := rfl
  rw [readElements, h]
  simp only [Option.bind_eq_bind, Option.bind_some, hcomma]
  rw [Option.map_eq_bind]
  rfl

theorem readMembers_last {fuel : Nat} {s rest : List Char} {v : Value} (key : String)
    (h : readValue fuel s = some (v, '\x7d' :: rest)) :
    readMembers (fuel + 1) (quoted key ++ ':' :: s) = some ([(some key, v)], rest) := by
  obtain ⟨text, heq, htext⟩ := exists_quoted_eq key (':' :: s)
  have hcolon : skipBlanks (':' :: s) = ':' :: s := rfl
  have hbrace : skipBlanks ('\x7d' :: rest) = '\x7d' :: rest := rfl
  rw [heq, readMembers, skipBlanks_cons (by decide)]
  simp only [htext, h, hcolon, hbrace, Option.bind_eq_bind, Option.bind_some, Option.map_some,
    String.ofList_toList]
  rfl

theorem readMembers_next {fuel : Nat} {s rest : List Char} {v : Value} (key : String)
    (h : readValue fuel s = some (v, ',' :: rest)) :
    readMembers (fuel + 1) (quoted key ++ ':' :: s) =
      (readMembers fuel rest).map fun (members, rest) => ((some key, v) :: members, rest) := by
  obtain ⟨text, heq, htext⟩ := exists_quoted_eq key (':' :: s)
  have hcolon : skipBlanks (':' :: s) = ':' :: s := rfl
  have hcomma : skipBlanks (',' :: rest) = ',' :: rest := rfl
  rw [heq, readMembers, skipBlanks_cons (by decide)]
  simp only [htext, h, hcolon, hcomma, Option.bind_eq_bind, Option.bind_some, Option.map_some,
    String.ofList_toList]
  rw [Option.map_eq_bind]
  rfl

mutual

/-- A value is read back from its compact form, whatever stands after it. -/
theorem readValue_compact (fuel : Nat) (v : Value) (hv : v.IsWhole)
    (hfuel : 2 * (compact v).length ≤ fuel) {rest : List Char} (hend : EndsNumber rest) :
    readValue fuel (compact v ++ rest) = some (v, rest) := by
  obtain ⟨c, s, heq, -⟩ := exists_compact_eq v
  obtain ⟨fuel, rfl⟩ : ∃ n, fuel = n + 1 := by
    refine ⟨fuel - 1, ?_⟩
    rw [heq, List.length_cons] at hfuel
    omega
  match v with
  | .null => rfl
  | .bool true => rfl
  | .bool false => rfl
  | .integer n =>
    obtain ⟨c, s, heq, hc⟩ := exists_integerText_eq n
    have hread := readNumber?_integerText n hend
    rw [heq, List.cons_append] at hread
    rw [compact, heq, List.cons_append, readValue_number fuel hc, hread]
  | .string s =>
    obtain ⟨s, rfl⟩ := Option.isSome_iff_exists.mp hv
    exact readValue_string fuel s rest
  | .array [] => rfl
  | .array (v :: vs) =>
    rw [Value.IsWhole] at hv
    rw [compact, List.length_cons, List.length_append] at hfuel
    rw [compact, List.cons_append, List.append_assoc, readValue_array,
      readElements_compact fuel v vs hv (by omega)]
    rfl
  | .object [] => rfl
  | .object ((key, v) :: members) =>
    rw [Value.IsWhole] at hv
    rw [compact, List.length_cons] at hfuel
    have hread := readMembers_compact fuel key v members hv (by omega) rest
    rw [List.append_assoc] at hread
    rw [compact, List.cons_append, List.append_assoc, readValue_object, hread]
    rfl

theorem readElements_compact (fuel : Nat) (v : Value) (vs : List Value)
    (hv : ElementsAreWhole (v :: vs))
    (hfuel : 2 * ((compact v).length + (compactElements vs).length) < fuel) (rest : List Char) :
    readElements fuel (compact v ++ (compactElements vs ++ rest)) = some (v :: vs, rest) := by
  obtain ⟨fuel, rfl⟩ := Nat.exists_eq_add_one_of_ne_zero (Nat.ne_zero_of_lt hfuel)
  obtain ⟨hv, hvs⟩ := hv
  match vs with
  | [] =>
    have hread := readValue_compact fuel v hv (by omega) (endsNumber_cons (.inr (.inl rfl)) rest)
    exact readElements_last hread
  | v' :: vs =>
    rw [compactElements, List.length_cons, List.length_append] at hfuel
    have hread := readValue_compact fuel v hv (by omega)
      (endsNumber_cons (.inl rfl) (compact v' ++ compactElements vs ++ rest))
    have hnext := readElements_compact fuel v' vs hvs (by omega) rest
    rw [← List.append_assoc] at hnext
    rw [compactElements, List.cons_append, readElements_next hread, hnext]
    rfl

theorem readMembers_compact (fuel : Nat) (key : Option String) (v : Value)
    (members : List (Option String × Value)) (hv : MembersAreWhole ((key, v) :: members))
    (hfuel : 2 * (quoted (key.getD "") ++
      ':' :: (compact v ++ compactMembers members)).length < fuel + 1) (rest : List Char) :
    readMembers fuel (quoted (key.getD "") ++ ':' :: (compact v ++ compactMembers members) ++
      rest) = some ((key, v) :: members, rest) := by
  obtain ⟨hkey, hv, hmembers⟩ := hv
  obtain ⟨key, rfl⟩ := Option.isSome_iff_exists.mp hkey
  rw [Option.getD_some, List.length_append, List.length_cons, List.length_append] at hfuel
  obtain ⟨fuel, rfl⟩ : ∃ n, fuel = n + 1 := ⟨fuel - 1, by omega⟩
  rw [Option.getD_some, List.append_assoc, List.cons_append, List.append_assoc]
  match members with
  | [] =>
    have hread := readValue_compact fuel v hv (by omega) (endsNumber_cons (.inr (.inr rfl)) rest)
    exact readMembers_last key hread
  | (key', v') :: members =>
    rw [compactMembers, List.length_cons] at hfuel
    have hread := readValue_compact fuel v hv (by omega) (endsNumber_cons (.inl rfl)
      (quoted (key'.getD "") ++ ':' :: (compact v' ++ compactMembers members) ++ rest))
    have hnext := readMembers_compact fuel key' v' members hmembers (by omega) rest
    rw [compactMembers, List.cons_append, readMembers_next key hread, hnext]
    rfl

end

/-- The text of a value holds the value and nothing else. -/
theorem ofText?_compactText (v : Value) (hv : v.IsWhole) :
    Value.ofText? v.compactText = some v := by
  have hread := readValue_compact (2 * (compact v).length + 2) v hv (by omega) endsNumber_nil
  rw [List.append_nil] at hread
  rw [Value.ofText?, Value.compactText, String.toList_ofList]
  simp only [hread, Option.bind_eq_bind, Option.bind_some]
  rfl

/-! ## Whole values -/

theorem isWhole_array {vs : List Value} : (Value.array vs).IsWhole ↔ ∀ v ∈ vs, v.IsWhole := by
  rw [Value.IsWhole]
  induction vs with
  | nil => simp [ElementsAreWhole]
  | cons v vs ih => rw [ElementsAreWhole, ih, List.forall_mem_cons]

theorem isWhole_record {members : List (String × Value)} :
    (Value.record members).IsWhole ↔ ∀ m ∈ members, m.2.IsWhole := by
  rw [Value.record, Value.IsWhole]
  induction members with
  | nil => simp [MembersAreWhole]
  | cons m members ih =>
    rw [List.map_cons, MembersAreWhole, ih, List.forall_mem_cons]
    exact ⟨fun h => h.2, fun h => ⟨rfl, h⟩⟩

end SchemaBindings.Json
