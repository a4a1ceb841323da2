import Throttle.Proofs.Numeric.Texts

/-!
# Which texts are numerals

A numeral is a decimal or a word, with a sign before it or none.  A decimal has digits with at
most one point among them and then, perhaps, a power of ten.  It needs a digit, but the point may
stand at either end.  The words are those for infinity and for no value, in any case.

The grammar is said without the reader (`IsDecimal`, `IsWord`), and the reader accepts what it
describes and nothing else: a decimal is read as its worth (`IsDecimal.reads`), a word as what it
stands for (`IsWord.reads`), and what is read is one of the two (`cases_of_read?`).
-/

namespace Throttle.Decimal

open Numeral

/-! ## The grammar -/

/-- A sign, or none; true means minus. -/
inductive Sign : List Char → Bool → Prop
  | absent : Sign [] false
  | plus : Sign ['+'] false
  | minus : Sign ['-'] true

/-- Digits with at most one point among them, and what they are worth. -/
inductive Pointed : List Char → Rat → Prop
  | whole {digits : List Char} (hdigits : Digits digits) :
      Pointed digits (Nat.ofDigitChars 10 digits 0)
  | point {whole fraction : List Char} (hdigits : Digits (whole ++ fraction)) :
      Pointed (whole ++ '.' :: fraction)
        (Nat.ofDigitChars 10 (whole ++ fraction) 0 / 10 ^ fraction.length)

/-- The exponent of a power of ten behind its mark; nothing stands for the power zero. -/
inductive Power : List Char → Int → Prop
  | absent : Power [] 0
  | marked {mark : Char} {sign digits : List Char} {negative : Bool}
      (hmark : mark = 'e' ∨ mark = 'E') (hsign : Sign sign negative) (hdigits : Digits digits) :
      Power (mark :: (sign ++ digits))
        (if negative then -(Nat.ofDigitChars 10 digits 0 : Int) else Nat.ofDigitChars 10 digits 0)

/-- A decimal, whether it has a minus sign, and its size without the sign. -/
inductive IsDecimal : List Char → Bool → Rat → Prop
  | intro {sign pointed power : List Char} {negative : Bool} {worth : Rat} {exponent : Int}
      (hsign : Sign sign negative) (hpointed : Pointed pointed worth)
      (hpower : Power power exponent) :
      IsDecimal (sign ++ (pointed ++ power)) negative (worth * 10 ^ exponent)

/-- One of some words, its letters in any case, and whether it has a minus sign. -/
inductive IsWord (words : List String) : List Char → Bool → Prop
  | intro {sign letters : List Char} {negative : Bool} {word : String}
      (hsign : Sign sign negative) (hword : word ∈ words)
      (hletters : letters.map Char.toLower = word.toList) :
      IsWord words (sign ++ letters) negative

/-- The words for infinity. -/
def infinityWords : List String := ["inf", "infinity"]

/-- The word for no value. -/
def noValueWords : List String := ["nan"]

variable {characters rest : List Char} {negative : Bool} {numeral : Numeral}

/-! ## Signs -/

/-- A sign is taken off, whatever follows; where there is none, nothing that follows is one. -/
theorem Sign.splitSign_eq {sign : List Char} (hsign : Sign sign negative)
    (hrest : ∀ first ∈ rest.head?, first ≠ '-' ∧ first ≠ '+') :
    splitSign (sign ++ rest) = (negative, rest) := by
  cases hsign with
  | plus => rfl
  | minus => rfl
  | absent =>
      rw [List.nil_append]
      unfold splitSign
      split
      · exact absurd rfl (hrest '-' rfl).1
      · exact absurd rfl (hrest '+' rfl).2
      · rfl

/-- What is taken off the front is a sign. -/
theorem sign_of_splitSign (hsplit : splitSign characters = (negative, rest)) :
    ∃ sign, characters = sign ++ rest ∧ Sign sign negative := by
  unfold splitSign at hsplit
  split at hsplit
  · cases hsplit
    exact ⟨['-'], rfl, .minus⟩
  · cases hsplit
    exact ⟨['+'], rfl, .plus⟩
  · cases hsplit
    exact ⟨[], rfl, .absent⟩

theorem ne_sign_of_isPlain {character : Char} (hplain : isPlain character = true) :
    character ≠ '-' ∧ character ≠ '+' := by
  constructor <;> rintro rfl <;> exact absurd hplain (by decide)

/-! ## Powers of ten -/

theorem digits_of_readNatural? {number : Nat} (hread : readNatural? characters = some number) :
    Digits characters ∧ number = Nat.ofDigitChars 10 characters 0 := by
  unfold readNatural? at hread
  split_ifs at hread with hdigits
  obtain ⟨hnonempty, hall⟩ := Bool.and_eq_true_iff.mp hdigits
  refine ⟨⟨List.all_eq_true.mp hall, ?_⟩, (Option.some.inj hread).symm⟩
  rintro rfl
  exact absurd hnonempty (by decide)

theorem Power.exponentText {power : List Char} {exponent : Int} (hpower : Power power exponent) :
    ExponentText power exponent := by
  cases hpower with
  | absent => exact exponentText_nil
  | @marked mark sign digits negative hmark hsign hdigits =>
      refine ⟨?_, ?_⟩
      · rintro _ ⟨⟩
        rcases hmark with rfl | rfl <;> exact ⟨by decide, by decide⟩
      · have hsplit : splitSign (sign ++ digits) = (negative, digits) :=
          hsign.splitSign_eq fun first hfirst => ne_sign_of_isPlain
            (isPlain_of_isDigit (hdigits.all first (List.mem_of_mem_head? hfirst)))
        have hmarked : (decide (mark = 'e') || decide (mark = 'E')) = true := by
          simpa using hmark
        unfold readExponent?
        simp only [hmarked, if_true, hsplit, hdigits.readNatural?_eq, Option.bind_eq_bind,
          Option.bind_some, Option.pure_def, Option.map_some]

theorem power_of_readExponent? {power : List Char} {exponent : Int}
    (hread : readExponent? (fun mark => mark = 'e' || mark = 'E') power = some exponent) :
    Power power exponent := by
  cases power with
  | nil =>
      cases hread
      exact .absent
  | cons mark rest =>
      rcases hsplit : splitSign rest with ⟨negative, digits⟩
      unfold readExponent? at hread
      simp only [hsplit, Option.bind_eq_bind, Option.pure_def] at hread
      by_cases hmark : mark = 'e' ∨ mark = 'E'
      · rw [if_pos (by simpa using hmark)] at hread
        obtain ⟨whole, hwhole, hexponent⟩ := Option.map_eq_some_iff.mp hread
        obtain ⟨size, hsize, hcast⟩ := Option.bind_eq_some_iff.mp hwhole
        obtain ⟨hdigits, rfl⟩ := digits_of_readNatural? hsize
        obtain ⟨sign, rfl, hsign⟩ := sign_of_splitSign hsplit
        obtain rfl := Option.some.inj hcast
        rw [← hexponent]
        exact .marked hmark hsign hdigits
      · rw [if_neg (by simpa using hmark)] at hread
        cases hread

/-! ## Decimals -/

theorem Pointed.begins {pointed : List Char} {worth : Rat} (hpointed : Pointed pointed worth)
    (power : List Char) :
    ∃ first more, pointed ++ power = first :: more ∧ isPlain first = true := by
  cases hpointed with
  | whole hdigits =>
      obtain ⟨digit, more, hbegins, hdigit⟩ := hdigits.begins power
      exact ⟨digit, more, hbegins, isPlain_of_isDigit hdigit⟩
  | @point whole fraction hdigits =>
      cases whole with
      | nil => exact ⟨'.', fraction ++ power, rfl, rfl⟩
      | cons digit others =>
          exact ⟨digit, _, rfl, isPlain_of_isDigit (hdigits.all digit (List.mem_cons_self ..))⟩

theorem Pointed.readDecimal?_eq {pointed power : List Char} {worth : Rat} {exponent : Int}
    (hpointed : Pointed pointed worth) (hpower : Power power exponent) (negative : Bool) :
    ∃ (digits : Nat) (place : Int),
      readDecimal? negative (pointed ++ power) = some (.value negative digits 10 place) ∧
        (digits : Rat) * 10 ^ place = worth * 10 ^ exponent := by
  cases hpointed with
  | whole hdigits => exact ⟨_, _, hdigits.readDecimal?_eq hpower.exponentText negative, rfl⟩
  | @point whole fraction hdigits =>
      have hread := hdigits.readDecimal?_point hpower.exponentText negative
      rw [← List.cons_append, ← List.append_assoc] at hread
      refine ⟨_, _, hread, ?_⟩
      rw [zpow_sub₀ (by norm_num), zpow_natCast, mul_div_assoc', div_mul_eq_mul_div]

theorem pointed_of_readDecimal? (hread : readDecimal? negative characters = some numeral) :
    ∃ (pointed power : List Char) (worth : Rat) (exponent : Int),
      characters = pointed ++ power ∧ Pointed pointed worth ∧ Power power exponent := by
  have hwhole := List.takeWhile_append_dropWhile (p := Char.isDigit) (l := characters)
  unfold readDecimal? splitPoint at hread
  simp only [Option.bind_eq_bind, Option.bind_eq_some_iff] at hread
  obtain ⟨digits, hdigits, exponent, hexponent, -⟩ := hread
  revert hdigits hexponent
  split
  · rename_i behind hbehind
    intro hdigits hexponent
    rw [hbehind] at hwhole
    refine ⟨_, _, _, _, ?_, .point (digits_of_readNatural? hdigits).1,
      power_of_readExponent? hexponent⟩
    rw [List.append_assoc, List.cons_append, List.takeWhile_append_dropWhile]
    exact hwhole.symm
  · intro hdigits hexponent
    rw [List.append_nil] at hdigits
    exact ⟨_, _, _, _, hwhole.symm, .whole (digits_of_readNatural? hdigits).1,
      power_of_readExponent? hexponent⟩

/-- **A decimal is read as what it is worth.** -/
theorem IsDecimal.reads {text : String} {size : Rat}
    (hdecimal : IsDecimal text.toList negative size) :
    ∃ (digits : Nat) (place : Int),
      Numeral.read? text = some (.value negative digits 10 place) ∧
        (digits : Rat) * 10 ^ place = size := by
  unfold Numeral.read?
  generalize text.toList = characters at hdecimal ⊢
  obtain ⟨hsign, hpointed, hpower⟩ := hdecimal
  obtain ⟨digits, place, hread, hworth⟩ := hpointed.readDecimal?_eq hpower negative
  obtain ⟨first, more, hbegins, hplain⟩ := hpointed.begins _
  rw [hbegins] at hread ⊢
  have hfirst : ∀ character ∈ (first :: more).head?, character ≠ '-' ∧ character ≠ '+' := by
    rintro _ ⟨⟩
    exact ne_sign_of_isPlain hplain
  rw [hsign.splitSign_eq hfirst]
  simp only
  rw [readWord?_eq_none_of_isPlain hplain, Option.none_or]
  exact ⟨digits, place, hread, hworth⟩

/-! ## Words -/

/-- What a word reads as. -/
theorem readWord?_eq_some_iff :
    Numeral.readWord? negative characters = some numeral ↔
      ((∃ word ∈ infinityWords, characters.map Char.toLower = word.toList) ∧
        numeral = .infinity negative) ∨
      ((∃ word ∈ noValueWords, characters.map Char.toLower = word.toList) ∧
        numeral = .notANumber negative) := by
  have hsame : ∀ word : String, String.ofList (characters.map Char.toLower) = word ↔
      characters.map Char.toLower = word.toList := by
    intro word
    rw [← String.toList_inj, String.toList_ofList]
  unfold Numeral.readWord? infinityWords noValueWords
  simp only [hsame, List.mem_cons, List.not_mem_nil, or_false, exists_eq_or_imp, exists_eq_left]
  generalize characters.map Char.toLower = lowered
  split_ifs with hinfinity hnan
  · have hother : lowered ≠ "nan".toList := by
      rcases hinfinity with rfl | rfl <;> decide
    rw [Option.some.injEq, eq_comm, and_iff_right hinfinity, or_iff_left fun hnan => hother hnan.1]
  · rw [Option.some.injEq, eq_comm, and_iff_right hnan, or_iff_right fun h => hinfinity h.1]
  · refine iff_of_false nofun ?_
    rintro (⟨hword, -⟩ | ⟨hword, -⟩)
    · exact hinfinity hword
    · exact hnan hword

theorem IsWord.of_append {first second : List String}
    (hword : IsWord (first ++ second) characters negative) :
    IsWord first characters negative ∨ IsWord second characters negative := by
  obtain ⟨hsign, hmem, hletters⟩ := hword
  exact (List.mem_append.mp hmem).imp (.intro hsign · hletters) (.intro hsign · hletters)

/-- Words begin with letters, so the sign before one is taken off. -/
theorem IsWord.splitSign_eq {words : List String} (hword : IsWord words characters negative)
    (hletters : ∀ word ∈ words, ∀ first ∈ word.toList.head?, first.isAlpha = true) :
    ∃ letters, splitSign characters = (negative, letters) ∧
      ∃ word ∈ words, letters.map Char.toLower = word.toList := by
  obtain ⟨hsign, hmem, hlowered⟩ := hword
  refine ⟨_, hsign.splitSign_eq ?_, _, hmem, hlowered⟩
  intro first hfirst
  have hlower : first.toLower.isAlpha = true := by
    refine hletters _ hmem _ ?_
    rw [← hlowered, List.head?_map, Option.mem_def.mp hfirst]
    rfl
  constructor <;> rintro rfl <;> exact absurd hlower (by decide)

/-- **A word is read as what it stands for.** -/
theorem IsWord.reads {text : String} :
    (IsWord infinityWords text.toList negative →
      Numeral.read? text = some (.infinity negative)) ∧
    (IsWord noValueWords text.toList negative →
      Numeral.read? text = some (.notANumber negative)) := by
  unfold Numeral.read?
  generalize text.toList = characters
  constructor <;> intro hword
  · obtain ⟨letters, hsplit, hletters⟩ := hword.splitSign_eq (by simp [infinityWords])
    rw [hsplit]
    simp only
    rw [readWord?_eq_some_iff.mpr (Or.inl ⟨hletters, rfl⟩), Option.some_or]
  · obtain ⟨letters, hsplit, hletters⟩ := hword.splitSign_eq (by simp [noValueWords])
    rw [hsplit]
    simp only
    rw [readWord?_eq_some_iff.mpr (Or.inr ⟨hletters, rfl⟩), Option.some_or]

/-- **What is read is a decimal or a word.** -/
theorem cases_of_read? {text : String} (hread : Numeral.read? text = some numeral) :
    (∃ (negative : Bool) (digits : Nat) (place : Int),
      numeral = .value negative digits 10 place ∧
        IsDecimal text.toList negative (digits * 10 ^ place)) ∨
    (∃ negative, numeral = .infinity negative ∧ IsWord infinityWords text.toList negative) ∨
    ∃ negative, numeral = .notANumber negative ∧ IsWord noValueWords text.toList negative := by
  unfold Numeral.read? at hread
  generalize text.toList = characters at hread ⊢
  rcases hsplit : splitSign characters with ⟨negative, rest⟩
  rw [hsplit] at hread
  simp only at hread
  obtain ⟨sign, rfl, hsign⟩ := sign_of_splitSign hsplit
  rcases Option.or_eq_some_iff.mp hread with hword | ⟨-, hdecimal⟩
  · rcases readWord?_eq_some_iff.mp hword with ⟨⟨word, hmem, hletters⟩, rfl⟩ |
      ⟨⟨word, hmem, hletters⟩, rfl⟩
    · exact Or.inr (Or.inl ⟨negative, rfl, .intro hsign hmem hletters⟩)
    · exact Or.inr (Or.inr ⟨negative, rfl, .intro hsign hmem hletters⟩)
  · obtain ⟨pointed, power, worth, exponent, rfl, hpointed, hpower⟩ :=
      pointed_of_readDecimal? hdecimal
    obtain ⟨digits, place, hsame, hworth⟩ := hpointed.readDecimal?_eq hpower negative
    rw [hdecimal] at hsame
    refine Or.inl ⟨negative, digits, place, Option.some.inj hsame, ?_⟩
    rw [hworth]
    exact .intro hsign hpointed hpower

end Throttle.Decimal
