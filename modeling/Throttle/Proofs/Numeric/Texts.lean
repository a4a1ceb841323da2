import Throttle.Proofs.Numeric.Decimals

/-!
# Numbers in texts

A layout of digits is read back as the value that the digits stand for (`Writes`), whether it
is written out in full or with an exponent.  With the digits that the two texts choose this
gives what a caller and a script rely on: a script reads the very number that it is sent
(`scriptRead?_text`), and a token count that a script answers with is read as a finite count that is
not negative (`read?_scriptText`).
-/

namespace Throttle

namespace Decimal

/-! ## Digits -/

/-- Characters that are digits, one of them at least. -/
structure Digits (characters : List Char) : Prop where
  all : ∀ character ∈ characters, character.isDigit = true
  nonempty : characters ≠ []

theorem mem_of_isDigit {character : Char} (hdigit : character.isDigit = true) :
    character ∈ ['0', '1', '2', '3', '4', '5', '6', '7', '8', '9'] := by
  obtain ⟨hlow, hhigh⟩ := Char.isDigit_iff_toNat.mp hdigit
  have hfirst : '0'.toNat = 48 := rfl
  have hlast : '9'.toNat = 57 := rfl
  rw [hfirst] at hlow
  rw [hlast] at hhigh
  rw [← Char.ofNat_toNat character]
  generalize character.toNat = code at hlow hhigh
  revert code
  decide

theorem toLower_of_isDigit {character : Char} (hdigit : character.isDigit = true) :
    character.toLower ≠ 'i' ∧ character.toLower ≠ 'n' := by
  have hmem := mem_of_isDigit hdigit
  simp only [List.mem_cons, List.not_mem_nil, or_false] at hmem
  rcases hmem with rfl | rfl | rfl | rfl | rfl | rfl | rfl | rfl | rfl | rfl <;> simp

/-- The characters of a decimal without an exponent. -/
def isPlain (character : Char) : Bool := character.isDigit || character = '.'

theorem isPlain_of_isDigit {character : Char} (hdigit : character.isDigit = true) :
    isPlain character = true := by
  rw [isPlain, hdigit, Bool.true_or]

theorem toLower_of_isPlain {character : Char} (hplain : isPlain character = true) :
    character.toLower ≠ 'i' ∧ character.toLower ≠ 'n' := by
  rcases Bool.or_eq_true _ _ ▸ hplain with hdigit | hpoint
  · exact toLower_of_isDigit hdigit
  · obtain rfl := of_decide_eq_true hpoint
    exact ⟨by decide, by decide⟩

theorem mem_of_isPlain {character : Char} (hplain : isPlain character = true) :
    character ∈ ['.', '0', '1', '2', '3', '4', '5', '6', '7', '8', '9'] := by
  rcases Bool.or_eq_true _ _ ▸ hplain with hdigit | hpoint
  · exact List.mem_cons_of_mem _ (mem_of_isDigit hdigit)
  · exact List.mem_cons.mpr (Or.inl (of_decide_eq_true hpoint))

theorem digits_digits (number : Nat) : Digits (digits number) where
  all := fun _ hmem => Nat.isDigit_of_mem_toDigits (by decide) (by decide) hmem
  nonempty := Nat.toDigits_ne_nil

theorem ofDigitChars_digits (number : Nat) : Nat.ofDigitChars 10 (digits number) 0 = number :=
  Nat.ofDigitChars_ten_toDigits

theorem Digits.readNatural?_eq {characters : List Char} (hdigits : Digits characters) :
    readNatural? characters = some (Nat.ofDigitChars 10 characters 0) := by
  have hnonempty : characters.isEmpty = false := List.isEmpty_eq_false_iff.mpr hdigits.nonempty
  have hall : characters.all Char.isDigit = true := List.all_eq_true.mpr hdigits.all
  rw [readNatural?, hnonempty, hall]
  rfl

theorem Digits.append_left {first second : List Char} (hfirst : Digits first)
    (hsecond : ∀ character ∈ second, character.isDigit = true) : Digits (first ++ second) where
  all := fun _ hmem => (List.mem_append.mp hmem).elim (hfirst.all _) (hsecond _)
  nonempty := List.append_ne_nil_of_left_ne_nil hfirst.nonempty second

theorem Digits.append_right {first second : List Char} (hsecond : Digits second)
    (hfirst : ∀ character ∈ first, character.isDigit = true) : Digits (first ++ second) where
  all := fun _ hmem => (List.mem_append.mp hmem).elim (hfirst _) (hsecond.all _)
  nonempty := List.append_ne_nil_of_right_ne_nil first hsecond.nonempty

theorem isDigit_of_mem_zeros (count : Nat) :
    ∀ character ∈ zeros count, character.isDigit = true := by
  intro character hmem
  obtain rfl := List.eq_of_mem_replicate hmem
  rfl

theorem ofDigitChars_append_zeros (characters : List Char) (count : Nat) :
    Nat.ofDigitChars 10 (characters ++ zeros count) 0 =
      Nat.ofDigitChars 10 characters 0 * 10 ^ count := by
  rw [Nat.ofDigitChars_append, zeros, Nat.ofDigitChars_replicate_zero, Nat.mul_comm]

theorem ofDigitChars_zeros_append (count : Nat) (characters : List Char) :
    Nat.ofDigitChars 10 (zeros count ++ characters) 0 = Nat.ofDigitChars 10 characters 0 := by
  rw [Nat.ofDigitChars_append, zeros, Nat.ofDigitChars_replicate_zero, Nat.mul_zero]

/-- Leaving out zeros at the end keeps the value. -/
theorem trimZeros_spec {characters : List Char} (hdigits : Digits characters) (exponent : Int)
    (hpositive : Nat.ofDigitChars 10 characters 0 ≠ 0) :
    Digits (trimZeros characters exponent).1 ∧
      (Nat.ofDigitChars 10 (trimZeros characters exponent).1 0 : Rat) *
          10 ^ (trimZeros characters exponent).2 =
        Nat.ofDigitChars 10 characters 0 * 10 ^ exponent := by
  set trimmed := (characters.reverse.dropWhile (· = '0')).reverse with htrimmed
  have hsplit : characters =
      trimmed ++ zeros (characters.reverse.takeWhile (· = '0')).length := by
    have hzeros : characters.reverse.takeWhile (· = '0') =
        List.replicate (characters.reverse.takeWhile (· = '0')).length '0' :=
      List.eq_replicate_of_mem fun character hmem =>
        of_decide_eq_true (List.mem_takeWhile_imp (p := (· = '0')) hmem)
    have hboth := congrArg List.reverse
      (List.takeWhile_append_dropWhile (p := (· = '0')) (l := characters.reverse))
    rw [List.reverse_append, List.reverse_reverse, hzeros, List.reverse_replicate] at hboth
    exact hboth.symm
  generalize (characters.reverse.takeWhile (· = '0')).length = count at hsplit
  have hvalue := ofDigitChars_append_zeros trimmed count
  rw [← hsplit] at hvalue
  have hlength : characters.length - trimmed.length = count := by
    rw [hsplit, List.length_append, zeros, List.length_replicate, Nat.add_sub_cancel_left]
  have htrim : trimZeros characters exponent = (trimmed, exponent + count) := by
    rw [trimZeros, ← htrimmed, hlength]
  rw [htrim]
  refine ⟨⟨fun character hmem => hdigits.all character ?_, ?_⟩, ?_⟩
  · rw [hsplit]
    exact List.mem_append_left _ hmem
  · intro hempty
    rw [show trimmed = [] from hempty, Nat.ofDigitChars_nil, Nat.zero_mul] at hvalue
    exact hpositive hvalue
  · rw [hvalue, zpow_add₀ (by norm_num), zpow_natCast]
    push_cast
    ring

/-! ## Layouts are read back -/

open Numeral

/-- Characters that are read as a decimal of a value, and begin with a digit. -/
structure Writes (characters : List Char) (value : Rat) : Prop where
  begins : ∃ digit rest, characters = digit :: rest ∧ digit.isDigit = true
  reads : ∀ negative, ∃ (number : Nat) (exponent : Int),
    readDecimal? negative characters = some (.value negative number 10 exponent) ∧
      (number : Rat) * 10 ^ exponent = value

theorem Digits.begins {characters : List Char} (hdigits : Digits characters) (rest : List Char) :
    ∃ digit more, characters ++ rest = digit :: more ∧ digit.isDigit = true := by
  obtain ⟨digit, others, rfl⟩ := List.exists_cons_of_ne_nil hdigits.nonempty
  exact ⟨digit, others ++ rest, rfl, hdigits.all digit (List.mem_cons_self ..)⟩

/-- The text of an exponent, or nothing: it does not go on with digits. -/
structure ExponentText (characters : List Char) (exponent : Int) : Prop where
  stops : ∀ character ∈ characters.head?, character.isDigit = false ∧ character ≠ '.'
  reads : readExponent? (fun mark => mark = 'e' || mark = 'E') characters = some exponent

theorem exponentText_nil : ExponentText [] 0 where
  stops := fun _ hmem => by cases hmem
  reads := rfl

theorem exponentText_padded (exponent : Int) :
    ExponentText ('e' :: paddedExponent exponent) exponent where
  stops := by
    rintro _ ⟨⟩
    decide
  reads := by
    have hsize : readNatural? (if (digits exponent.natAbs).length < 2 then
        '0' :: digits exponent.natAbs else digits exponent.natAbs) = some exponent.natAbs := by
      have hzero := (digits_digits exponent.natAbs).append_right
        (isDigit_of_mem_zeros 1)
      have hvalue := ofDigitChars_zeros_append 1 (digits exponent.natAbs)
      rw [ofDigitChars_digits] at hvalue
      split_ifs
      · exact hzero.readNatural?_eq.trans (congrArg some hvalue)
      · exact readNatural?_digits _
    unfold paddedExponent
    simp only
    generalize (if (digits exponent.natAbs).length < 2 then '0' :: digits exponent.natAbs
      else digits exponent.natAbs) = size at hsize ⊢
    by_cases hnegative : exponent < 0
    · have hvalue : -(exponent.natAbs : Int) = exponent := by omega
      rw [if_pos hnegative]
      simpa only [readExponent?, splitSign, hsize, decide_true, Bool.true_or, if_true,
        Option.bind_eq_bind, Option.bind_some, Option.pure_def, Option.map_some, Option.some.injEq]
    · have hvalue : (exponent.natAbs : Int) = exponent := by omega
      rw [if_neg hnegative]
      simpa only [readExponent?, splitSign, hsize, decide_true, Bool.true_or, if_true,
        Bool.false_eq_true, if_false, Option.bind_eq_bind, Option.bind_some, Option.pure_def,
        Option.map_some, Option.some.injEq]

theorem ExponentText.takeWhile_eq {characters : List Char} {exponent : Int}
    (htext : ExponentText characters exponent) : characters.takeWhile Char.isDigit = [] ∧
      characters.dropWhile Char.isDigit = characters := by
  cases characters with
  | nil => exact ⟨rfl, rfl⟩
  | cons character rest =>
      have hstop := (htext.stops character rfl).1
      exact ⟨List.takeWhile_cons_of_neg (by simp [hstop]),
        List.dropWhile_cons_of_neg (by simp [hstop])⟩

theorem Digits.readDecimal?_eq {whole rest : List Char} {exponent : Int} (hwhole : Digits whole)
    (hrest : ExponentText rest exponent) (negative : Bool) :
    readDecimal? negative (whole ++ rest) =
      some (.value negative (Nat.ofDigitChars 10 whole 0) 10 exponent) := by
  obtain ⟨hrestTake, hrestDrop⟩ := hrest.takeWhile_eq
  have htake : (whole ++ rest).takeWhile Char.isDigit = whole := by
    rw [List.takeWhile_append_of_pos hwhole.all, hrestTake, List.append_nil]
  have hdrop : (whole ++ rest).dropWhile Char.isDigit = rest := by
    rw [List.dropWhile_append_of_pos hwhole.all, hrestDrop]
  have hsplit : splitPoint Char.isDigit (whole ++ rest) = (whole, [], rest) := by
    unfold splitPoint
    simp only
    rw [htake, hdrop]
    split
    · rename_i more
      exact absurd rfl (hrest.stops '.' rfl).2
    · rfl
  unfold readDecimal?
  rw [hsplit]
  simp only [List.append_nil, hwhole.readNatural?_eq, hrest.reads, Option.bind_eq_bind,
    Option.bind_some, List.length_nil, Nat.cast_zero, sub_zero, Option.pure_def]

/-- A point may stand before, between or behind the digits. -/
theorem Digits.readDecimal?_point {whole fraction rest : List Char} {exponent : Int}
    (hdigits : Digits (whole ++ fraction)) (hrest : ExponentText rest exponent) (negative : Bool) :
    readDecimal? negative (whole ++ '.' :: (fraction ++ rest)) =
      some (.value negative (Nat.ofDigitChars 10 (whole ++ fraction) 0) 10
        (exponent - fraction.length)) := by
  obtain ⟨hrestTake, hrestDrop⟩ := hrest.takeWhile_eq
  have hwhole : ∀ character ∈ whole, character.isDigit = true := fun character hmem =>
    hdigits.all character (List.mem_append_left _ hmem)
  have hfraction : ∀ character ∈ fraction, character.isDigit = true := fun character hmem =>
    hdigits.all character (List.mem_append_right _ hmem)
  have htake : (whole ++ '.' :: (fraction ++ rest)).takeWhile Char.isDigit = whole := by
    rw [List.takeWhile_append_of_pos hwhole, List.takeWhile_cons_of_neg (by decide),
      List.append_nil]
  have hdrop : (whole ++ '.' :: (fraction ++ rest)).dropWhile Char.isDigit =
      '.' :: (fraction ++ rest) := by
    rw [List.dropWhile_append_of_pos hwhole, List.dropWhile_cons_of_neg (by decide)]
  have hsplit : splitPoint Char.isDigit (whole ++ '.' :: (fraction ++ rest)) =
      (whole, fraction, rest) := by
    unfold splitPoint
    simp only
    rw [htake, hdrop]
    simp only
    rw [List.takeWhile_append_of_pos hfraction, List.dropWhile_append_of_pos hfraction,
      hrestTake, hrestDrop, List.append_nil]
  unfold readDecimal?
  rw [hsplit]
  simp only [hdigits.readNatural?_eq, hrest.reads, Option.bind_eq_bind, Option.bind_some,
    Option.pure_def]

/-- Digits with an exponent, if any, behind them. -/
theorem Digits.writes {whole rest : List Char} {exponent : Int} (hwhole : Digits whole)
    (hrest : ExponentText rest exponent) :
    Writes (whole ++ rest) (Nat.ofDigitChars 10 whole 0 * 10 ^ exponent) where
  begins := hwhole.begins rest
  reads := fun negative => ⟨_, _, hwhole.readDecimal?_eq hrest negative, rfl⟩

/-- Digits with a point between them and an exponent, if any, behind them. -/
theorem Digits.writes_point {whole fraction rest : List Char} {exponent : Int}
    (hwhole : Digits whole) (hfraction : ∀ character ∈ fraction, character.isDigit = true)
    (hrest : ExponentText rest exponent) :
    Writes (whole ++ '.' :: (fraction ++ rest))
      (Nat.ofDigitChars 10 (whole ++ fraction) 0 * 10 ^ (exponent - fraction.length)) where
  begins := hwhole.begins _
  reads := fun negative =>
    ⟨_, _, (hwhole.append_left hfraction).readDecimal?_point hrest negative, rfl⟩

/-- What is written out in full is read back. -/
theorem writes_positional {characters : List Char} (hdigits : Digits characters)
    (exponent : Int) :
    Writes (positional characters exponent)
      (Nat.ofDigitChars 10 characters 0 * 10 ^ exponent) := by
  unfold positional
  simp only
  split_ifs with hwhole hpoint
  · have hwritten := (hdigits.append_left (isDigit_of_mem_zeros (exponent.toNat))).writes
      exponentText_nil
    rw [List.append_nil, ofDigitChars_append_zeros, zpow_zero, mul_one] at hwritten
    have hpower : (10 : Rat) ^ exponent = 10 ^ exponent.toNat := by
      rw [← zpow_natCast, Int.toNat_of_nonneg hwhole]
    rw [hpower]
    exact_mod_cast hwritten
  · -- the point falls between the digits
    set places := (-exponent).toNat with hplaces
    have hleft : Digits (characters.take (characters.length - places)) := by
      refine ⟨fun character hmem => hdigits.all character (List.mem_of_mem_take hmem), ?_⟩
      rw [ne_eq, List.take_eq_nil_iff]
      exact fun hnone => hnone.elim (fun hzero => by omega) hdigits.nonempty
    have hwritten := hleft.writes_point (fun character hmem =>
      hdigits.all character (List.mem_of_mem_drop (i := characters.length - places) hmem))
      exponentText_nil
    have hlength : (0 : Int) - (characters.drop (characters.length - places)).length =
        exponent := by
      rw [List.length_drop]
      omega
    rwa [List.append_nil, List.take_append_drop, hlength] at hwritten
  · -- all digits stand behind the point
    set places := (-exponent).toNat with hplaces
    have hwritten := (show Digits ['0'] from digits_digits 0).writes_point
      (hdigits.append_right (isDigit_of_mem_zeros (places - characters.length))).all
      exponentText_nil
    have hlength : (0 : Int) - (zeros (places - characters.length) ++ characters).length =
        exponent := by
      rw [List.length_append, zeros, List.length_replicate]
      omega
    have hvalue : Nat.ofDigitChars 10
        (['0'] ++ (zeros (places - characters.length) ++ characters)) 0 =
          Nat.ofDigitChars 10 characters 0 := by
      rw [← ofDigitChars_zeros_append (places - characters.length) characters,
        ← ofDigitChars_zeros_append 1]
      rfl
    rw [List.append_nil, hvalue, hlength] at hwritten
    exact hwritten

/-- What is written with an exponent is read back. -/
theorem writes_scientific {characters : List Char} (hdigits : Digits characters)
    (exponent : Int) :
    Writes (scientific paddedExponent characters exponent)
      (Nat.ofDigitChars 10 characters 0 * 10 ^ exponent) := by
  obtain ⟨digit, others, rfl⟩ := List.exists_cons_of_ne_nil hdigits.nonempty
  have hfirst : Digits [digit] :=
    ⟨fun character hmem => hdigits.all character (by simp_all), List.cons_ne_nil _ _⟩
  unfold scientific
  simp only
  set leading := exponent + (digit :: others).length - 1 with hleading
  cases others with
  | nil =>
      have hwritten := hfirst.writes (exponentText_padded leading)
      have hplace : leading = exponent := by
        rw [hleading, List.length_singleton]
        omega
      rw [hplace] at hwritten ⊢
      exact hwritten
  | cons second rest =>
      have hwritten := hfirst.writes_point
        (fun character hmem => hdigits.all character (List.mem_cons_of_mem digit hmem))
        (exponentText_padded leading)
      have hplace : leading - (second :: rest).length = exponent := by
        rw [hleading, List.length_cons]
        push_cast
        ring
      rw [hplace] at hwritten
      exact hwritten

/-! ## Signs -/

/-- Characters behind a minus sign, if it is there. -/
def withSign (negative : Bool) (characters : List Char) : List Char :=
  if negative then '-' :: characters else characters

variable {characters : List Char} {value : Rat}

theorem splitSign_withSign (hwrites : Writes characters value) (negative : Bool) :
    splitSign (withSign negative characters) = (negative, characters) := by
  obtain ⟨digit, rest, rfl, hdigit⟩ := hwrites.begins
  cases negative with
  | true => rfl
  | false =>
      have hmem := mem_of_isDigit hdigit
      simp only [List.mem_cons, List.not_mem_nil, or_false] at hmem
      rcases hmem with rfl | rfl | rfl | rfl | rfl | rfl | rfl | rfl | rfl | rfl <;> rfl

/-- A word begins with a letter. -/
theorem readWord?_eq_none_of_isPlain {first : Char} (hfirst : isPlain first = true)
    (rest : List Char) (negative : Bool) : Numeral.readWord? negative (first :: rest) = none := by
  have hletters := toLower_of_isPlain hfirst
  have hword : ∀ word : String, word.toList.head? = some 'i' ∨ word.toList.head? = some 'n' →
      String.ofList ((first :: rest).map Char.toLower) ≠ word := by
    rintro word hhead rfl
    rw [String.toList_ofList, List.map_cons, List.head?_cons, Option.some.injEq,
      Option.some.injEq] at hhead
    exact hhead.elim hletters.1 hletters.2
  unfold Numeral.readWord?
  simp only
  rw [if_neg (not_or.mpr ⟨hword "inf" (Or.inl rfl), hword "infinity" (Or.inl rfl)⟩),
    if_neg (hword "nan" (Or.inr rfl))]

theorem readWord?_eq_none (hwrites : Writes characters value) (negative : Bool) :
    Numeral.readWord? negative characters = none := by
  obtain ⟨digit, rest, rfl, hdigit⟩ := hwrites.begins
  exact readWord?_eq_none_of_isPlain (isPlain_of_isDigit hdigit) rest negative

/-- A remark begins with a letter. -/
theorem readRemark?_eq_none (hwrites : Writes characters value) (negative : Bool) :
    readRemark? negative characters = none := by
  obtain ⟨digit, rest, rfl, hdigit⟩ := hwrites.begins
  unfold readRemark?
  rw [List.map_cons]
  split
  · rename_i heq
    exact absurd (List.cons.inj heq).1 (toLower_of_isDigit hdigit).2
  · rfl

theorem Writes.read?_eq (hwrites : Writes characters value) (negative : Bool) :
    Numeral.read? (String.ofList (withSign negative characters)) =
      readDecimal? negative characters := by
  unfold Numeral.read?
  rw [String.toList_ofList, splitSign_withSign hwrites]
  simp only
  rw [readWord?_eq_none hwrites, Option.none_or]

/-- The lenient reader finds nothing to leave out. -/
theorem Writes.readLenient?_eq (hwrites : Writes characters value)
    (hplain : ∀ character ∈ characters, isPlain character = true) (negative : Bool) :
    readLenient? (String.ofList (withSign negative characters)) =
      readDecimal? negative characters := by
  have hkept : ∀ character ∈ withSign negative characters,
      character ≠ '\x00' ∧ isBlank character = false := by
    intro character hmem
    have hchoices : character ∈ '-' :: ['.', '0', '1', '2', '3', '4', '5', '6', '7', '8', '9'] := by
      cases negative with
      | false => exact List.mem_cons_of_mem _ (mem_of_isPlain (hplain character hmem))
      | true =>
          rcases List.mem_cons.mp hmem with rfl | hrest
          · exact List.mem_cons_self ..
          · exact List.mem_cons_of_mem _ (mem_of_isPlain (hplain character hrest))
    simp only [List.mem_cons, List.not_mem_nil, or_false] at hchoices
    rcases hchoices with rfl | rfl | rfl | rfl | rfl | rfl | rfl | rfl | rfl | rfl | rfl | rfl <;>
      exact ⟨by decide, rfl⟩
  have htake : (withSign negative characters).takeWhile (· ≠ '\x00') =
      withSign negative characters :=
    List.takeWhile_eq_self_iff.mpr fun character hmem => decide_eq_true (hkept character hmem).1
  have hdrop : ∀ kept : List Char, (∀ character ∈ kept, isBlank character = false) →
      kept.dropWhile isBlank = kept := by
    intro kept hnone
    cases kept with
    | nil => rfl
    | cons character rest =>
        exact List.dropWhile_cons_of_neg (by simp [hnone character (List.mem_cons_self ..)])
  have hfront := hdrop _ fun character hmem => (hkept character hmem).2
  have hback := hdrop (withSign negative characters).reverse fun character hmem =>
    (hkept character (List.mem_reverse.mp hmem)).2
  unfold readLenient?
  simp only [String.toList_ofList]
  rw [htake, hfront, hback, List.reverse_reverse, splitSign_withSign hwrites]
  simp only
  split
  · rename_i rest
    exact absurd (hplain 'x' (by simp)) (by decide)
  · rename_i rest
    exact absurd (hplain 'X' (by simp)) (by decide)
  · rw [readWord?_eq_none hwrites, readRemark?_eq_none hwrites, Option.none_or, Option.none_or]

theorem isPlain_of_mem_positional {exponent : Int} (hdigits : Digits characters) :
    ∀ character ∈ positional characters exponent, isPlain character = true := by
  have hdigit : ∀ character : Char, character.isDigit = true → isPlain character = true :=
    fun _ => isPlain_of_isDigit
  intro character hmem
  unfold positional at hmem
  simp only at hmem
  split_ifs at hmem
  · rcases List.mem_append.mp hmem with hchosen | hzero
    · exact hdigit _ (hdigits.all _ hchosen)
    · exact hdigit _ (isDigit_of_mem_zeros _ _ hzero)
  · rcases List.mem_append.mp hmem with hleft | hright
    · exact hdigit _ (hdigits.all _ (List.mem_of_mem_take hleft))
    · rcases List.mem_cons.mp hright with rfl | hright
      · rfl
      · exact hdigit _ (hdigits.all _ (List.mem_of_mem_drop hright))
  · rcases List.mem_append.mp hmem with hleft | hright
    · rcases List.mem_cons.mp hleft with rfl | hleft
      · rfl
      · rcases List.mem_cons.mp hleft with rfl | hleft
        · rfl
        · exact hdigit _ (isDigit_of_mem_zeros _ _ hleft)
    · exact hdigit _ (hdigits.all _ hright)

end Decimal

namespace Binary64

open Decimal

variable {magnitude : Fin finiteMagnitudes}

/-! ## The digits of a number -/

theorem nearestMagnitude_of_ofQuotient {negative : Bool} {numerator denominator : Nat}
    (hfinite : ofQuotient negative numerator denominator = finite negative magnitude) :
    nearestMagnitude numerator denominator = magnitude := by
  unfold ofQuotient at hfinite
  simp only at hfinite
  split_ifs at hfinite
  cases hfinite
  rfl

/-- The sign has no part in rounding a decimal. -/
theorem ofDecimal_sign {digits : Nat} {exponent : Int}
    (hread : ofDecimal false digits exponent = finite false magnitude) (negative : Bool) :
    ofDecimal negative digits exponent = finite negative magnitude := by
  rw [ofDecimal_eq_ofQuotient] at hread ⊢
  exact ofQuotient_eq_finite negative (nearestMagnitude_of_ofQuotient hread)

/-- What is chosen because it reads back does read back. -/
theorem ofDecimal_of_nearestReadingBack? {exponent : Int} {chosen : Nat}
    (hchosen : nearestReadingBack? magnitude exponent = some chosen) :
    ofDecimal false chosen exponent = finite false magnitude := by
  unfold nearestReadingBack? at hchosen
  generalize scaled (units magnitude) unitsInOne exponent = quotient at hchosen
  simp only at hchosen
  generalize roundHalfUp quotient.1 quotient.2 = nearer at hchosen
  generalize (if nearer = quotient.1 / quotient.2 then quotient.1 / quotient.2 + 1
    else quotient.1 / quotient.2) = farther at hchosen
  split_ifs at hchosen with hnearer hfarther
  · exact Option.some.inj hchosen ▸ of_decide_eq_true hnearer
  · exact Option.some.inj hchosen ▸ of_decide_eq_true hfarther

/-- **The shortest digits read back to their number.** -/
theorem shortestDigits_spec (hpositive : 0 < magnitude.val) :
    ∃ (chosen : Nat) (exponent : Int),
      shortestDigits magnitude = trimZeros (digits chosen) exponent ∧
        ofDecimal false chosen exponent = finite false magnitude := by
  have hseventeen := ofDecimal_seventeen hpositive
  unfold shortestDigits
  generalize decimalOrder (units magnitude) unitsInOne = order at hseventeen ⊢
  extract_lets _ choice chosen
  refine ⟨chosen.1, chosen.2, rfl, ?_⟩
  rcases hchoice : choice with - | ⟨number, exponent⟩
  · have hfallback : chosen = _ := congrArg (Option.getD · _) hchoice
    rw [hfallback]
    exact hseventeen
  · have hfound : chosen = (number, exponent) := congrArg (Option.getD · _) hchoice
    obtain ⟨index, -, hindex⟩ := List.exists_of_findSome?_eq_some hchoice
    obtain ⟨other, hother, hpair⟩ := Option.map_eq_some_iff.mp hindex
    obtain ⟨rfl, rfl⟩ := Prod.mk.inj hpair
    rw [hfound]
    exact ofDecimal_of_nearestReadingBack? hother

/-- The place of the last of fourteen digits. -/
def fourteenthPlace (magnitude : Fin finiteMagnitudes) : Int :=
  decimalOrder (units magnitude) unitsInOne - 14

/-- The whole number that fourteen digits write. -/
def fourteenDigits (magnitude : Fin finiteMagnitudes) : Nat :=
  nearestMultiple (units magnitude) unitsInOne (fourteenthPlace magnitude)

theorem significantDigits_fourteen (magnitude : Fin finiteMagnitudes) :
    significantDigits 14 magnitude =
      trimZeros (digits (fourteenDigits magnitude)) (fourteenthPlace magnitude) := rfl

/-- Fourteen digits at most double a number, and leave something of it. -/
theorem fourteenDigits_le (hpositive : 0 < magnitude.val) :
    0 < fourteenDigits magnitude ∧
      (fourteenDigits magnitude : Rat) * 10 ^ fourteenthPlace magnitude ≤ 2 * exact magnitude := by
  refine nearestMultiple_le (le_trans ?_ (zpow_order_le hpositive))
  exact zpow_le_zpow_right₀ (by norm_num) (by unfold fourteenthPlace; omega)

theorem ne_zero_of_ofDecimal {chosen : Nat} {exponent : Int} (hpositive : 0 < magnitude.val)
    (hread : ofDecimal false chosen exponent = finite false magnitude) : chosen ≠ 0 := by
  rintro rfl
  unfold ofDecimal at hread
  rw [if_pos rfl] at hread
  cases hread
  exact absurd hpositive (lt_irrefl 0)

/-! ## Texts of numbers -/

theorem plainText_finite (hpositive : 0 < magnitude.val) {characters : List Char} {exponent : Int}
    (hshortest : shortestDigits magnitude = (characters, exponent)) (negative : Bool) :
    plainText (finite negative magnitude) =
      String.ofList (withSign negative (positional characters exponent)) := by
  unfold plainText
  simp only
  rw [if_neg hpositive.ne', hshortest]
  rfl

theorem fourteenDigitText_finite (hpositive : 0 < magnitude.val) {characters : List Char}
    {exponent : Int} (hchosen : significantDigits 14 magnitude = (characters, exponent))
    (negative : Bool) :
    fourteenDigitText (finite negative magnitude) = String.ofList (withSign negative
      (if exponent + characters.length - 1 < -4 ∨ 14 ≤ exponent + characters.length - 1 then
        scientific paddedExponent characters exponent else positional characters exponent)) := by
  unfold fourteenDigitText
  simp only
  rw [if_neg hpositive.ne', hchosen]
  simp only
  split <;> rfl

theorem ofNumeral_value (negative : Bool) (digits : Nat) (exponent : Int) :
    ofNumeral (.value negative digits 10 exponent) = ofDecimal negative digits exponent := by
  unfold ofNumeral
  simp only
  rw [if_neg (by decide)]

/-- A text in full is what a script reads it as. -/
theorem scriptRead?_positional {chosen : Nat} {exponent place : Int} {characters : List Char}
    (hchosen : chosen ≠ 0)
    (htrim : trimZeros (digits chosen) exponent = (characters, place)) (negative : Bool) :
    (Quantity.scriptRead? (String.ofList (withSign negative (positional characters place))) :
      Option Binary64) = some (ofDecimal negative chosen exponent) := by
  obtain ⟨hdigits, hvalue⟩ := trimZeros_spec (digits_digits chosen) exponent
    (by rwa [ofDigitChars_digits])
  rw [htrim, ofDigitChars_digits] at hvalue
  rw [htrim] at hdigits
  have hwrites := writes_positional hdigits place
  obtain ⟨number, power, hread, hsame⟩ := hwrites.reads negative
  change (Numeral.readLenient? _).map ofNumeral = _
  rw [hwrites.readLenient?_eq (isPlain_of_mem_positional hdigits) negative, hread,
    Option.map_some, ofNumeral_value]
  exact congrArg some (ofDecimal_congr negative (hsame.trans hvalue))

/-- **A script reads the number that it is sent.** -/
theorem scriptRead?_text {number : Binary64} (hnumber : ∀ negative, number ≠ nan negative) :
    Quantity.scriptRead? (Quantity.text number) = some number := by
  cases number with
  | nan negative => exact absurd rfl (hnumber negative)
  | infinite negative => cases negative <;> rfl
  | finite negative magnitude =>
      by_cases hzero : magnitude.val = 0
      · obtain rfl : magnitude = ⟨0, by decide⟩ := Fin.ext hzero
        cases negative <;> rfl
      · have hpositive := Nat.pos_of_ne_zero hzero
        obtain ⟨chosen, exponent, hshortest, hread⟩ := shortestDigits_spec hpositive
        rcases htrim : trimZeros (digits chosen) exponent with ⟨characters, place⟩
        change Quantity.scriptRead? (plainText _) = _
        rw [plainText_finite hpositive (hshortest.trans htrim),
          scriptRead?_positional (ne_zero_of_ofDecimal hpositive hread) htrim]
        exact congrArg some (ofDecimal_sign hread negative)

/-- A script reads a whole number as the number nearest to it. -/
theorem scriptRead?_wholeText (whole : Nat) :
    Quantity.scriptRead? (wholeText whole) = some (ofInt whole) := by
  have hdigits := digits_digits whole
  have hwrites := hdigits.writes exponentText_nil
  obtain ⟨number, place, hread, hsame⟩ := hwrites.reads false
  have htext : wholeText whole = String.ofList (withSign false (digits whole ++ [])) := by
    rw [← String.toList_inj, toList_wholeText_natCast, String.toList_ofList, List.append_nil]
    rfl
  have hplain : ∀ character ∈ digits whole ++ [], isPlain character = true := by
    intro character hmem
    rw [List.append_nil] at hmem
    exact isPlain_of_isDigit (hdigits.all character hmem)
  change (Numeral.readLenient? _).map ofNumeral = _
  rw [htext, hwrites.readLenient?_eq hplain false, hread, Option.map_some, ofNumeral_value,
    ← ofDecimal_whole]
  refine congrArg some (ofDecimal_congr false ?_)
  rw [hsame, ofDigitChars_digits]

/-- **The text that a script answers with is read as its fourteen digits.** -/
theorem read?_scriptText_eq (hpositive : 0 < magnitude.val) (negative : Bool) :
    Quantity.read? (Quantity.scriptText (finite negative magnitude)) =
      some (ofDecimal negative (fourteenDigits magnitude) (fourteenthPlace magnitude)) := by
  obtain ⟨hsome, -⟩ := fourteenDigits_le hpositive
  rcases htrim : trimZeros (digits (fourteenDigits magnitude)) (fourteenthPlace magnitude) with
    ⟨chosen, power⟩
  obtain ⟨hdigits, hvalue⟩ := trimZeros_spec (digits_digits (fourteenDigits magnitude))
    (fourteenthPlace magnitude) (by rw [ofDigitChars_digits]; exact hsome.ne')
  rw [htrim, ofDigitChars_digits] at hvalue
  rw [htrim] at hdigits
  obtain ⟨characters, hwrites, htext⟩ : ∃ characters,
      Writes characters ((fourteenDigits magnitude : Rat) * 10 ^ fourteenthPlace magnitude) ∧
        fourteenDigitText (finite negative magnitude) =
          String.ofList (withSign negative characters) := by
    refine ⟨_, ?_, fourteenDigitText_finite hpositive
      ((significantDigits_fourteen magnitude).trans htrim) negative⟩
    rw [← hvalue]
    split
    · exact writes_scientific hdigits power
    · exact writes_positional hdigits power
  obtain ⟨number, place, hread, hsame⟩ := hwrites.reads negative
  change (Numeral.read? (fourteenDigitText _)).map ofNumeral = _
  rw [htext, hwrites.read?_eq negative, hread, Option.map_some, ofNumeral_value]
  exact congrArg some (ofDecimal_congr negative hsame)

/-- A decimal against a magnitude, in units. -/
theorem mul_zpow_le_exact_iff {digits bound : Nat} {exponent : Int} :
    (digits : Rat) * 10 ^ exponent ≤ exact bound ↔
      digits * tenTo exponent.toNat * unitsInOne ≤ units bound * tenTo (-exponent).toNat := by
  have hden : (0 : Rat) < tenTo (-exponent).toNat := by exact_mod_cast tenTo_pos _
  rw [exact, le_div_iff₀ unitsInOne_ratio_pos, tenTo_zpow, mul_div_assoc', div_mul_eq_mul_div,
    div_le_iff₀ hden]
  exact_mod_cast Iff.rfl

theorem exact_le_mul_zpow_iff {digits bound : Nat} {exponent : Int} :
    exact bound ≤ (digits : Rat) * 10 ^ exponent ↔
      units bound * tenTo (-exponent).toNat ≤ digits * tenTo exponent.toNat * unitsInOne := by
  have hden : (0 : Rat) < tenTo (-exponent).toNat := by exact_mod_cast tenTo_pos _
  rw [exact, div_le_iff₀ unitsInOne_ratio_pos, tenTo_zpow, mul_div_assoc', div_mul_eq_mul_div,
    le_div_iff₀ hden]
  exact_mod_cast Iff.rfl

/-- A decimal that is not beyond a magnitude is read as the magnitude nearest to it. -/
theorem ofDecimal_of_le (negative : Bool) {digits : Nat} {exponent : Int}
    {bound : Fin finiteMagnitudes} (hle : (digits : Rat) * 10 ^ exponent ≤ exact bound) :
    ∃ read : Fin finiteMagnitudes,
      nearestMagnitude (digits * tenTo exponent.toNat * unitsInOne) (tenTo (-exponent).toNat) =
        read ∧
      ofDecimal negative digits exponent = finite negative read := by
  obtain ⟨read, -, hnearest, hfinite⟩ :=
    ofQuotient_of_le negative (tenTo_pos _) (mul_zpow_le_exact_iff.mp hle)
  exact ⟨read, hnearest, (ofDecimal_eq_ofQuotient ..).trans hfinite⟩

/-- The number that fourteen digits show. -/
def fourteen (magnitude : Fin finiteMagnitudes) : Rat :=
  fourteenDigits magnitude * 10 ^ fourteenthPlace magnitude

theorem exact_zero : exact 0 = 0 := by
  rw [exact, units_zero, Nat.cast_zero, zero_div]

theorem fourteen_zero : fourteen ⟨0, by decide⟩ = 0 := by
  have hdigits : fourteenDigits ⟨0, by decide⟩ = 0 := by
    unfold fourteenDigits nearestMultiple scaled
    simp only [units_zero, Nat.zero_mul]
    split_ifs <;> simp [roundHalfEven]
  rw [fourteen, hdigits, Nat.cast_zero, zero_mul]

/-- **The text that a script answers with is read as the number nearest to its digits**, for every
count that is not beyond `2 ^ 64`. -/
theorem read?_scriptText (hcount : units magnitude ≤ twoTo 64 * unitsInOne) :
    ∃ read : Fin finiteMagnitudes,
      Quantity.read? (Quantity.scriptText (finite false magnitude)) = some (finite false read) ∧
        (∀ bound : Nat, fourteen magnitude ≤ exact bound → read ≤ bound) ∧
        ∀ bound : Nat, exact bound ≤ fourteen magnitude → bound ≤ read := by
  by_cases hzero : magnitude.val = 0
  · obtain rfl : magnitude = ⟨0, by decide⟩ := Fin.ext hzero
    refine ⟨⟨0, by decide⟩, rfl, fun bound _ => Nat.zero_le bound, fun bound hle => ?_⟩
    rw [fourteen_zero, ← exact_zero] at hle
    exact exact_strictMono.le_iff_le.mp hle
  · have hpositive := Nat.pos_of_ne_zero hzero
    obtain ⟨-, hdouble⟩ := fourteenDigits_le hpositive
    obtain ⟨bound, hbound⟩ := exists_magnitude_of_whole (show 1 ≤ 2 * twoTo 52 by decide)
      (show 65 ≤ 970 by decide)
    have hsize : exact magnitude ≤ twoTo 64 := by
      rw [exact, div_le_iff₀ unitsInOne_ratio_pos]
      exact_mod_cast hcount
    have hwhole : exact bound = 2 * twoTo 64 := by
      rw [exact_of_whole hbound, Nat.one_mul, twoTo_succ 64, Nat.cast_mul, Nat.cast_ofNat]
    obtain ⟨read, hnearest, hfinite⟩ := ofDecimal_of_le false
      (show (fourteenDigits magnitude : Rat) * 10 ^ fourteenthPlace magnitude ≤ exact bound by
        linarith)
    refine ⟨read, by rw [read?_scriptText_eq hpositive, hfinite], fun bound hle => ?_,
      fun bound hle => ?_⟩
    · rw [← hnearest]
      exact nearestMagnitude_le (tenTo_pos _) (mul_zpow_le_exact_iff.mp hle)
    · rw [← hnearest]
      exact le_nearestMagnitude (tenTo_pos _) (exact_le_mul_zpow_iff.mp hle)

end Binary64

end Throttle
