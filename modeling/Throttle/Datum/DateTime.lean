import Throttle.Decimal.Whole

/-!
# Dates and times of day

A date, a time of day, or both with perhaps an offset from universal time, as a text that
names them.  Such a text has one written form: the letters for the time and for no offset in
upper case, no zeros at the end of a fraction of a second and no more than nine places.
-/

namespace Throttle.DateTime

/-- Whether a year has a day more. -/
def isLeapYear (year : Nat) : Bool :=
  (year % 4 = 0 && year % 100 ≠ 0) || year % 400 = 0

/-- The days of a month. -/
def daysIn (year month : Nat) : Nat :=
  if month = 2 then if isLeapYear year then 29 else 28
  else if month = 4 ∨ month = 6 ∨ month = 9 ∨ month = 11 then 30
  else 31

/-- The number that a run of exactly so many digits writes. -/
def readDigits? (count : Nat) (characters : List Char) : Option Nat :=
  if characters.length = count then Decimal.readNatural? characters else none

/-- The written form of a date. -/
def date? (characters : List Char) : Option (List Char) := do
  let year ← readDigits? 4 (characters.take 4)
  let month ← readDigits? 2 ((characters.drop 5).take 2)
  let day ← readDigits? 2 (characters.drop 8)
  if characters[4]? = some '-' ∧ characters[7]? = some '-' ∧ 1 ≤ month ∧ month ≤ 12 ∧ 1 ≤ day ∧
      day ≤ daysIn year month then
    some characters
  else none

/-- The written form of the fraction of a second, its point included. -/
def fraction? : List Char → Option (List Char)
  | [] => some []
  | '.' :: digits => do
    let _ ← Decimal.readNatural? digits
    let kept := ((digits.take 9).reverse.dropWhile (· = '0')).reverse
    return if kept = [] then [] else '.' :: kept
  | _ => none

/-- The written form of a time of day. -/
def time? (characters : List Char) : Option (List Char) := do
  let hour ← readDigits? 2 (characters.take 2)
  let minute ← readDigits? 2 ((characters.drop 3).take 2)
  let second ← readDigits? 2 ((characters.drop 6).take 2)
  let fraction ← fraction? (characters.drop 8)
  if characters[2]? = some ':' ∧ characters[5]? = some ':' ∧ hour ≤ 23 ∧ minute ≤ 59 ∧
      second ≤ 60 then
    some (characters.take 8 ++ fraction)
  else none

/-- The written form of an offset. -/
def offset? : List Char → Option (List Char)
  | ['Z'] => some ['Z']
  | ['z'] => some ['Z']
  | sign :: digits => do
    let hour ← readDigits? 2 (digits.take 2)
    let minute ← readDigits? 2 (digits.drop 3)
    if (sign = '+' ∨ sign = '-') ∧ digits[2]? = some ':' ∧ hour ≤ 23 ∧ minute ≤ 59 then
      some (if hour = 0 ∧ minute = 0 then '+' :: digits else sign :: digits)
    else none
  | [] => none

/-- The written form of a time of day, with an offset if one follows. -/
def timeWithOffset? (characters : List Char) : Option (List Char) :=
  let isMark (character : Char) : Bool :=
    character = 'Z' || character = 'z' || character = '+' || character = '-'
  match characters.dropWhile (!isMark ·) with
  | [] => time? characters
  | mark => do return (← time? (characters.takeWhile (!isMark ·))) ++ (← offset? mark)

/-- The written form of a date, a time of day or both. -/
def read? (characters : List Char) : Option String := do
  let written ←
    if characters[2]? = some ':' then time? characters
    else if characters.length ≤ 10 then date? characters
    else
      let mark := characters[10]?
      if mark = some 'T' ∨ mark = some 't' ∨ mark = some ' ' then
        pure ((← date? (characters.take 10)) ++ 'T' :: (← timeWithOffset? (characters.drop 11)))
      else none
  return String.ofList written

end Throttle.DateTime
