import Spreadsheet.Text.Digits

/-!
Calendar dates, as definitions write them: `2024-01-31`.
-/
namespace Spreadsheet

structure Date where
  year : Int
  month : Nat
  day : Nat
deriving DecidableEq, Inhabited

namespace Date

def isLeapYear (year : Int) : Bool :=
  year % 4 == 0 && (year % 100 != 0 || year % 400 == 0)

/-- The number of days of a month. -/
def daysIn (year : Int) (month : Nat) : Nat :=
  if month = 2 then (if isLeapYear year then 29 else 28)
  else if [4, 6, 9, 11].contains month then 30
  else 31

/-- Whether the calendar has such a day. -/
def isValid (d : Date) : Bool :=
  1 ≤ d.month && d.month ≤ 12 && 1 ≤ d.day && d.day ≤ daysIn d.year d.month

/-- Reads four digits of year, two of month and two of day with one character between them. -/
def read (s : List Char) : Option Date :=
  let date : Date :=
    { year := Text.digitsValue 0 (s.take 4)
      month := Text.digitsValue 0 ((s.drop 5).take 2)
      day := Text.digitsValue 0 ((s.drop 8).take 2) }
  if date.isValid then some date else none

end Date
end Spreadsheet
