import TableSchema.Data.JsonReader

/-! Points in time as YAML writes them: a date, or a date and a time of day, perhaps with its
distance from universal time. -/

namespace TableSchema.Data.Yaml

structure Offset where
  negative : Bool
  hours : Nat
  minutes : Nat
  deriving DecidableEq, Repr

/-- A time of day. Fractions of a second do not count. -/
structure Clock where
  hour : Nat
  minute : Nat
  second : Nat
  offset : Option Offset
  deriving DecidableEq, Repr

structure Moment where
  year : Nat
  month : Nat
  day : Nat
  clock : Option Clock
  deriving DecidableEq, Repr

/-! ## Reading -/

def number? (least most : Nat) (text : List Char) : Option (Nat × List Char) :=
  let digits := (text.take most).takeWhile isAsciiDigit
  if digits.length < least then none else some (asciiNumber digits, text.drop digits.length)

def after? (character : Char) : List Char → Option (List Char)
  | first :: rest => if first = character then some rest else none
  | [] => none

def isGap (character : Char) : Bool := character == ' ' || character == '\t'

def readOffset (negative : Bool) (text : List Char) : Option Offset := do
  let (hours, rest) ← number? 1 2 text
  match rest with
  | [] => some ⟨negative, hours, 0⟩
  | rest => do
      let (minutes, rest) ← number? 2 2 (← after? ':' rest)
      if rest.isEmpty then some ⟨negative, hours, minutes⟩ else none

def readZone (text : List Char) : Option (Option Offset) :=
  match text with
  | [] => some none
  | text =>
      match text.dropWhile isGap with
      | ['Z'] => some none
      | '+' :: rest => some <$> readOffset false rest
      | '-' :: rest => some <$> readOffset true rest
      | _ => none

def readClock (text : List Char) : Option Clock := do
  let (hour, rest) ← number? 1 2 text
  let (minute, rest) ← number? 2 2 (← after? ':' rest)
  let (second, rest) ← number? 2 2 (← after? ':' rest)
  let rest := match rest with
    | '.' :: rest => rest.dropWhile isAsciiDigit
    | rest => rest
  some ⟨hour, minute, second, ← readZone rest⟩

def clockText? : List Char → Option (List Char)
  | 'T' :: rest | 't' :: rest => some rest
  | character :: rest => if isGap character then some (rest.dropWhile isGap) else none
  | [] => none

/-- The point in time that a text writes. Month and day have two digits each if the time of day is
left out. -/
def readMoment (text : List Char) : Option Moment := do
  let (year, rest) ← number? 4 4 text
  let monthText ← after? '-' rest
  let (month, rest) ← number? 1 2 monthText
  let dayText ← after? '-' rest
  let (day, rest) ← number? 1 2 dayText
  if rest.isEmpty then
    if text.length = 10 then some ⟨year, month, day, none⟩ else none
  else
    some ⟨year, month, day, some (← readClock (← clockText? rest))⟩

example : readMoment "2024-1-2 3:04:05.6 +1".toList =
    some ⟨2024, 1, 2, some ⟨3, 4, 5, some ⟨false, 1, 0⟩⟩⟩ := by decide +kernel

example : readMoment "2024-1-2".toList = none := by decide +kernel

/-! ## Checking -/

inductive MomentFault where
  | wrongOffset (offset : Offset)
  | wrongYear (year : Nat)
  | wrongMonth
  | wrongDay
  | wrongHour
  | wrongMinute
  | wrongSecond
  deriving DecidableEq, Repr

def isLeapYear (year : Nat) : Bool := year % 4 == 0 && (year % 100 != 0 || year % 400 == 0)

def daysIn (year month : Nat) : Nat :=
  if month = 2 then (if isLeapYear year then 29 else 28)
  else if month ∈ [4, 6, 9, 11] then 30
  else 31

namespace Offset

def size (offset : Offset) : Nat := offset.hours * 60 + offset.minutes

def display (offset : Offset) : String :=
  let seconds : Int := (if offset.negative then -(offset.size : Int) else offset.size) * 60
  let days := seconds / 86400
  let rest := seconds % 86400
  s!"datetime.timedelta(days={days}" ++ (if rest = 0 then ")" else s!", seconds={rest})")

example : (Offset.mk true 25 0).display = "datetime.timedelta(days=-2, seconds=82800)" := by
  decide +kernel

end Offset

def MomentFault.message : MomentFault → String
  | .wrongOffset offset =>
      "offset must be a timedelta strictly between -timedelta(hours=24) and " ++
        s!"timedelta(hours=24), not {offset.display}."
  | .wrongYear year => s!"year {year} is out of range"
  | .wrongMonth => "month must be in 1..12"
  | .wrongDay => "day is out of range for month"
  | .wrongHour => "hour must be in 0..23"
  | .wrongMinute => "minute must be in 0..59"
  | .wrongSecond => "second must be in 0..59"

def Clock.fault? (clock : Clock) : Option MomentFault :=
  if 23 < clock.hour then some .wrongHour
  else if 59 < clock.minute then some .wrongMinute
  else if 59 < clock.second then some .wrongSecond
  else none

def Moment.dateFault? (moment : Moment) : Option MomentFault :=
  if moment.year = 0 then some (.wrongYear moment.year)
  else if moment.month = 0 ∨ 12 < moment.month then some .wrongMonth
  else if moment.day = 0 ∨ daysIn moment.year moment.month < moment.day then some .wrongDay
  else none

def Moment.fault? (moment : Moment) : Option MomentFault :=
  let offset := (moment.clock.bind (·.offset)).filter fun offset => 1440 ≤ offset.size
  (offset.map .wrongOffset).or (moment.dateFault?.or (moment.clock.bind (·.fault?)))

example : (readMoment "2023-02-29".toList).bind (·.fault?) = some .wrongDay := by decide +kernel

end TableSchema.Data.Yaml
