import NodeForge.Number.Numeral
import NodeForge.Text.Quoted

/-!
# Scalars

The values of a document that hold no other values. They are also the keys of its mappings, so
this module fixes when two keys are the same key and how keys are ordered: numbers by their value,
whatever their kind, with `false` and `true` counting as 0 and 1; texts by code points; dates by
the calendar.
-/

namespace NodeForge

/-- A day of the calendar. -/
structure Date where
  year : Nat
  month : Nat
  day : Nat
deriving Repr, DecidableEq

/-- A time of a day, with its distance from universal time in minutes where that is known. -/
structure Moment where
  date : Date
  hour : Nat
  minute : Nat
  second : Nat
  microsecond : Nat
  offset : Option Int
deriving Repr, DecidableEq

/-- A value of a document that holds no other values. -/
inductive Scalar where
  | null
  | bool (b : Bool)
  | int (i : Int)
  | float (x : Float)
  /-- A result that is no number. Such a result is the same as itself, and `which` tells it from the
  others. -/
  | noNumber (which : Nat)
  | str (s : Text)
  | bytes (b : List UInt8)
  | date (d : Date)
  | moment (m : Moment)
deriving Repr, Inhabited

/-! ### Calendar -/

namespace Date

/-- Whether a year has a 29th of February. -/
def isLeap (year : Nat) : Bool := year % 4 == 0 && (year % 100 != 0 || year % 400 == 0)

/-- The number of days of a month. -/
def daysIn (year month : Nat) : Nat :=
  if month == 2 then (if isLeap year then 29 else 28)
  else if month == 4 || month == 6 || month == 9 || month == 11 then 30
  else 31

/-- Whether there is such a day; years start at 1. -/
def isValid (d : Date) : Bool :=
  1 ≤ d.year && 1 ≤ d.month && d.month ≤ 12 && 1 ≤ d.day && d.day ≤ daysIn d.year d.month

/-- The number of a day in the calendar carried on backwards to year 1. -/
def dayNumber (d : Date) : Nat :=
  let y := d.year - 1
  let before := 365 * y + y / 4 - y / 100 + y / 400
  let months := (List.range (d.month - 1)).map fun m => daysIn d.year (m + 1)
  months.foldl (· + ·) before + d.day

/-- The date as `year-month-day`. -/
def text (d : Date) : Text :=
  Numeral.padded 4 d.year ++ "-" ++ Numeral.padded 2 d.month ++ "-" ++ Numeral.padded 2 d.day

/-- The date as a constructor call. -/
def quoted (d : Date) : Text :=
  "datetime.date(" ++ Text.joined ", " ([d.year, d.month, d.day].map Numeral.ofNat) ++ ")"

end Date

namespace Moment

/-- The microseconds from the start of the calendar, in universal time where it is known. -/
def instant (m : Moment) : Int :=
  let seconds : Int := ((m.date.dayNumber * 24 + m.hour) * 60 + m.minute) * 60 + m.second
  (seconds - 60 * m.offset.getD 0) * 1000000 + m.microsecond

/-- Date, time, a fraction unless it is zero, and the offset where it is known. -/
def text (m : Moment) : Text :=
  let fraction : Text :=
    if m.microsecond = 0 then [] else "." ++ Numeral.padded 6 m.microsecond
  let zone : Text :=
    match m.offset with
    | none => []
    | some o => (if o < 0 then "-" else "+") ++ Numeral.padded 2 (o.natAbs / 60) ++ ":" ++
        Numeral.padded 2 (o.natAbs % 60)
  let clock := [m.hour, m.minute, m.second].map (Numeral.padded 2)
  m.date.text ++ " " ++ Text.joined ":" clock ++ fraction ++ zone

/-- The moment as a constructor call; seconds and microseconds are left out where they are
zero. -/
def quoted (m : Moment) : Text :=
  let micro := if m.microsecond = 0 then [] else [m.microsecond]
  let second := if m.second = 0 && micro.isEmpty then [] else [m.second]
  let parts := [m.date.year, m.date.month, m.date.day, m.hour, m.minute] ++ second ++ micro
  let zone : Text :=
    match m.offset with
    | none => []
    | some 0 => ", tzinfo=datetime.timezone.utc"
    | some o =>
      let days := Int.fdiv o 1440
      let seconds := (o - days * 1440) * 60
      let parts : List Text := (if days = 0 then [] else ["days=" ++ Numeral.ofInt days]) ++
        (if seconds = 0 then [] else ["seconds=" ++ Numeral.ofInt seconds])
      ", tzinfo=datetime.timezone(datetime.timedelta(" ++ Text.joined ", " parts ++ "))"
  "datetime.datetime(" ++ Text.joined ", " (parts.map Numeral.ofNat) ++ zone ++ ")"

end Moment

namespace Scalar

/-! ### Sameness and order of keys -/

/-- The place of a number on the line, in exact terms. -/
inductive Place where
  | below
  | at (num : Int) (den : Nat)
  | above
  | nowhere (which : Nat)

/-- Where a number lies; `false` and `true` are 0 and 1. What is no number has no place. -/
def place? : Scalar → Option Place
  | .bool b => some (.at (if b then 1 else 0) 1)
  | .int i => some (.at i 1)
  | .noNumber which => some (.nowhere which)
  | .float x =>
    some <| match Binary64.decode x with
      | .nan => .nowhere 0
      | .infinite negative => if negative then .below else .above
      | .finite negative m q _ =>
        let n : Int := if negative then -(m : Int) else m
        if 0 ≤ q then .at (n * Binary64.twoPow q.toNat) 1
        else .at n (Binary64.twoPow (-q).toNat)
  | _ => none

/-- Whether two places are one. -/
def Place.same : Place → Place → Bool
  | .below, .below | .above, .above => true
  | .nowhere a, .nowhere b => a == b
  | .at n d, .at m e => n * e == m * d
  | _, _ => false

/-- Whether the first place is not to the right of the second. What is nowhere is to the right of
nothing, and nothing is to the right of it. -/
def Place.atMost : Place → Place → Bool
  | .nowhere _, _ | _, .nowhere _ => true
  | .below, _ | _, .above => true
  | .at n d, .at m e => decide (n * e ≤ m * d)
  | _, _ => false

/-- Whether two scalars are the same as keys and as values: numbers by value, all else by kind
and content. -/
def same (a b : Scalar) : Bool :=
  match a, b with
  | .str s, .str t => s == t
  | .null, .null => true
  | .bytes x, .bytes y => x == y
  | .date x, .date y => x == y
  | .moment x, .moment y => x.offset.isSome == y.offset.isSome && x.instant == y.instant
  | a, b =>
    match a.place?, b.place? with
    | some p, some q => p.same q
    | _, _ => false

instance : BEq Scalar := ⟨same⟩

/-- The kinds within which scalars have an order. -/
inductive OrderKind where
  | number | text | bytes | date | localTime | worldTime
deriving DecidableEq

/-- The kind in which a scalar is ordered; null is in none. -/
def orderKind? : Scalar → Option OrderKind
  | .null => none
  | .bool _ | .int _ | .float _ | .noNumber _ => some .number
  | .str _ => some .text
  | .bytes _ => some .bytes
  | .date _ => some .date
  | .moment m => some (if m.offset.isSome then .worldTime else .localTime)

/-- Whether a row of bytes comes no later than another one in the order of dictionaries. -/
def bytesAtMost : List UInt8 → List UInt8 → Bool
  | [], _ => true
  | _ :: _, [] => false
  | x :: xs, y :: ys => x.toNat < y.toNat || (x == y && bytesAtMost xs ys)

/-- Whether `a` comes no later than `b` within their kind. -/
def atMost (a b : Scalar) : Bool :=
  match a, b with
  | .str s, .str t => Text.atMost s t
  | .bytes x, .bytes y => bytesAtMost x y
  | .date x, .date y => decide (x.dayNumber ≤ y.dayNumber)
  | .moment x, .moment y => decide (x.instant ≤ y.instant)
  | a, b =>
    match a.place?, b.place? with
    | some p, some q => p.atMost q
    | _, _ => false

/-- Whether a scalar has no place among the numbers though it is of their kind. -/
def isNowhere (s : Scalar) : Bool :=
  match s.place? with
  | some (.nowhere _) => true
  | _ => false

/-- Whether a row of scalars can be put in order: all of them are of one kind, or there is at
most one. -/
def sortable : List Scalar → Bool
  | [] => true
  | [_] => true
  | a :: rest => a.orderKind?.isSome && rest.all fun b => b.orderKind? == a.orderKind?

/-! ### Truth and spelling -/

/-- The scalar of a floating-point result; where it is no number, `which` tells it from others. -/
def ofFloat (which : Nat) (x : Float) : Scalar :=
  match Binary64.decode x with
  | .nan => .noNumber which
  | _ => .float x

/-- Whether a scalar counts as given: null, false, zero and the empty text do not. -/
def truthy : Scalar → Bool
  | .null => false
  | .bool b => b
  | .int i => i != 0
  | .float x => x != 0
  | .noNumber _ => true
  | .str s => !s.isEmpty
  | .bytes b => !b.isEmpty
  | .date _ | .moment _ => true

/-- Whether a scalar can be written at all: whole numbers only up to a certain length. -/
def isShowable : Scalar → Bool
  | .int i => decide (i.natAbs < Numeral.limit)
  | _ => true

/-- The names of the numbers without digits in running text. -/
def specialNames : Numeral.SpecialNames := ⟨"nan", "inf"⟩

/-- A scalar inside a shown value: texts are quoted. -/
def quoted : Scalar → Text
  | .null => "None"
  | .bool b => if b then "True" else "False"
  | .int i => Numeral.ofInt i
  | .float x => Numeral.ofFloat specialNames x
  | .noNumber _ => specialNames.nan
  | .str s => Quoted.ofText s
  | .bytes b => Quoted.ofBytes b
  | .date d => d.quoted
  | .moment m => m.quoted

/-- A scalar put into running text: texts stand as they are. -/
def text : Scalar → Text
  | .str s => s
  | .date d => d.text
  | .moment m => m.text
  | s => s.quoted

/-! ### Laws -/

@[simp] theorem same_str (s t : Text) : (Scalar.str s).same (.str t) = (s == t) := rfl

@[simp] theorem beq_str (s t : Text) : ((Scalar.str s) == (.str t)) = (s == t) := rfl

end Scalar

end NodeForge
