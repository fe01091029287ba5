import TurfSync.Services.Dates
import TurfSync.Store.Database
import TurfSync.Text.Numerals

/-! `AdminService.getRevenueAnalytics`: two queries that let the database group payments and
bookings by the start of their period, and the rows, which look the groups up under the texts of
their dates. -/

namespace TurfSync.AdminService

open Text

/-! ### The database -/

/-- `date_trunc` of a unit and an instant, and the order in which a `GROUP BY` returns the keys
of its rows, each once. -/
structure Postgres where
  date_trunc : String → Time → Time
  groups : List (Option Time) → List (Option Time)

structure Group (V : Type) where
  period : Option Time
  value : V

/-- `SELECT key, aggregate(..) ... GROUP BY key`. -/
def Postgres.groupBy {R V : Type} (pg : Postgres) (rows : List R) (key : R → Option Time)
    (aggregate : List R → V) : List (Group V) :=
  (pg.groups (rows.map key)).map fun k => ⟨k, aggregate (rows.filter (key · = k))⟩

/-- `SUM(amount)` of the payments that are paid from `rangeStartDate` on and before
`rangeEndDate`. -/
def paymentGroups (pg : Postgres) (interval : String) (rangeStartDate rangeEndDate : Time)
    (db : Db) : List (Group ℚ) :=
  pg.groupBy
    (db.payments.filter fun p =>
      p.status = .PAID ∧ ∃ paidAt ∈ p.paidAt, rangeStartDate ≤ paidAt ∧ paidAt < rangeEndDate)
    (fun p => p.paidAt.map (pg.date_trunc interval))
    (fun rows => (rows.map (·.amount)).sum)

/-- `COUNT(id)` of the bookings made from `rangeStartDate` on and before `rangeEndDate`. -/
def bookingGroups (pg : Postgres) (interval : String) (rangeStartDate rangeEndDate : Time)
    (db : Db) : List (Group ℕ) :=
  pg.groupBy
    (db.bookings.filter fun b => rangeStartDate ≤ b.createdAt ∧ b.createdAt < rangeEndDate)
    (fun b => some (pg.date_trunc interval b.createdAt))
    (fun rows => rows.length)

/-! ### Labels -/

/-- A year in `toISOString`: four digits, or a sign and six. -/
def isoYear (year : ℤ) : String :=
  if 0 ≤ year ∧ year ≤ 9999 then padStart 4 (toString year)
  else (if year < 0 then "-" else "+") ++ padStart 6 (toString year.natAbs)

/-- `toISOString().split('T')[0]`. -/
def isoDate (date : Time) : String :=
  isoYear (getUTCFullYear date) ++ "-" ++ padStart 2 (toString (getUTCMonth date + 1)) ++ "-" ++
    padStart 2 (toString (getUTCDate date))

/-- The key of a group and the label of a row. -/
def keyOf (period : String) (date : Time) : String :=
  if period = "daily" ∨ period = "weekly" then isoDate date
  else toString (getUTCFullYear date) ++ "-" ++ padStart 2 (toString (getUTCMonth date + 1))

/-- The groups as a `Map`, a later one of the same key in the place of an earlier. -/
def mapOf {V : Type} (period : String) (groups : List (Group V)) : String → Option V :=
  groups.foldl (fun map group => match group.period with
    | none => map
    | some date => Function.update map (keyOf period date) (some group.value)) fun _ => none

/-! ### Rows -/

structure RevenueRow where
  label : String
  revenue : ℚ
  bookings : ℕ
  deriving DecidableEq, Repr

def daysOf (period : String) : ℕ :=
  if period = "daily" then 30 else if period = "weekly" then 12 else 12

def intervalOf (period : String) : String :=
  if period = "daily" then "day" else if period = "weekly" then "week" else "month"

def rangeEndDate (period : String) (now : Time) : Time :=
  if period = "daily" then addUTCDays (startOfUTCDay now) 1
  else if period = "weekly" then addUTCDays (startOfUTCWeek now) 7
  else addUTCMonths (startOfUTCMonth now) 1

def rangeStartDate (period : String) (now : Time) : Time :=
  if period = "daily" then addUTCDays (rangeEndDate period now) (-daysOf period)
  else if period = "weekly" then addUTCDays (rangeEndDate period now) (-daysOf period * 7)
  else addUTCMonths (rangeEndDate period now) (-daysOf period)

/-- The start of the `i`th period back from the end of the range. -/
def startDate (period : String) (rangeEndDate : Time) (i : ℕ) : Time :=
  if period = "daily" then addUTCDays (addUTCDays rangeEndDate (-i)) (-1)
  else if period = "weekly" then addUTCDays (addUTCDays rangeEndDate (-i * 7)) (-7)
  else addUTCMonths (addUTCMonths rangeEndDate (-i)) (-1)

def getRevenueAnalytics (pg : Postgres) (period : String) (now : Time) (db : Db) :
    List RevenueRow :=
  let start := rangeStartDate period now
  let stop := rangeEndDate period now
  let revenueMap := mapOf period (paymentGroups pg (intervalOf period) start stop db)
  let bookingMap := mapOf period (bookingGroups pg (intervalOf period) start stop db)
  -- `for (let i = days - 1; i >= 0; i--)`
  (List.range (daysOf period)).reverse.map fun i =>
    let label := keyOf period (startDate period stop i)
    ⟨label, (revenueMap label).getD 0, (bookingMap label).getD 0⟩

end TurfSync.AdminService
