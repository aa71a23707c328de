import Mathlib.Order.Lattice

/-!
# Points in time

A `Datetime` is an aware UTC `datetime`: a number of microseconds since the epoch, within the years
1 to 9999 that Python can represent. Adding a `timedelta` outside of that range raises
`OverflowError`, which is `none` here.
-/

set_option autoImplicit false

namespace Python

/-- Microseconds since the epoch, within the representable years. -/
abbrev Datetime := {t : Int // -62135596800000000 ≤ t ∧ t ≤ 253402300799999999}

/-- A calendar day, counted from the epoch. -/
abbrev Date := Int

namespace Datetime

/-- Points in time are ordered as the numbers they are. -/
instance : LinearOrder Datetime := @Subtype.instLinearOrder Int Int.instLinearOrder _

instance : Preorder Datetime := instLinearOrder.toPreorder

instance : LE Datetime := instPreorder.toLE

instance : LT Datetime := instPreorder.toLT

instance : DecidableLE Datetime := instLinearOrder.toDecidableLE

instance : DecidableLT Datetime := instLinearOrder.toDecidableLT

/-- The point from which time is counted. -/
def epoch : Datetime := ⟨0, by decide⟩

/-- `t + timedelta(minutes=minutes)`; a `timedelta` holds at most 999999999 days. -/
def addMinutes (t : Datetime) (minutes : Int) : Option Datetime :=
  if -999999999 * 1440 ≤ minutes ∧ minutes < 1000000000 * 1440 then
    if h : -62135596800000000 ≤ t.1 + minutes * 60000000 ∧
        t.1 + minutes * 60000000 ≤ 253402300799999999 then
      some ⟨t.1 + minutes * 60000000, h⟩
    else none
  else none

/-- `t.date()`. -/
def date (t : Datetime) : Date := t.1 / 86400000000

end Datetime

end Python
