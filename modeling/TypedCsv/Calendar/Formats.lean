import TypedCsv.Calendar.Pattern

/-! # Accepted forms of dates and times

Dates, times of day and timestamps have a canonical form each and a few more that are read as
well. The forms are tried in order and the first one that gives a value counts: `05/06/2024` is
the fifth of June. -/

namespace TypedCsv

namespace Date

/-- The canonical form: year, month, day. -/
def canonical : Pattern :=
  [.year, .literal '-', .month, .literal '-', .day]

/-- Day first, with slashes. -/
def dayFirst : Pattern :=
  [.day, .literal '/', .month, .literal '/', .year]

/-- Month first, with slashes. -/
def monthFirst : Pattern :=
  [.month, .literal '/', .day, .literal '/', .year]

/-- Year first, with slashes. -/
def yearFirst : Pattern :=
  [.year, .literal '/', .month, .literal '/', .day]

/-- Day first, with hyphens. -/
def dayFirstHyphens : Pattern :=
  [.day, .literal '-', .month, .literal '-', .year]

/-- The forms of a date in the order in which they are tried. -/
def forms : List Pattern :=
  [canonical, dayFirst, monthFirst, yearFirst, dayFirstHyphens]

/-- The date that a text in the given form names. -/
def readAs (form : Pattern) (text : List Char) : Option Date :=
  (form.scan text).bind Moment.date?

/-- Reads a date in any of the forms. -/
def read (text : List Char) : Option Date :=
  forms.findSome? (readAs · text)

/-- The text of a date in the given form. -/
def renderAs (form : Pattern) (d : Date) : List Char :=
  form.render (Moment.zero.withDate d)

/-- The canonical text of a date. -/
def display (d : Date) : List Char :=
  d.renderAs canonical

end Date

namespace TimeOfDay

/-- The canonical form: hour, minute, second with its fraction. -/
def canonical : Pattern :=
  [.hour, .literal ':', .minute, .literal ':', .second, .fraction]

/-- Hour and minute. -/
def toTheMinute : Pattern :=
  [.hour, .literal ':', .minute]

/-- The forms of a time of day in the order in which they are tried. -/
def forms : List Pattern :=
  [canonical, toTheMinute]

/-- Reads a time of day in any of the forms. -/
def read (text : List Char) : Option TimeOfDay :=
  forms.findSome? fun form => (form.scan text).bind Moment.time?

/-- The canonical text of a time of day. -/
def display (t : TimeOfDay) : List Char :=
  canonical.render (Moment.zero.withTime t)

end TimeOfDay

namespace Timestamp

/-- The canonical form: a date and a time of day with a blank between them. -/
def canonical : Pattern :=
  Date.canonical ++ .blank :: TimeOfDay.canonical

/-- The forms of a timestamp in the order in which they are tried. -/
def forms : List Pattern :=
  let toTheSecond : Pattern := [.hour, .literal ':', .minute, .literal ':', .second]
  [canonical,
    Date.canonical ++ .literal 'T' :: TimeOfDay.canonical,
    Date.dayFirst ++ .blank :: toTheSecond,
    Date.monthFirst ++ .blank :: toTheSecond,
    Date.canonical ++ .blank :: TimeOfDay.toTheMinute,
    Date.canonical ++ .literal 'T' :: TimeOfDay.toTheMinute]

/-- Reads a timestamp in any of the forms. -/
def read (text : List Char) : Option Timestamp :=
  forms.findSome? fun form => (form.scan text).bind Moment.timestamp?

/-- The canonical text of a timestamp. -/
def display (t : Timestamp) : List Char :=
  canonical.render ((Moment.zero.withDate t.date).withTime t.time)

end Timestamp

end TypedCsv
