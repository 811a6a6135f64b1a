import Linkage.Moment

/-!
# Dates and times in messages

By itself a moment is written from the year down, with its distance from universal time at the end.
Inside a list it is written as the call that makes it (`momentCall`), where seconds and parts of
seconds are left out if they are zero.
-/

namespace Linkage.Text

def padded (width n : Nat) : String :=
  let ds := Nat.toDigits 10 n
  String.ofList (List.replicate (width - ds.length) '0' ++ ds)

def day (m : Moment) : String := "-".intercalate [padded 4 m.year, padded 2 m.month, padded 2 m.day]

def offset (minutes : Int) : String :=
  let n := minutes.natAbs
  (if minutes < 0 then "-" else "+") ++ padded 2 (n / 60) ++ ":" ++ padded 2 (n % 60)

def clock (c : Clock) : String :=
  ":".intercalate [padded 2 c.hour, padded 2 c.minute, padded 2 c.second]
    ++ (if c.micro = 0 then "" else "." ++ padded 6 c.micro)
    ++ (match c.offset with
      | some m => offset m
      | none => "")

def moment (m : Moment) : String :=
  match m.clock with
  | none => day m
  | some c => day m ++ " " ++ clock c

/-- Behind universal time by less than a day is a day back and the rest forward. -/
def span (minutes : Int) : String :=
  if minutes < 0 then "days=-1, seconds=" ++ toString (60 * (minutes + 24 * 60))
  else "seconds=" ++ toString (60 * minutes)

def zone (minutes : Int) : String :=
  if minutes = 0 then "datetime.timezone.utc"
  else "datetime.timezone(datetime.timedelta(" ++ span minutes ++ "))"

def clockArgs (c : Clock) : List String :=
  let fine := if c.micro ≠ 0 then [c.second, c.micro] else if c.second ≠ 0 then [c.second] else []
  ([c.hour, c.minute] ++ fine).map toString
    ++ (c.offset.map fun m => "tzinfo=" ++ zone m).toList

def momentCall (m : Moment) : String :=
  let args := [m.year, m.month, m.day].map toString
  match m.clock with
  | none => "datetime.date(" ++ ", ".intercalate args ++ ")"
  | some c => "datetime.datetime(" ++ ", ".intercalate (args ++ clockArgs c) ++ ")"

end Linkage.Text
