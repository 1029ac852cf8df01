import ModuleLint.Log.Level

/-!
Log records and their two written forms.

A record is written on a line of its own, as text with the time of day or as a JSON object with the
time in milliseconds since the epoch. Time is universal time.
-/

namespace ModuleLint

structure LogRecord where
  level : LogLevel
  module : Bytes
  message : Bytes
  deriving DecidableEq, Repr

inductive LogFormat
  | text
  | json
  deriving DecidableEq, Repr

namespace LogRecord

/-- A number of at least two digits. -/
def twoDigits (n : Nat) : Bytes := (Bytes.ofNat n).padLeft 2 (byte '0')

/-- The time of day of a second since the epoch. -/
def timeOfDay (second : Int) : Bytes :=
  let s := (second % 86400).toNat
  twoDigits (s / 3600) ++ [byte ':'] ++ twoDigits (s / 60 % 60) ++ [byte ':'] ++ twoDigits (s % 60)

/-- The time of day with milliseconds. Both parts of a time before the epoch are rounded toward it,
and the minus sign of the milliseconds counts as one of their three places. -/
def timestamp (ms : Int) : Bytes :=
  timeOfDay (ms.tdiv 1000) ++ [Byte.dot] ++ (Bytes.ofInt (ms.tmod 1000)).padLeft 3 (byte '0')

/-- The record as a line of text, its level coloured or not. -/
def toText (r : LogRecord) (ms : Int) (coloured : Bool) : Bytes :=
  let name := r.level.name.padRight 5 Byte.space
  timestamp ms ++ [Byte.space] ++
    (if coloured then r.level.colour ++ name ++ ascii "\x1b[0m" else name) ++
    ascii " [" ++ r.module ++ ascii "] " ++ r.message ++ [Byte.lineFeed]

/-- A byte inside a JSON string. Control bytes without a short escape stay as they are. -/
def escaped (b : UInt8) : Bytes :=
  if b = Byte.doubleQuote then ascii "\\\""
  else if b = Byte.backslash then ascii "\\\\"
  else if b = Byte.lineFeed then ascii "\\n"
  else if b = Byte.carriageReturn then ascii "\\r"
  else if b = Byte.tab then ascii "\\t"
  else [b]

/-- The record as a line with a JSON object. -/
def toJson (r : LogRecord) (ms : Int) : Bytes :=
  ascii "\x7b\"ts\":" ++ Bytes.ofInt ms ++ ascii ",\"level\":\"" ++ r.level.name ++
    ascii "\",\"module\":\"" ++ r.module.flatMap escaped ++ ascii "\",\"msg\":\"" ++
    r.message.flatMap escaped ++ ascii "\"\x7d\n"

/-- The record in a format, without colours. -/
def write (format : LogFormat) (ms : Int) (r : LogRecord) : Bytes :=
  match format with
  | .text => r.toText ms false
  | .json => r.toJson ms

end LogRecord

end ModuleLint
