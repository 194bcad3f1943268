/-
This file reads the configuration of an administration from named settings.
-/

import Statute.Date.Instant
import Statute.Text.Quoted

namespace Statute

/-- The form in which a log is written. -/
inductive LogFormat
  | text
  | json
  deriving DecidableEq, Repr

/-- How an administration works. Without a date it works as of the current day. -/
structure Configuration where
  sampleRate : Double
  rootDate : Option Date
  workers : Nat
  logFormat : LogFormat
  logFilter : String

/-- The settings that can be changed. -/
inductive Setting
  | sampleRate
  | rootDate
  | workers
  | logFormat
  deriving DecidableEq, Repr

/-- What can be wrong with the text of a setting. -/
inductive SettingProblem
  | notANumber
  | notAShare
  | notADate (cause : ValueError)
  | notAWholeNumber
  | noWorkers
  | unknownFormat
  deriving DecidableEq, Repr

/-- A setting with a text that it cannot have. -/
structure InvalidSetting where
  setting : Setting
  text : String
  problem : SettingProblem
  deriving DecidableEq, Repr

namespace LogFormat

def name : LogFormat → String
  | text => "text"
  | json => "json"

/-- The format of a name, in letters of either case. -/
def ofName? (name : String) : Option LogFormat :=
  match name.map Char.toLower with
  | "text" => some text
  | "pretty" => some text
  | "json" => some json
  | _ => none

end LogFormat

namespace Setting

/-- The name of a setting. -/
def name : Setting → String
  | sampleRate => "LAC_SAMPLE_RATE"
  | rootDate => "LAC_ROOT_REFERENCE_DATE"
  | workers => "LAC_TRIGGER_WORKERS"
  | logFormat => "LAC_LOG_FORMAT"

end Setting

namespace SettingProblem

def message : SettingProblem → String
  | notANumber => "not a number"
  | notAShare => "must be between 0 and 1"
  | notADate cause => cause.message
  | notAWholeNumber => "not a whole number"
  | noWorkers => "must be at least 1"
  | unknownFormat => "expected text or json"

end SettingProblem

namespace InvalidSetting

def message (invalid : InvalidSetting) : String :=
  "invalid value " ++ Text.quoted invalid.text ++ " for " ++ invalid.setting.name ++ ": " ++
    invalid.problem.message

end InvalidSetting

namespace Configuration

/-- One matching submission in ten is reviewed by a person. -/
def default : Configuration :=
  ⟨Double.ofRatio false 1 10, none, 4, .text, "info"⟩

instance : Inhabited Configuration := ⟨default⟩

/-- A share of all submissions. -/
def readShare (text : String) : Except SettingProblem Double :=
  match Double.read? text with
  | none => .error .notANumber
  | some share =>
      if Double.zero.isLE share && share.isLE (Double.ofInt 1) then .ok share
      else .error .notAShare

/-- A positive number of 64 bits, which may have a plus sign. -/
def readWorkers (text : String) : Except SettingProblem Nat :=
  let digits :=
    match text.toList with
    | '+' :: rest => rest
    | chars => chars
  let count := Double.digitsValue digits
  if digits = [] ∨ !digits.all Char.isDigit ∨ UInt64.size ≤ count then .error .notAWholeNumber
  else if count = 0 then .error .noWorkers
  else .ok count

def readDate (text : String) : Except SettingProblem Date :=
  (Date.parse text).mapError .notADate

def readFormat (text : String) : Except SettingProblem LogFormat :=
  match LogFormat.ofName? text with
  | some format => .ok format
  | none => .error .unknownFormat

/-- A setting that is given is read without the blanks around it. One that is not has a default. -/
def readSetting {α : Type} (given : Setting → Option String) (setting : Setting)
    (read : String → Except SettingProblem α) (default : α) : Except InvalidSetting α :=
  match given setting with
  | none => .ok default
  | some text => (read (Text.trim text)).mapError fun problem => ⟨setting, text, problem⟩

/-- The configuration of the settings that are given, or the first that is invalid. -/
def read (given : Setting → Option String) : Except InvalidSetting Configuration := do
  let sampleRate ← readSetting given .sampleRate readShare default.sampleRate
  let rootDate ← readSetting given .rootDate (fun text => (readDate text).map some) default.rootDate
  let workers ← readSetting given .workers readWorkers default.workers
  let logFormat ← readSetting given .logFormat readFormat default.logFormat
  return ⟨sampleRate, rootDate, workers, logFormat, default.logFilter⟩

end Configuration

end Statute
