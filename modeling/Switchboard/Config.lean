import Switchboard.Text

namespace Switchboard

/-- Settings of a jitterbuffer. Minus one leaves a number to the implementation. -/
structure Jitterbuffer where
  enabled : Bool := false
  force : Bool := false
  log : Bool := false
  maxSize : Int64 := -1
  resyncThreshold : Int64 := -1
  implementation : String := ""
  targetExtra : Int64 := -1
deriving DecidableEq, Inhabited

/-- Variables that a pair does not hand on: those with both patterns, one in the name and one in
the value. -/
structure VariableFilter where
  nameContains : String := "SIPADDHEADER"
  valueContains : String := "Alert-Info"
deriving DecidableEq, Inhabited

def VariableFilter.catches (f : VariableFilter) (name value : String) : Bool :=
  Text.contains name f.nameContains && Text.contains value f.valueContains

def Config.usualContext : String := "default"

structure Config where
  defaultContext : String := Config.usualContext
  /-- What the owner-side's jitterbuffer starts from; each pair decides itself if it is enabled. -/
  jitterbuffer : Jitterbuffer := {}
  inheritFilter : Option VariableFilter := some {}
  queueApplication : String := "Queue"
deriving DecidableEq, Inhabited

namespace Config

inductive Defect
  | unreadable
  | emptyContext
  | emptyPattern
deriving DecidableEq, Inhabited

def Defect.message : Defect → String
  | unreadable => "failed to parse config"
  | emptyContext => "default context must not be empty"
  | emptyPattern => "inherit filter needs a name pattern"

def validate (c : Config) : Except Defect Unit :=
  if c.defaultContext = "" then .error .emptyContext
  else if c.inheritFilter.any (·.nameContains = "") then .error .emptyPattern
  else .ok ()

end Config
end Switchboard
