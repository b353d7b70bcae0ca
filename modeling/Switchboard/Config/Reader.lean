import Switchboard.Config
import Switchboard.Format
import Switchboard.Json.Printer
import Switchboard.Json.Reader

namespace Switchboard

namespace Json

def orElse {α : Type} (read : Json → Option α) (missing : α) : Option Json → Option α
  | some j => read j
  | none => some missing

def int64? (j : Json) : Option Int64 := do
  let z ← j.integer?
  if -9223372036854775808 ≤ z ∧ z < 9223372036854775808 then some (Int64.ofInt z) else none

end Json

def Jitterbuffer.names : List String :=
  ["enabled", "force", "log", "max_size", "resync_threshold", "implementation", "target_extra"]

def Jitterbuffer.ofJson (j : Json) : Option Jitterbuffer := do
  let usual : Jitterbuffer := {}
  match ← j.fields names with
  | [enabled, force, log, maxSize, resyncThreshold, implementation, targetExtra] =>
    let enabled ← Json.orElse Json.bool? usual.enabled enabled
    let force ← Json.orElse Json.bool? usual.force force
    let log ← Json.orElse Json.bool? usual.log log
    let maxSize ← Json.orElse Json.int64? usual.maxSize maxSize
    let resyncThreshold ← Json.orElse Json.int64? usual.resyncThreshold resyncThreshold
    let implementation ← Json.orElse Json.text? usual.implementation implementation
    let targetExtra ← Json.orElse Json.int64? usual.targetExtra targetExtra
    some ⟨enabled, force, log, maxSize, resyncThreshold, implementation, targetExtra⟩
  | _ => none

def VariableFilter.names : List String := ["name_contains", "value_contains"]

def VariableFilter.ofJson (j : Json) : Option VariableFilter := do
  match ← j.fields names with
  | [some name, some value] => some ⟨← name.text?, ← value.text?⟩
  | _ => none

def VariableFilter.ofJson? : Json → Option (Option VariableFilter)
  | .null => some none
  | j => (ofJson j).map some

namespace Config

def names : List String :=
  ["default_context", "jitterbuffer", "inherit_filter", "queue_application"]

def ofJson (j : Json) : Option Config := do
  let usual : Config := {}
  match ← j.fields names with
  | [defaultContext, jitterbuffer, inheritFilter, queueApplication] =>
    let defaultContext ← Json.orElse Json.text? usual.defaultContext defaultContext
    let jitterbuffer ← Json.orElse Jitterbuffer.ofJson usual.jitterbuffer jitterbuffer
    let inheritFilter ← Json.orElse VariableFilter.ofJson? usual.inheritFilter inheritFilter
    let queueApplication ← Json.orElse Json.text? usual.queueApplication queueApplication
    some ⟨defaultContext, jitterbuffer, inheritFilter, queueApplication⟩
  | _ => none

def read (s : String) : Except Defect Config :=
  match (Json.read s).bind ofJson with
  | none => .error .unreadable
  | some c => c.validate.map fun _ => c

end Config

def FormatMask.read (s : String) : Option FormatMask := do
  let z ← (← Json.read s).integer?
  if 0 ≤ z ∧ z < 18446744073709551616 then some ⟨UInt64.ofNat z.toNat⟩ else none

def FormatMask.write (m : FormatMask) : String := Json.write (.nat m.bits.toNat)

end Switchboard
