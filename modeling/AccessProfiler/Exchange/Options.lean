import AccessProfiler.Image.Decode
import AccessProfiler.Log.Summary
import AccessProfiler.Machine.Basic
import AccessProfiler.Settings

/-!
# Reading options

Settings, sinks, limits and log settings are read from JSON objects in which everything is optional:
a member that is missing leaves the preset as it is, and so does a value that is no object.  A
member of another type, null among them, cannot be read.
-/

namespace AccessProfiler

open Schema

namespace Json

/-- Read a member; one that is missing counts as null. -/
def memberBy
    {Value : Type}
    (read : Json → Readable Value)
    (value : Json)
    (name : String) : Readable Value :=
  read ((value.member? name).getD .null)

/-- Read a member that may be missing. -/
def perhapsBy
    {Value : Type}
    (read : Json → Readable Value)
    (value : Json)
    (name : String) : Readable (Option Value) :=
  match value.member? name with
  | none => .ok none
  | some member => (read member).map some

/-- Read a member, or take the preset if it is missing. -/
def orPreset
    {Value : Type}
    (read : Json → Readable Value)
    (value : Json)
    (name : String)
    (preset : Value) : Readable Value :=
  (value.perhapsBy read name).map fun found => found.getD preset

/-- The texts of a list; none if it is missing. -/
def textsOf (value : Json) (name : String) : Readable (List String) :=
  value.orPreset (list Schema.string) name []

/-- The elements of a member; none if it is no list. -/
def elementsOf (value : Json) (name : String) : List Json :=
  match value.member? name with
  | some (.array elements) => elements
  | _ => []

end Json

/-- Read a sink over a preset. -/
def Sink.ofOptions (preset : Sink) (options : Json) : Readable Sink := do
  let text := options.orPreset string
  return {
    owner := ← text "class" preset.owner
    method := ← text "method" preset.method
    tag := ← text "tag" preset.tag }

/-- The settings that the name of a preset stands for; whatever names none stands for the standard
settings. -/
def Settings.preset : Option Json → Settings
  | some (.string "full") => .full
  | _ => .standard

/-- Read settings, over the preset that they name. -/
def Settings.ofOptions (options : Json) : Readable Settings := do
  let text := options.orPreset string
  let choice := options.orPreset bool
  let preset := Settings.preset (options.member? "preset")
  return {
    package := ← text "package" preset.package
    counterClass := ← text "counter_class" preset.counterClass
    sink := ← options.memberBy preset.sink.ofOptions "trace"
    objects := ← choice "objects" preset.objects
    arrays := ← choice "arrays" preset.arrays
    typeProfiling := ← choice "type_profiling" preset.typeProfiling
    callTracking := ← choice "call_tracking" preset.callTracking
    verify := ← choice "verify" preset.verify
    excluded := ← options.orPreset (list string) "excluded" preset.excluded }

/-- Read limits over the standard ones. -/
def Limits.ofOptions (options : Json) : Readable Limits := do
  let number := options.orPreset (natural 64)
  return {
    instructions := ← number "max_instructions" Limits.standard.instructions
    depth := ← number "max_call_depth" Limits.standard.depth
    objects := ← number "max_heap_objects" Limits.standard.objects }

/-- Read log settings over the standard ones. -/
def LogSettings.ofOptions (options : Json) : Readable LogSettings := do
  let standard := LogSettings.standard
  return {
    tag := ← options.orPreset string "tag" standard.tag
    interval := ← options.orPreset doubleOfJson "interval" standard.interval }

/-- Read a datum: nothing, a reference, or the datum of a literal. -/
def Datum.ofJson (value : Json) : Readable Datum :=
  match value.member? "kind" with
  | some (.string "void") => .ok .void
  | some (.string "ref") => (value.memberBy (natural 64) "value").map .reference
  | _ => (Constant.ofJson .strict value).map .ofConstant

end AccessProfiler
