import AccessProfiler.Language.Sink
import AccessProfiler.Text.Blank

/-!
# Settings

Where generated classes are put, which sink inserted code reports to, and which changes are made.
-/

namespace AccessProfiler

/-- The settings of a transformation. -/
structure Settings where
  /-- The package of the generated classes; it may be empty. -/
  package : String
  /-- The name, within the package, of the class that holds the static counters. -/
  counterClass : String
  sink : Sink
  /-- Count the accesses to the fields of each instance. -/
  objects : Bool
  /-- Put counting wrappers in the place of arrays. -/
  arrays : Bool
  /-- Count accesses for each type. -/
  typeProfiling : Bool
  /-- Count the calls of each method. -/
  callTracking : Bool
  /-- Check the program afterwards. -/
  verify : Bool
  /-- Classes whose names start with one of these are left as they are. -/
  excluded : List String
deriving DecidableEq

namespace Settings

/-- Objects and arrays are counted, platform packages left alone. -/
def standard : Settings where
  package := "heapscope.generated"
  counterClass := "StaticCounter"
  sink := .standard
  objects := true
  arrays := true
  typeProfiling := false
  callTracking := false
  verify := true
  excluded := ["android.", "androidx.", "java.", "kotlin."]

/-- Everything that can be counted is. -/
def full : Settings :=
  { standard with typeProfiling := true, callTracking := true }

/-- The name of a generated class. -/
def qualify (settings : Settings) (simple : String) : String :=
  if settings.package.isEmpty then simple else settings.package ++ "." ++ simple

/-- The full name of the class of the static counters. -/
def counterClassName (settings : Settings) : String :=
  settings.qualify settings.counterClass

/-- The text starts with the given one. -/
def startsWith (start text : String) : Bool :=
  start.toList.isPrefixOf text.toList

/-- One of the excluded prefixes covers the class. -/
def isExcludedByPrefix (settings : Settings) (className : String) : Bool :=
  settings.excluded.any fun start => startsWith start className

/-- The class is left alone: it lies in the package of the generated classes, if that has a name, or
under an excluded prefix. -/
def excludes (settings : Settings) (className : String) : Bool :=
  (!settings.package.isEmpty && startsWith (settings.package ++ ".") className) ||
    settings.isExcludedByPrefix className

end Settings
end AccessProfiler
