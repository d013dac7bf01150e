import AccessProfiler.Language.Program

/-!
# The class hierarchy

Reachability, assignability and the search for the declaration of a member.  Hierarchies may be
cyclic and may name classes that are not registered.  The superclass chain of a class is cut after a
fixed number of names; the walk through interfaces visits each name once, nearest first.
-/

namespace AccessProfiler.Program

/-- The names that a breadth-first walk visits, starting with those in the queue.  A name is visited
once, when it is first reached. -/
def walk (next : String → List String) : Nat → List String → List String → List String
  | 0, _, _ => []
  | _ + 1, _, [] => []
  | limit + 1, seen, name :: queue =>
    if seen.contains name then walk next limit seen queue
    else name :: walk next limit (name :: seen) (queue ++ next name)

/-- The classes and interfaces directly above a class; none if it is not registered. -/
def parents (program : Program) (name : String) : List String :=
  match program.class? name with
  | some declaration => declaration.parents
  | none => []

/-- The interfaces that a class names. -/
def interfaces (program : Program) (name : String) : List String :=
  match program.class? name with
  | some declaration => declaration.interfaces
  | none => []

/-- No walk takes more steps than there are edges, besides one for each name it starts with. -/
def walkLimit (program : Program) (start : List String) : Nat :=
  start.length + (program.classes.flatMap Class.parents).length + 1

/-- The given classes and every class and interface above them. -/
def above (program : Program) (start : List String) : List String :=
  walk program.parents (program.walkLimit start) [] start

/-- A class and every class and interface above it. -/
def ancestors (program : Program) (name : String) : List String :=
  program.above [name]

/-- The given interfaces and every interface above them, nearest first. -/
def interfacesAbove (program : Program) (start : List String) : List String :=
  walk program.interfaces (program.walkLimit start) [] start

/-- A class is the other class or below it; every class is below the root class. -/
def isSubclass (program : Program) (lower upper : String) : Bool :=
  upper == objectClass || (program.ancestors lower).contains upper

/-- Arrays are instances of these classes besides the root class. -/
def arrayInterfaces : List String := ["java.lang.Cloneable", "java.io.Serializable"]

/-- A value of the one type may be stored where the other type is declared. -/
def isAssignable (program : Program) : Ty → Ty → Bool
  | .array source, .array target =>
    source == target ||
      (source.isReference && target.isReference && program.isAssignable source target)
  | source, target =>
    source == target ||
      match source, target with
      | .null, target => target.isReference && target != .null
      | .object lower, .object upper => program.isSubclass lower upper
      | .array _, .object upper => upper == objectClass || arrayInterfaces.contains upper
      | source, target => source.isIntLike && target.isIntLike

/-- The longest superclass chain that a search follows. -/
def chainLimit : Nat := 257

/-- A class and the classes above it, as long as the limit allows. -/
def chainUpTo (program : Program) : Nat → String → List String
  | 0, _ => []
  | limit + 1, name =>
    name ::
      match program.superclass? name with
      | some superclass => program.chainUpTo limit superclass
      | none => []

/-- The superclass chain of a class, cut at the limit. -/
def chain (program : Program) (name : String) : List String :=
  program.chainUpTo chainLimit name

/-- The declaration of a field on a class itself. -/
def declaredField? (program : Program) (owner name : String) : Option FieldRef :=
  (program.class? owner).bind fun declaration =>
    (declaration.field? name).map fun field => field.reference declaration.name

/-- The declaration of a method on a class itself, with the name of the class. -/
def declaredMethod?
    (program : Program)
    (owner name : String)
    (parameters : List Ty) : Option (String × Method) :=
  (program.class? owner).bind fun declaration =>
    (declaration.method? name parameters).map (owner, ·)

/-- The first declaration of a field along the superclass chain. -/
def resolveField? (program : Program) (owner name : String) : Option FieldRef :=
  (program.chain owner).findSome? fun ancestor => program.declaredField? ancestor name

/-- The first declaration of a method along the superclass chain or else, if the chain ends within
the limit, on the nearest interface above one of its classes. -/
def resolveMethod?
    (program : Program)
    (owner name : String)
    (parameters : List Ty) : Option (String × Method) :=
  let chain := program.chain owner
  let declared (ancestor : String) := program.declaredMethod? ancestor name parameters
  match chain.findSome? declared with
  | some found => some found
  | none =>
    if chain.length < chainLimit then
      (program.interfacesAbove (chain.flatMap program.interfaces)).findSome? declared
    else none

end AccessProfiler.Program
