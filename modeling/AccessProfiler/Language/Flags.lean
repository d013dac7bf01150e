import AccessProfiler.Text.Blank
import AccessProfiler.Text.Quoted
import AccessProfiler.Text.Splitting

/-!
# Flags

A set of flags is a word of thirty-two bits, some of which have names.  It is written as the names
of its flags in a fixed order, joined by ` | `; the bits without a name follow together as one
hexadecimal number, so that no bit is lost.
-/

namespace AccessProfiler

/-- A set of flags. -/
structure Flags where
  bits : UInt32
deriving DecidableEq

/-- The named flags of a kind of declaration, in the order in which they are written. -/
abbrev FlagNames := List (String × UInt32)

namespace Flags

/-- No flag. -/
def none : Flags := ⟨0⟩

/-- Every flag of `marks` is set. -/
def includes (flags marks : Flags) : Bool :=
  flags.bits &&& marks.bits == marks.bits

/-- Some flag of `marks` is set. -/
def meets (flags marks : Flags) : Bool :=
  flags.bits &&& marks.bits != 0

/-- The flags of both sets. -/
def union (left right : Flags) : Flags :=
  ⟨left.bits ||| right.bits⟩

/-- The bits that no name covers. -/
def unnamed (names : FlagNames) (flags : Flags) : UInt32 :=
  flags.bits &&& ~~~(names.foldl (fun covered entry => covered ||| entry.2) 0)

/-- The written form. -/
def render (names : FlagNames) (flags : Flags) : String :=
  let named := (names.filter fun entry => flags.includes ⟨entry.2⟩).map Prod.fst
  let rest := flags.unnamed names
  let parts := if rest = 0 then named else named ++ ["0x" ++ Text.hexadecimal rest.toNat]
  " | ".intercalate parts

/-- The bits of a hexadecimal number, which a plus may precede. -/
def hexadecimalBits? (digits : List Char) : Option UInt32 := do
  let unsigned :=
    match digits with
    | '+' :: rest => rest
    | _ => digits
  let value ← Text.ofHexadecimal? unsigned
  if value < Nat.pow 2 32 then some (UInt32.ofNat value) else Option.none

/-- The bits of one part: a name or a hexadecimal number. -/
def part? (names : FlagNames) (part : List Char) : Option UInt32 :=
  match part with
  | '0' :: 'x' :: digits => hexadecimalBits? digits
  | _ => names.lookup (String.ofList part)

/-- Read the written form; a blank text is the empty set. -/
def parse? (names : FlagNames) (text : String) : Option Flags :=
  let characters := text.toList
  if (Text.trim characters).isEmpty then some none
  else do
    let parts ← (Text.splitAll '|' characters).mapM fun part => part? names (Text.trim part)
    return ⟨parts.foldl (· ||| ·) 0⟩

end Flags
end AccessProfiler
