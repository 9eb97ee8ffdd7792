import ClassGraph.Settings.Basic
import ClassGraph.Settings.Json

/-!
# Settings as JSON text

Settings are written as a JSON object with the keys `rootName`, `markerPrefix`,
`maxConstructorDepth` and `maxHierarchyDepth`, or as an array of the four in this order. What is
left out has its standard value, and other keys of the object are passed over. A key of the four
may not come twice, and the array may not be longer. The limits are integers of 32 bits.

* `Settings.ofText`: reads settings and checks them.
-/

namespace ClassGraph

namespace Settings

open Json

/-- The settings read so far. -/
structure Draft where
  rootName : Option Name := none
  markerPrefix : Option Name := none
  maxConstructorDepth : Option Nat := none
  maxHierarchyDepth : Option Nat := none

/-- What is still missing has its standard value. -/
def Draft.complete (d : Draft) : Settings where
  rootName := d.rootName.getD standard.rootName
  markerPrefix := d.markerPrefix.getD standard.markerPrefix
  maxConstructorDepth := d.maxConstructorDepth.getD standard.maxConstructorDepth
  maxHierarchyDepth := d.maxHierarchyDepth.getD standard.maxHierarchyDepth

/-- One of the four settings. -/
inductive Key
  | rootName
  | markerPrefix
  | maxConstructorDepth
  | maxHierarchyDepth

namespace Key

/-- The four settings in the order of the array form. -/
def all : List Key := [rootName, markerPrefix, maxConstructorDepth, maxHierarchyDepth]

/-- How the key is written. -/
def name : Key → String
  | rootName => "rootName"
  | markerPrefix => "markerPrefix"
  | maxConstructorDepth => "maxConstructorDepth"
  | maxHierarchyDepth => "maxHierarchyDepth"

/-- The setting with that key. -/
def ofName? (n : String) : Option Key := all.find? (·.name = n)

/-- Has the setting been read? -/
def isIn (d : Draft) : Key → Bool
  | rootName => d.rootName.isSome
  | markerPrefix => d.markerPrefix.isSome
  | maxConstructorDepth => d.maxConstructorDepth.isSome
  | maxHierarchyDepth => d.maxHierarchyDepth.isSome

end Key

/-- Reads a name. -/
def readName : Reader Name := do
  if (← peekVisible) = '"' then drop; string else clash

/-- Reads a limit. Nothing with a minus sign is one, not even nought. -/
def readLimit : Reader Nat := do
  if (← peekVisible).isDigit then
    match ← number with
    | some n => if n < 1 <<< 32 then return n else throw .mismatched
    | none => throw .mismatched
  else clash

/-- Reads the value of a setting and puts it into the draft. -/
def readSetting (d : Draft) : Key → Reader Draft
  | .rootName => return { d with rootName := some (← readName) }
  | .markerPrefix => return { d with markerPrefix := some (← readName) }
  | .maxConstructorDepth => return { d with maxConstructorDepth := some (← readLimit) }
  | .maxHierarchyDepth => return { d with maxHierarchyDepth := some (← readLimit) }

/-- Reads a member of the object. A second value for a setting is refused at its key. -/
def readMember (d : Draft) : Reader Draft := do
  sign '"'
  match Key.ofName? (← string) with
  | some key =>
    if key.isIn d then throw .mismatched
    sign ':'
    readSetting d key
  | none =>
    sign ':'
    skipValue
    return d

/-- Reads the members of the object after the first one. -/
def readMembers (d : Draft) : Nat → Reader Draft
  | 0 => throw .malformed
  | fuel + 1 => do
    let c ← peekVisible
    drop
    if c = '\x7d' then return d
    else if c = ',' then readMembers (← readMember d) fuel
    else throw .malformed

/-- Reads the object form after its opening sign. -/
def readObject : Reader Draft := do
  if (← peekVisible) = '\x7d' then drop; return {}
  else readMembers (← readMember {}) (← steps)

/-- Reads the rest of the array form, the settings in the order of `keys`. -/
def readItems (d : Draft) : List Key → Reader Draft
  | [] => do
    sign ']'
    return d
  | key :: keys => do
    let c ← peekVisible
    drop
    if c = ']' then return d
    else if c ≠ ',' then throw .malformed
    else if (← peekVisible) = ']' then throw .malformed
    else readItems (← readSetting d key) keys

/-- Reads the array form after its opening sign. -/
def readArray : Reader Draft := do
  if (← peekVisible) = ']' then drop; return {}
  else readItems (← readSetting {} .rootName) (Key.all.drop 1)

/-- Reads either form, and nothing may follow. -/
def readWhole : Reader Draft := do
  let c ← peekVisible
  let d ←
    if c = '\x7b' then drop; readObject
    else if c = '[' then drop; readArray
    else clash
  if (← get).all isBlank then return d else throw .malformed

/-- Reads settings from a text that holds nothing else, and checks them. -/
def ofText (text : String) : Except Error Settings :=
  match readWhole.run text.toList with
  | .error fault => .error (.settingsText fault)
  | .ok (d, _) => d.complete.check

end Settings

end ClassGraph
