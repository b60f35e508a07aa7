import OpcSession.Json.Shape

/-!
# Attribute ids

An attribute id names one property of a node.  The standard numbers them
from one on; `Value` is the one that changes all the time and is never
kept in a cache.
-/

namespace OpcSession

/-- The attributes that a node may have, in the order in which the standard
numbers them. -/
inductive AttributeId
  | nodeId | nodeClass | browseName | displayName | description
  | writeMask | userWriteMask | isAbstract | symmetric | inverseName
  | containsNoLoops | eventNotifier | value | dataType | valueRank
  | arrayDimensions | accessLevel | userAccessLevel
  | minimumSamplingInterval | historizing | executable | userExecutable
deriving DecidableEq, Repr, Inhabited

namespace AttributeId

/-- All attributes with their names, in the order of their numbers.  The names
stand for the attributes in messages. -/
def table : List (AttributeId × String) :=
  [(nodeId, "NodeId"), (nodeClass, "NodeClass"), (browseName, "BrowseName"),
   (displayName, "DisplayName"), (description, "Description"),
   (writeMask, "WriteMask"), (userWriteMask, "UserWriteMask"),
   (isAbstract, "IsAbstract"), (symmetric, "Symmetric"),
   (inverseName, "InverseName"), (containsNoLoops, "ContainsNoLoops"),
   (eventNotifier, "EventNotifier"), (value, "Value"),
   (dataType, "DataType"), (valueRank, "ValueRank"),
   (arrayDimensions, "ArrayDimensions"), (accessLevel, "AccessLevel"),
   (userAccessLevel, "UserAccessLevel"),
   (minimumSamplingInterval, "MinimumSamplingInterval"),
   (historizing, "Historizing"), (executable, "Executable"),
   (userExecutable, "UserExecutable")]

/-- All attributes, in the order of their numbers. -/
def all : List AttributeId := table.map (·.1)

def names : List String := table.map (·.2)

/-- The number of an attribute, by its place in the table: the standard counts
from one and leaves no gaps. -/
def number (a : AttributeId) : Nat := all.idxOf a + 1

/-- The attribute with a number, if there is one.  No attribute has the number
zero. -/
def ofNumber? (n : Nat) : Option AttributeId :=
  if n = 0 then none else all[n - 1]?

/-- The name of an attribute, by which it is known in messages and in texts
for a reader. -/
def name (a : AttributeId) : String :=
  ((table.find? (·.1 = a)).map (·.2)).getD ""

/-- The attribute with a name, spelled as the table has it. -/
def ofName? (s : String) : Option AttributeId :=
  (table.find? (·.2 = s)).map (·.1)

def toJson (a : AttributeId) : Json := .text a.name

/-- An attribute is read by its name, in either of the shapes of an
enumeration without a content. -/
def ofJson? (p : Json.Place) (j : Json) : Option AttributeId :=
  (j.choice? names p).bind ofName?

end AttributeId

end OpcSession
