/-!
# Compass directions

The eight ways out of a room that a player can walk, in the order in which the server lists them.
-/

namespace MudDialogue

/-- A compass direction. -/
inductive Direction where
  | north
  | northEast
  | east
  | southEast
  | south
  | southWest
  | west
  | northWest
deriving DecidableEq, Repr

namespace Direction

/-- All directions in the order of the server. -/
def all : List Direction :=
  [north, northEast, east, southEast, south, southWest, west, northWest]

theorem mem_all (d : Direction) : d ∈ all := by cases d <;> decide

theorem nodup_all : all.Nodup := by decide

/-- The command that walks in a direction, and its marker in a list of exits. -/
def code : Direction → String
  | north => "N"
  | northEast => "NE"
  | east => "E"
  | southEast => "SE"
  | south => "S"
  | southWest => "SW"
  | west => "W"
  | northWest => "NW"

/-- The name of the group of a direction in the pattern for a list of exits. -/
def groupName : Direction → String
  | north => "n"
  | northEast => "ne"
  | east => "e"
  | southEast => "se"
  | south => "s"
  | southWest => "sw"
  | west => "w"
  | northWest => "nw"

/-- A direction in full, for a log. -/
def fullName : Direction → String
  | north => "North"
  | northEast => "NorthEast"
  | east => "East"
  | southEast => "SouthEast"
  | south => "South"
  | southWest => "SouthWest"
  | west => "West"
  | northWest => "NorthWest"

theorem groupName_inj {d e : Direction} : d.groupName = e.groupName ↔ d = e := by
  cases d <;> cases e <;> decide

end Direction

end MudDialogue
