import ProofPuzzles.Config.Yaml.Object

/-!
# Unfolding of objects

The values that objects are. An object that is a part of itself is left out where it comes again,
and so is what nobody looks at.
-/

namespace ProofPuzzles.Config.Yaml

/-- What is being unfolded: the object at a place, or one of the pairs in it. -/
abbrev Spot := Nat × Option Nat

namespace Objects

/-- The object at a place without its parts. -/
def outline (objects : Objects) (place : Nat) : Value :=
  match objects.object place with
  | .plain v => v
  | .list _ => .elided .list
  | .pairs _ => .elided .list
  | .set _ => .elided .set
  | .mapping _ => .elided .mapping

mutual

/-- The object at a place with all its parts, within those that are being unfolded already. Each
    step adds one of them, so that there is a bound on the steps. -/
def whole (objects : Objects) : Nat → List Spot → Nat → Value
  | 0, _, place => objects.outline place
  | bound + 1, within, place =>
    if within.contains (place, none) then objects.outline place
    else
      let within := (place, none) :: within
      match objects.object place with
      | .plain v => v
      | .list items => .list (items.map (objects.whole bound within))
      | .pairs pairs => .list (pairs.zipIdx.map fun (p, i) =>
        objects.wholePair bound within (place, some i) p)
      | .set items => .set items
      | .mapping entries => .mapping (entries.map fun (k, v) => (k, objects.whole bound within v))

/-- One of the pairs in an object. -/
def wholePair (objects : Objects) : Nat → List Spot → Spot → Nat × Nat → Value
  | 0, _, _, _ => .elided .pair
  | bound + 1, within, spot, (first, second) =>
    if within.contains spot then .elided .pair
    else
      let within := spot :: within
      .pair (objects.whole bound within first) (objects.whole bound within second)

end

/-- A bound on the steps in which an object is unfolded. -/
def depthBound (objects : Objects) : Nat := 4 * objects.all.size + 4

/-- The object at a place with its parts: as a whole or without their parts. -/
def opened (objects : Objects) (inWhole : Bool) (place : Nat) : Value :=
  let part (place : Nat) : Value :=
    if inWhole then objects.whole objects.depthBound [] place else objects.outline place
  match objects.object place with
  | .plain v => v
  | .list items => .list (items.map part)
  | .pairs pairs => .list (pairs.zipIdx.map fun (p, i) =>
    if inWhole then objects.wholePair objects.depthBound [] (place, some i) p
    else .elided .pair)
  | .set items => .set items
  | .mapping entries => .mapping (entries.map fun (k, v) => (k, part v))

/-- The mapping at a place with its entries and their parts. The parts of an entry are whole if its
    key says so. -/
def unfolded (objects : Objects) (isWhole : Value → Bool) (place : Nat) : Value :=
  match objects.object place with
  | .mapping entries => .mapping (entries.map fun (k, v) => (k, objects.opened (isWhole k) v))
  | _ => objects.outline place

end Objects

end ProofPuzzles.Config.Yaml
