import Mathlib.Algebra.Order.Ring.Int
import OpenVoiceStream.Base.Assoc
import OpenVoiceStream.Base.Reach
import OpenVoiceStream.Base.Template

/-!
# Leaves and compositions

A leaf is one thing a device can run: a capability by a backend, with its files, its
environment and its footprint.  A composition is a selection of leaves; the leaves they
require are pulled in.

## Main definitions

* `Leaf`, `Registry` — the registry read from the configuration.
* `Registry.expand` — the selected leaves and the ones they require.
* `resolvePull`, `validateComposition` — the files of a selection, and whether it fits.
* `mergedEnv` — the environments of the leaves and the overrides.
-/

namespace OpenVoiceStream
namespace LeafComposition

/-- `Leaf`, with what the resolvers read.  `peakUnifiedMb` is the property of this name,
and `exclusive` is `resources["exclusive"]` as a text, when it is true. -/
structure Leaf where
  id : Text
  capability : Text
  backend : Text
  model : Text
  precision : Option Text
  files : List Text
  requires : List Text
  runtimeEnv : Dictionary Text Text
  peakUnifiedMb : ℤ
  exclusive : Option Text

/-- `DeviceSpec`. -/
structure DeviceSpec where
  unifiedMb : ℤ
  baseReservationMb : ℤ
  deviceClass : Text

/-- `ModelSpec`. -/
structure ModelSpec where
  defaultPrecision : Dictionary Text Text

/-- `Registry`.  `headroomMb` is `int(unified_mb * headroom_fraction)`. -/
structure Registry where
  leaves : Dictionary Text Leaf
  devices : Dictionary Text DeviceSpec
  models : Dictionary Text ModelSpec
  headroomMb : ℤ → ℤ

/-- `CompositionError`, with what its text names. -/
inductive CompositionError
  | unknownDevice (device : Text)
  | noLeaf (leafId : Text)
  | illegalPairing (existing lid capability device : Text)
  | incompatibleFamilies (device : Text) (families : List (Text × Text))
  | exclusiveConflict (device resource : Text) (holders : List Text)
  | memoryBudget (device : Text) (base delta peak headroom : ℤ) (leaves : List Text)

/-- `ResolvedLeaf`. -/
structure ResolvedLeaf where
  leaf : Leaf
  precision : Option Text

/-- `CompositionPlan`. -/
structure CompositionPlan where
  device : Text
  leafIds : List Text
  resolved : List ResolvedLeaf
  peakUnifiedMb : ℤ
  headroomMb : ℤ

namespace Registry

variable (reg : Registry)

/-- `device_class`. -/
def deviceClass (device : Text) : Text :=
  match reg.devices.get device with
  | some spec => if spec.deviceClass ≠ [] then spec.deviceClass else fallback device
  | none => fallback device
where
  /-- Shared by the seed devices: `orin-*` is a jetson. -/
  fallback (device : Text) : Text :=
    if "orin".toList.isPrefixOf device then "jetson".toList else device

/-- `resolve_precision`. -/
def resolvePrecision (leaf : Leaf) (device : Text) : Option Text :=
  match leaf.precision with
  | some precision => some precision
  | none =>
    match reg.models.get leaf.model with
    | some model => model.defaultPrecision.get (reg.deviceClass device)
    | none => none

/-- `get_leaf`. -/
def getLeaf (leafId : Text) : Except CompositionError Leaf :=
  match reg.leaves.get leafId with
  | some leaf => .ok leaf
  | none => .error (.noLeaf leafId)

theorem mem_keys (k : Text) (ks : List Text)
    (h : (reg.leaves.get k).map Leaf.requires = some ks) :
    k ∈ reg.leaves.items.map Prod.fst := by
  obtain ⟨leaf, hleaf, -⟩ := Option.map_eq_some_iff.mp h
  exact List.mem_map.mpr ⟨(k, leaf), Dictionary.get_eq_some_iff.mp hleaf, rfl⟩

/-- The leaves and what they require. -/
def graph : LinkGraph Text where
  nodes := reg.leaves.items.map Prod.fst
  next k := (reg.leaves.get k).map Leaf.requires
  mem_nodes := reg.mem_keys

/-- `expand`: a leaf is appended when it is first visited. -/
def expand (leafIds : List Text) : Except CompositionError (List Leaf) :=
  match reg.graph.search leafIds with
  | .ok visited => .ok (visited.filterMap reg.leaves.get)
  | .error leafId => .error (.noLeaf leafId)

end Registry

/-- The loop of `resolve_pull`: the files not seen before, in order. -/
def firstSeen (files : List Text) : List Text :=
  files.foldl (fun seen f => if f ∈ seen then seen else seen ++ [f]) []

/-- `resolve_pull`. -/
def resolvePull (selected : List Text) (reg : Registry) : Except CompositionError (List Text) :=
  (reg.expand selected).map fun leaves => firstSeen (leaves.flatMap Leaf.files)

/-- `_backend_family`: the leaves in the mode `rk` are one, the others go by what stands
before the first dot of the backend. -/
def backendFamily (leaf : Leaf) : Option Text :=
  if (leaf.runtimeEnv.get "LANGUAGE_MODE".toList).map (List.map Char.toLower) =
      some "rk".toList then
    some "rk".toList
  else if '.' ∈ leaf.backend then some (leaf.backend.takeWhile (· ≠ '.'))
  else none

/-- The loop of the pairing check: `byCapability` holds the leaves before. -/
def checkPairing (reg : Registry) (device : Text) :
    List Text → Dictionary Text Text → Except CompositionError Unit
  | [], _ => .ok ()
  | lid :: rest, byCapability => do
    let leaf ← reg.getLeaf lid
    match byCapability.get leaf.capability with
    | some existing => .error (.illegalPairing existing lid leaf.capability device)
    | none => checkPairing reg device rest (byCapability.put leaf.capability lid)

/-- `families.setdefault(fam, lid)`, for a leaf that has a family. -/
def addFamily (d : Dictionary Text Text) (item : Text × Leaf) : Dictionary Text Text :=
  match backendFamily item.2 with
  | some family => d.setDefault family item.1
  | none => d

/-- `families`: each family with the first leaf of it. -/
def families (selected : List (Text × Leaf)) : Dictionary Text Text :=
  selected.foldl addFamily .empty

/-- `exclusive.setdefault(str(res), []).append(lid)`, for a leaf that claims a resource. -/
def addHolder (d : Dictionary Text (List Text)) (item : Text × Leaf) :
    Dictionary Text (List Text) :=
  match item.2.exclusive with
  | some resource => d.put resource ((d.get resource).getD [] ++ [item.1])
  | none => d

/-- `exclusive`: each exclusive resource with the leaves that claim it. -/
def exclusiveHolders (selected : List (Text × Leaf)) : Dictionary Text (List Text) :=
  selected.foldl addHolder .empty

/-- `validate_composition`. -/
def validateComposition (device : Text) (selected : List Text) (reg : Registry)
    (admission : Option Text) : Except CompositionError CompositionPlan :=
  match reg.devices.get device with
  | none => .error (.unknownDevice device)
  | some dev => do
    checkPairing reg device selected .empty
    let leaves := selected.filterMap fun lid => (reg.leaves.get lid).map (lid, ·)
    if 1 < (families leaves).items.length then
      .error (.incompatibleFamilies device (families leaves).items)
    else
      match (exclusiveHolders leaves).items.find? fun item =>
          decide (1 < item.2.length ∧ admission ≠ some "serial".toList) with
      | some item => .error (.exclusiveConflict device item.1 item.2)
      | none => do
        let expanded ← reg.expand selected
        let delta := (expanded.map Leaf.peakUnifiedMb).sum
        let peak := dev.baseReservationMb + delta
        let headroom := reg.headroomMb dev.unifiedMb
        if headroom < peak then
          .error (.memoryBudget device dev.baseReservationMb delta peak headroom
            (expanded.map Leaf.id))
        else
          return { device := device
                   leafIds := selected
                   resolved := expanded.map fun leaf =>
                     ⟨leaf, reg.resolvePrecision leaf device⟩
                   peakUnifiedMb := peak
                   headroomMb := headroom }

/-- The merged map of `resolve_env`: the environments of the leaves, then the overrides. -/
def mergedEnv (leaves : List Leaf) (overrides : List (Text × Text)) : Dictionary Text Text :=
  Dictionary.ofPairs (leaves.flatMap (fun leaf => leaf.runtimeEnv.items) ++ overrides)

end LeafComposition
end OpenVoiceStream
