import Edk2Nvidia.Parse.Checked
import Edk2Nvidia.Parse.Packed

/-! The floorsweeping of the thermal zones: the lists of cooling devices lose the entries of nodes
that are gone, and nodes that are left with nothing are removed on the way. -/
namespace FloorSweep
open Parse (Checked fromBigEndian)

/-- A map of a zone: the phandles in it, its list, and all else that it holds. -/
structure ThermalMap (ρ : Type) where
  phandles : List UInt32
  coolingDevice : Option (List UInt8)
  rest : ρ

/-- A `cooling-maps` node. A removed map leaves its place behind. -/
structure CoolingMaps (ρ : Type) where
  phandles : List UInt32
  maps : List (Option (ThermalMap ρ))
  rest : ρ

structure ThermalZone (ρ : Type) where
  coolingMaps : Option (CoolingMaps ρ)
  rest : ρ

inductive ThermalStatus where
  | success
  | outOfResources
  | deviceError
deriving DecidableEq

/-- What comes from the library and the allocator, by the places of a zone and a map: whether there
is memory, whether a list can be stored, and whether a node can be removed. -/
structure Services where
  allocates : Nat → Nat → Bool
  stores : Nat → Nat → Bool
  nopsNode : Nat → Nat → Bool
  deletesNode : Nat → Bool

def thermalCoolingDeviceEntrySize : Nat := 12

variable {ρ : Type}

def ThermalZone.has (zone : ThermalZone ρ) (phandle : UInt32) : Bool :=
  zone.coolingMaps.any fun coolingMaps =>
    coolingMaps.phandles.contains phandle ||
      coolingMaps.maps.any fun map? => map?.any fun map => map.phandles.contains phandle

/-- Whether `FdtNodeOffsetByPhandle` finds a node, in these zones or among the others. -/
def nodeExists (others : UInt32 → Bool) (zones : List (ThermalZone ρ)) (phandle : UInt32) : Bool :=
  phandle != 0 && phandle != 0xFFFFFFFF && (others phandle || zones.any fun zone => zone.has phandle)

/-- `Fdt32ToCpu` of the first cell. -/
def firstPhandle (list : List UInt8) : UInt32 :=
  UInt32.ofNat (fromBigEndian (list.take 4))

/-- The loop that builds the new list, over what is left of the old one at an index. -/
def newList (alive : UInt32 → Bool) : Nat → Nat → List UInt8 → Checked (List UInt8)
  | 0, _, _ => .ok []
  | fuel + 1, index, list =>
    if list = [] then .ok []
    else if list.length < 4 then .error ⟨index, 4⟩
    else if !alive (firstPhandle list) then
      newList alive fuel (index + thermalCoolingDeviceEntrySize)
        (list.drop thermalCoolingDeviceEntrySize)
    else if list.length < thermalCoolingDeviceEntrySize then
      .error ⟨index, thermalCoolingDeviceEntrySize⟩
    else do
      let rest ← newList alive fuel (index + thermalCoolingDeviceEntrySize)
        (list.drop thermalCoolingDeviceEntrySize)
      return list.take thermalCoolingDeviceEntrySize ++ rest

variable (services : Services)

/-- The maps of one zone; `alive` says which phandles there are with these maps in it. -/
def sweepMaps (alive : List (Option (ThermalMap ρ)) → UInt32 → Bool) (zone : Nat) :
    List (Option (ThermalMap ρ)) → List (Option (ThermalMap ρ)) →
      Checked (Except ThermalStatus (List (Option (ThermalMap ρ))))
  | done, [] => .ok (.ok done)
  | done, none :: todo => sweepMaps alive zone (done ++ [none]) todo
  | done, some map :: todo =>
    match map.coolingDevice with
    | none => sweepMaps alive zone (done ++ [some map]) todo
    | some list =>
      if !services.allocates zone done.length then .ok (.error .outOfResources)
      else
        match newList (alive (done ++ some map :: todo)) list.length 0 list with
        | .error span => .error span
        | .ok buffer =>
          if buffer.length = list.length then sweepMaps alive zone (done ++ [some map]) todo
          else if buffer ≠ [] then
            -- The old property is gone by now; what `FdtSetProp` returns is not looked at.
            sweepMaps alive zone (done ++ [some { map with
              coolingDevice := if services.stores zone done.length then some buffer else none }]) todo
          else if !services.nopsNode zone done.length then .ok (.error .deviceError)
          else sweepMaps alive zone (done ++ [none]) todo

def sweepZones (others : UInt32 → Bool) :
    List (ThermalZone ρ) → List (ThermalZone ρ) →
      Checked (Except ThermalStatus (List (ThermalZone ρ)))
  | done, [] => .ok (.ok done)
  | done, zone :: todo =>
    match zone.coolingMaps with
    | none => sweepZones others (done ++ [zone]) todo
    | some coolingMaps =>
      match sweepMaps services (fun maps => nodeExists others
          (done ++ { zone with coolingMaps := some { coolingMaps with maps := maps } } :: todo))
          done.length [] coolingMaps.maps with
      | .error span => .error span
      | .ok (.error status) => .ok (.error status)
      | .ok (.ok maps) =>
        if maps.all Option.isNone then
          if !services.deletesNode done.length then .ok (.error .deviceError)
          else sweepZones others (done ++ [{ zone with coolingMaps := none }]) todo
        else
          sweepZones others
            (done ++ [{ zone with coolingMaps := some { coolingMaps with maps := maps } }]) todo

/-- The status, and the zones where they are there. -/
def floorSweepGlobalThermals (others : UInt32 → Bool) :
    Option (List (ThermalZone ρ)) → Checked (Except ThermalStatus (Option (List (ThermalZone ρ))))
  | none => .ok (.ok none)
  | some zones =>
    match sweepZones services others [] zones with
    | .error span => .error span
    | .ok (.error status) => .ok (.error status)
    | .ok (.ok zones) => .ok (.ok (some zones))

end FloorSweep
