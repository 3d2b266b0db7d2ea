import Mathlib.Data.List.Nodup
import Edk2Nvidia.Parse.Packed
import Edk2Nvidia.NorFlash

/-! The bytes that go into the hash of a component: the variables of the store it covers, or
that an update would leave there, sorted and laid out record by record. -/
namespace VarMeasure
open Flash

structure EfiGuid where
  data1 : UInt32
  data2 : UInt16
  data3 : UInt16
  data4 : Vector UInt8 8
deriving DecidableEq, Repr

/-- The characters in front of the null that ends a name. -/
structure VarName where
  chars : List UInt16
  noNull : 0 ∉ chars
deriving DecidableEq, Repr

/-- A variable, as the store holds it and as `NV_VAR_MEASURE_DESCRIPTOR` lists it. -/
structure Variable where
  varName : VarName
  varGuid : EfiGuid
  attributes : UInt32
  data : List UInt8
deriving DecidableEq, Repr

def Variable.key (v : Variable) : EfiGuid × VarName := (v.varGuid, v.varName)

/-- What the variable service holds, in the order it enumerates: at most one variable of a
name and GUID, with sizes that fit a `UINTN`. -/
structure VariableStore where
  vars : List Variable
  distinct : (vars.map Variable.key).Nodup
  sized : ∀ v ∈ vars, v.data.length < 2 ^ 64

def VariableStore.smmGetVariable (store : VariableStore) (varName : VarName)
    (varGuid : EfiGuid) : Option Variable :=
  store.vars.find? fun v => v.varName = varName && v.varGuid = varGuid

def efiVariableNonVolatile : UInt32 := 0x01
def efiVariableBootserviceAccess : UInt32 := 0x02
def efiVariableRuntimeAccess : UInt32 := 0x04
def efiVariableAppendWrite : UInt32 := 0x40

inductive Component where
  | bootServiceOnly
  | runtime
deriving DecidableEq, Repr

/-- `ExcludedVars`; a missing name stands for every variable of the GUID. -/
abbrev ExcludedVars := List (Option VarName × EfiGuid)

def isExcludedVar (excludedVars : ExcludedVars) (varName : VarName) (varGuid : EfiGuid) : Bool :=
  excludedVars.any fun entry =>
    entry.2 == varGuid && (entry.1 == none || entry.1 == some varName)

def isDeleteRequest (attributes : UInt32) (dataSize : Nat) : Bool :=
  (attributes &&& efiVariableAppendWrite == 0 && dataSize == 0) ||
    attributes &&& (efiVariableRuntimeAccess ||| efiVariableBootserviceAccess) == 0

def isMeasurableNvVarForComponent (attributes : UInt32) (component : Component) : Bool :=
  if attributes &&& efiVariableNonVolatile == 0 then
    false
  else
    match component with
    | .bootServiceOnly =>
      attributes &&& efiVariableBootserviceAccess != 0 &&
        attributes &&& efiVariableRuntimeAccess == 0
    | .runtime => attributes &&& efiVariableRuntimeAccess != 0

def isSameVariable (first second : Variable) : Bool :=
  first.varName == second.varName && first.varGuid == second.varGuid

/-! The order of the descriptors. -/

/-- The loop over `Data4`. -/
def compareData4 : List UInt8 → List UInt8 → Int
  | first :: firsts, second :: seconds =>
    if first < second then -1
    else if second < first then 1
    else compareData4 firsts seconds
  | _, _ => 0

def compareGuidForMeasurementSort (first second : EfiGuid) : Int :=
  if first.data1 < second.data1 then -1
  else if second.data1 < first.data1 then 1
  else if first.data2 < second.data2 then -1
  else if second.data2 < first.data2 then 1
  else if first.data3 < second.data3 then -1
  else if second.data3 < first.data3 then 1
  else compareData4 first.data4.toList second.data4.toList

/-- `StrCmp`, on what stands in front of the nulls. -/
def strCmp : List UInt16 → List UInt16 → Int
  | [], [] => 0
  | [], second :: _ => -second.toNat
  | first :: _, [] => first.toNat
  | first :: firsts, second :: seconds =>
    if first = second then strCmp firsts seconds else (first.toNat : Int) - second.toNat

def compareNvVarMeasureDescriptor (first second : Variable) : Int :=
  let result := compareGuidForMeasurementSort first.varGuid second.varGuid
  if result ≠ 0 then result else strCmp first.varName.chars second.varName.chars

def sortNvVarMeasureDescriptors (performQuickSort : List Variable → List Variable)
    (descriptors : List Variable) : List Variable :=
  if descriptors.length < 2 then descriptors else performQuickSort descriptors

/-! The records. -/

def VarName.bytes (name : VarName) : List UInt8 :=
  (name.chars ++ [0]).flatMap fun char : UInt16 => toLittleEndian 2 char.toNat

def EfiGuid.bytes (guid : EfiGuid) : List UInt8 :=
  toLittleEndian 4 guid.data1.toNat ++ toLittleEndian 2 guid.data2.toNat ++
    toLittleEndian 2 guid.data3.toNat ++ guid.data4.toList

def hashVariableRecord (v : Variable) : List UInt8 :=
  v.varName.bytes ++ v.varGuid.bytes ++ toLittleEndian 4 v.attributes.toNat ++
    toLittleEndian 8 v.data.length ++ v.data

def hashNvVarMeasureDescriptors (descriptors : List Variable) : List UInt8 :=
  descriptors.flatMap hashVariableRecord

/-! The enumeration. -/

/-- `PreparePendingUpdateData`: what an update makes of the variable it meets. -/
def preparePendingUpdateData (current update : Variable) : Except EfiStatus Variable :=
  if update.attributes &&& efiVariableAppendWrite == 0 then
    .ok { update with attributes := update.attributes &&& ~~~efiVariableAppendWrite }
  else if current.data.length > 2 ^ 64 - 1 - update.data.length then
    .error .outOfResources
  else
    .ok { update with attributes := current.attributes, data := current.data ++ update.data }

/-- The loop of `MeasureNvVarsForComponent`: the descriptors, and whether the updated variable
was among the enumerated ones. -/
def collectDescriptors (excludedVars : ExcludedVars) (store : VariableStore)
    (component : Component) (update : Option Variable) :
    List Variable → List Variable × Bool → Except EfiStatus (List Variable × Bool)
  | [], scan => .ok scan
  | next :: rest, (descriptors, matchedUpdate) =>
    if isExcludedVar excludedVars next.varName next.varGuid then
      collectDescriptors excludedVars store component update rest (descriptors, matchedUpdate)
    else
      match store.smmGetVariable next.varName next.varGuid with
      | none =>
        collectDescriptors excludedVars store component update rest (descriptors, matchedUpdate)
      | some current =>
        match update.filter (isSameVariable next) with
        | some pending =>
          if isDeleteRequest pending.attributes pending.data.length then
            collectDescriptors excludedVars store component update rest (descriptors, true)
          else do
            let pending ← preparePendingUpdateData current pending
            let descriptors :=
              if isMeasurableNvVarForComponent pending.attributes component then
                descriptors ++ [pending]
              else
                descriptors
            collectDescriptors excludedVars store component update rest (descriptors, true)
        | none =>
          let descriptors :=
            if isMeasurableNvVarForComponent current.attributes component then
              descriptors ++ [current]
            else
              descriptors
          collectDescriptors excludedVars store component update rest (descriptors, matchedUpdate)

/-- `MeasureNvVarsForComponent`: the bytes the hash of the component is fed with. -/
def measureNvVarsForComponent (performQuickSort : List Variable → List Variable)
    (excludedVars : ExcludedVars) (store : VariableStore) (component : Component)
    (update : Option Variable) : Except EfiStatus (List UInt8) := do
  let (descriptors, matchedUpdate) ←
    collectDescriptors excludedVars store component update store.vars ([], false)
  let descriptors :=
    match update with
    | none => descriptors
    | some pending =>
      let attributes := pending.attributes &&& ~~~efiVariableAppendWrite
      if !isExcludedVar excludedVars pending.varName pending.varGuid && !matchedUpdate &&
          !isDeleteRequest pending.attributes pending.data.length &&
          isMeasurableNvVarForComponent attributes component then
        descriptors ++ [{ pending with attributes }]
      else
        descriptors
  pure (hashNvVarMeasureDescriptors
    (sortNvVarMeasureDescriptors performQuickSort descriptors))

end VarMeasure
