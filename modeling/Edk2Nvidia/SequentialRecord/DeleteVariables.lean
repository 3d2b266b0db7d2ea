import Edk2Nvidia.VarMeasure.Stream

/-! The clearing of the variable store: each variable is deleted after the next one was asked for,
unless it is protected. -/
namespace SequentialRecordComm
open VarMeasure (EfiGuid VarName Variable)

def maxVarName : Nat := 256 * 2

def gNvidiaPublicVariableGuid : EfiGuid :=
  ⟨0x781e084c, 0xa330, 0x417c, #v[0xb6, 0x78, 0x38, 0xe6, 0x96, 0x38, 0x0c, 0xb9]⟩

def gUserAuthenticationGuid : EfiGuid :=
  ⟨0xee24a7f7, 0x606b, 0x4724, #v[0xb3, 0xc9, 0xf5, 0xae, 0x4a, 0x3b, 0x81, 0x65]⟩

def productInfoVariableName : VarName :=
  ⟨[0x50, 0x72, 0x6F, 0x64, 0x75, 0x63, 0x74, 0x49, 0x6E, 0x66, 0x6F], by simp⟩

/-- `NVIDIA_PRODUCT_INFO`: 33 characters of the asset tag, the flag and a byte that pads it. -/
def sizeofProductInfo : Nat := 68
def offsetOfAssetTagProtection : Nat := 66

/-- The variables in the order of their enumeration; each has a name, and no other one has it with
the same GUID. -/
structure Store where
  vars : List Variable
  distinct : (vars.map Variable.key).Nodup
  named : ∀ v ∈ vars, v.varName.chars ≠ []

/-- What the firmware's surroundings answer: which calls for the next variable and which deletions
fail, what is on the stack where the product info is read to, and how a deletion leaves the
enumeration of the other variables. -/
structure Environment where
  smmVar : Bool
  allocateZeroPool : Nat → Bool
  getNextFails : Nat → Option EfiStatus
  setFails : Nat → Option EfiStatus
  stack : Nat → UInt8
  arrange : Nat → List Variable → List Variable
  arrange_perm : ∀ n vars, (arrange n vars).Perm vars

/-- What is enumerated behind a variable; an empty name stands for the start. -/
def enumerateFrom (vars : List Variable) (last : EfiGuid × VarName) :
    Except EfiStatus (List Variable) :=
  if last.2.chars = [] then .ok vars
  else
    match vars.dropWhile fun v => v.key ≠ last with
    | [] => .error .invalidParameter
    | _ :: rest => .ok rest

def nameSize (name : VarName) : Nat := 2 * (name.chars.length + 1)

def smmGetNextVariableName (env : Environment) (n : Nat) (store : Store)
    (last : EfiGuid × VarName) : Except EfiStatus (EfiGuid × VarName) :=
  match env.getNextFails n with
  | some status => .error status
  | none =>
    match enumerateFrom store.vars last with
    | .error status => .error status
    | .ok [] => .error .notFound
    | .ok (next :: _) =>
      if maxVarName < nameSize next.varName then .error .bufferTooSmall else .ok next.key

/-- The store without a variable, as the deletion leaves it. -/
def Store.without (store : Store) (env : Environment) (n : Nat) (key : EfiGuid × VarName) :
    Store where
  vars := env.arrange n (store.vars.filter fun v => v.key ≠ key)
  distinct := ((env.arrange_perm n _).map _).nodup_iff.mpr
    (store.distinct.sublist (List.filter_sublist.map _))
  named v hv := store.named v (List.mem_filter.mp ((env.arrange_perm n _).mem_iff.mp hv)).1

def smmSetVariable (env : Environment) (n : Nat) (store : Store) (key : EfiGuid × VarName) :
    Store :=
  match env.setFails n with
  | some _ => store
  | none => if key ∈ store.vars.map Variable.key then store.without env n key else store

/-- The flag of a product info that is too short for it is what was on the stack. -/
def isVariableProtectedStmm (stack : UInt8) (store : Store) (key : EfiGuid × VarName) : Bool :=
  if key.1 = gUserAuthenticationGuid then true
  else
    match store.vars.find? fun v =>
      v.key = (gNvidiaPublicVariableGuid, productInfoVariableName) with
    | none => false
    | some productInfo =>
      if sizeofProductInfo < productInfo.data.length then false
      else
        productInfo.data.getD offsetOfAssetTagProtection stack ≠ 0 &&
          productInfoVariableName.chars.isPrefixOf key.2.chars &&
            key.1 = gNvidiaPublicVariableGuid

/-- The loop of `DeleteNsVars`, pass `n` with the answer to the last call for the next variable. -/
def deleteLoop (env : Environment) :
    Nat → Nat → Store → Except EfiStatus (EfiGuid × VarName) → Option Store
  | 0, _, _, _ => none
  | _ + 1, _, store, .error _ => some store
  | fuel + 1, n, store, .ok cur =>
    let getVarStatus := smmGetNextVariableName env (n + 1) store cur
    if isVariableProtectedStmm (env.stack n) store cur then
      deleteLoop env fuel (n + 1) store getVarStatus
    else deleteLoop env fuel (n + 1) (smmSetVariable env n store cur) getVarStatus

/-- The name in a zeroed buffer; the GUID with it is not looked at. -/
def zeroed : EfiGuid × VarName := (gNvidiaPublicVariableGuid, ⟨[], by simp⟩)

def deleteNsVars (env : Environment) (store : Store) (fuel : Nat) : Option (EfiStatus × Store) :=
  if env.smmVar = false then some (.unsupported, store)
  else if env.allocateZeroPool 0 = false then some (.outOfResources, store)
  else if env.allocateZeroPool 1 = false then some (.outOfResources, store)
  else
    (deleteLoop env fuel 0 store (smmGetNextVariableName env 0 store zeroed)).map fun store =>
      (.success, store)

/-! What the clearing is for. -/

def IsProductInfo (v : Variable) : Prop :=
  v.key = (gNvidiaPublicVariableGuid, productInfoVariableName)

instance (v : Variable) : Decidable (IsProductInfo v) := inferInstanceAs (Decidable (v.key = _))

def Flagged (vars : List Variable) : Prop :=
  ∃ v ∈ vars, IsProductInfo v ∧ offsetOfAssetTagProtection < v.data.length ∧
    v.data.length ≤ sizeofProductInfo ∧ v.data.getD offsetOfAssetTagProtection 0 ≠ 0

/-- The product info ends in front of the flag. -/
def CutShort (vars : List Variable) : Prop :=
  ∃ v ∈ vars, IsProductInfo v ∧ v.data.length ≤ offsetOfAssetTagProtection

def Guarded (v : Variable) : Prop :=
  productInfoVariableName.chars <+: v.varName.chars ∧ v.varGuid = gNvidiaPublicVariableGuid

/-- The variables that are to stay, given whether the flag is set. -/
def Protected (flagged : Prop) (v : Variable) : Prop :=
  v.varGuid = gUserAuthenticationGuid ∨ Guarded v ∧ flagged

/-- The clearing ends, deletes no protected variable, and succeeds only when nothing but protected
variables is left. -/
structure Clears (env : Environment) (store : Store) : Prop where
  ends : ∃ fuel result, deleteNsVars env store fuel = some result
  keeps : ∀ fuel status final, deleteNsVars env store fuel = some (status, final) →
    ∀ v ∈ store.vars, Protected (Flagged store.vars) v → v ∈ final.vars
  complete : ∀ fuel final, deleteNsVars env store fuel = some (.success, final) →
    ∀ v ∈ final.vars, Protected (Flagged final.vars) v

/-- The call for a variable is answered with it. -/
def Offered (env : Environment) (n : Nat) (v : Variable) : Prop :=
  env.getNextFails n = none ∧ nameSize v.varName ≤ maxVarName

/-- Nothing comes in between when the loop meets these variables from pass `n` on: each is offered,
and if it is not protected its deletion succeeds, and is not left out for a byte of the stack that
is taken for the flag. Behind a call that fails there are protected variables only. -/
def Clearable (env : Environment) (flagged : Prop) : Nat → List Variable → Prop
  | _, [] => True
  | n, v :: rest =>
    Offered env n v ∧
        (Protected flagged v ∨
          env.setFails n = none ∧ ¬ (Guarded v ∧ CutShort (v :: rest) ∧ env.stack n ≠ 0)) ∧
        Clearable env flagged (n + 1) rest ∨
      ¬ Offered env n v ∧ ∀ w ∈ v :: rest, Protected flagged w

/-- The protocol or a buffer is not there, which is reported. -/
def Refused (env : Environment) : Prop :=
  env.smmVar = false ∨ env.allocateZeroPool 0 = false ∨ env.allocateZeroPool 1 = false

end SequentialRecordComm
