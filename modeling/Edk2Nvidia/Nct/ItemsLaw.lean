import Edk2Nvidia.Nct.Items
import Mathlib.Data.List.Infix
import Mathlib.Tactic.Common

/-! The tables that are read faithfully. -/
namespace Nct
open Parse (Buffer Checked Span)
open Flash

def Passes (image : Buffer) (id : Nat) : Prop :=
  id ≤ nctIdEnd ∧ image.field (entryOffset id) 4 = id

instance (image : Buffer) (id : Nat) : Decidable (Passes image id) :=
  inferInstanceAs (Decidable (_ ∧ _))

def dataOf (image : Buffer) (id : Nat) : List UInt8 :=
  slice image.content (entryOffset id + nctEntryDataOffset) maxNctDataSize

/-- The library can store the property of an address. -/
def Settable (fdtSetProp : String → String → Int) (dtb : Dtb) (mac : MacAddr) : Prop :=
  dtb.hasNode mac.nodePath = true ∧ 0 ≤ fdtSetProp mac.nodePath mac.propName

instance (fdtSetProp : String → String → Int) (dtb : Dtb) (mac : MacAddr) :
    Decidable (Settable fdtSetProp dtb mac) := inferInstanceAs (Decidable (_ ∧ _))

/-- What the property of an address has to be afterwards. -/
def published (image : Buffer) (fdtSetProp : String → String → Int) (dtb : Dtb) (mac : MacAddr) :
    Option (List UInt8) :=
  if Passes image mac.id ∧ Settable fdtSetProp dtb mac then some (mac.addr (dataOf image mac.id))
  else dtb.property mac.nodePath mac.propName

/-- What is asked of the reading: every accessor stays inside the image, the item and its outputs,
and each address is stored exactly when its entry passes the check. -/
structure Faithful (image : Buffer) (id config : Option Nat) (serialNumber : Bool)
    (bufferSize : Nat) (fdtSetProp : String → String → Int) (stack : List UInt8) (dtb : Dtb) :
    Prop where
  readItem : ∀ buf id, (nctReadItem image buf id).Inside
  spec : (nctGetSpec image id config).Inside
  tnspec : (nctGetTnspec image).Inside
  serial : ∃ status written, nctGetSerialNumber image serialNumber bufferSize =
    .ok (status, written) ∧ written.length ≤ bufferSize
  macs : ∃ status after, nctPopulateMacAddrs image fdtSetProp stack (some dtb) =
    .ok (status, some after) ∧ ∀ mac ∈ macAddrs,
      after.property mac.nodePath mac.propName = published image fdtSetProp dtb mac

/-- The entries lie in the image, the last one as far as it is looked at. -/
def EntriesFit (image : Buffer) : Prop :=
  entryOffset nctIdEnd + 4 ≤ image.length ∧ (Passes image nctIdEnd →
    entryOffset nctIdEnd + nctEntryDataOffset + maxNctDataSize ≤ image.length)

/-- A text that ends inside the item, or in which the target is found before. -/
def Searchable (target item : List UInt8) : Prop := 0 ∈ item ∨ target <:+: item

/-- The text goes on to a quote, and what is in front of it has room with a terminator. -/
def Quoted (room : Nat) (text : List UInt8) : Prop :=
  ∃ value rest, text = value ++ quote :: rest ∧ quote ∉ value ∧ value.length < room

/-- What the loops of `NctGetSpec` rely on. -/
def SpecWellFormed (item : List UInt8) (idSize configSize : Nat) : Prop :=
  Searchable nctSpecCfgName item ∧
    ∀ found, asciiStrStr nctSpecCfgName item = .ok (some found) →
      Quoted configSize (found.drop nctSpecCfgName.length) ∧ Searchable nctSpecIdName item ∧
      ∀ found, asciiStrStr nctSpecIdName item = .ok (some found) →
        Quoted idSize (found.drop nctSpecIdName.length)

/-- Each entry passes the check, or its address cannot be stored, or what the shared local still
holds is in the property already. -/
def NothingLeaks (image : Buffer) (fdtSetProp : String → String → Int) (dtb : Dtb) :
    List MacAddr → List UInt8 → Prop
  | [], _ => True
  | mac :: macs, item =>
    (Passes image mac.id ∨ ¬ Settable fdtSetProp dtb mac ∨
      dtb.property mac.nodePath mac.propName = some (mac.addr item)) ∧
    NothingLeaks image fdtSetProp dtb macs
      (if Passes image mac.id then dataOf image mac.id else item)

structure WellFormed (image : Buffer) (id config : Option Nat) (serialNumber : Bool)
    (fdtSetProp : String → String → Int) (stack : List UInt8) (dtb : Dtb) : Prop where
  entries : EntriesFit image
  spec : ∀ idSize ∈ id, ∀ configSize ∈ config, Passes image nctIdSpec →
    SpecWellFormed (dataOf image nctIdSpec) idSize configSize
  tnspec : image.field tnsLenOffset 4 ≠ 0 → image.field tnsLenOffset 4 ≤ maxTnspecLen →
    image.field tnsOffOffset 4 + image.field tnsLenOffset 4 < image.length
  serial : serialNumber = true → Passes image nctIdSerialNumber →
    0 ∈ dataOf image nctIdSerialNumber
  macs : NothingLeaks image fdtSetProp dtb macAddrs stack

section Texts

theorem asciiStrLen_inside {text : List UInt8} : (asciiStrLen text).Inside ↔ 0 ∈ text := by
  induction text with
  | nil => simp [asciiStrLen]
  | cons c text ih =>
    rw [asciiStrLen]
    split
    · next hc => simp [hc]
    · next hc =>
      rw [Parse.inside_bind, List.mem_cons, or_iff_right (Ne.symm hc), ← ih]
      exact ⟨fun ⟨length, h, _⟩ => ⟨length, h⟩, fun ⟨length, h⟩ => ⟨length, h, Parse.inside_ok _⟩⟩

theorem asciiStrStr_inside {target text : List UInt8} (hne : target ≠ []) :
    (asciiStrStr target text).Inside ↔ Searchable target text := by
  induction text with
  | nil => simp [asciiStrStr, Searchable, hne]
  | cons c text ih =>
    rw [asciiStrStr]
    split
    · next hprefix =>
      have hin := (List.isPrefixOf_iff_prefix.mp hprefix).isInfix
      exact ⟨fun _ => .inr hin, fun _ => Parse.inside_ok _⟩
    · next hprefix =>
      split
      · next hc => simp [Searchable, hc]
      · next hc =>
        rw [ih, Searchable, Searchable, List.mem_cons, or_iff_right (Ne.symm hc), List.infix_cons_iff]
        rw [List.isPrefixOf_iff_prefix] at hprefix
        rw [or_iff_right hprefix]

theorem copyToQuote_inside {room : Nat} {text : List UInt8} :
    (copyToQuote room text).Inside ↔ Quoted room text := by
  induction text generalizing room with
  | nil =>
    have hnone : ¬ Quoted room [] := by
      rintro ⟨value, rest, htext, -⟩
      simp at htext
    cases room <;> simp [copyToQuote, hnone]
  | cons c text ih =>
    cases room with
    | zero =>
      have hnone : ¬ Quoted 0 (c :: text) := fun ⟨_, _, _, _, hroom⟩ => Nat.not_lt_zero _ hroom
      simp [copyToQuote, hnone]
    | succ room =>
      rw [copyToQuote]
      split
      · next hc =>
        exact ⟨fun _ => ⟨[], text, by rw [hc, List.nil_append], List.not_mem_nil, Nat.succ_pos _⟩,
          fun _ => Parse.inside_ok _⟩
      · next hc =>
        have hrest : (do return c :: (← copyToQuote room text) : Checked _).Inside ↔
            (copyToQuote room text).Inside := by
          rw [Parse.inside_bind]
          exact ⟨fun ⟨copy, h, _⟩ => ⟨copy, h⟩, fun ⟨copy, h⟩ => ⟨copy, h, Parse.inside_ok _⟩⟩
        rw [hrest, ih]
        constructor
        · rintro ⟨value, rest, rfl, hvalue, hroom⟩
          refine ⟨c :: value, rest, rfl, ?_, by simpa using hroom⟩
          rw [List.mem_cons, not_or]
          exact ⟨Ne.symm hc, hvalue⟩
        · rintro ⟨value, rest, htext, hvalue, hroom⟩
          cases value with
          | nil => exact absurd (List.cons.inj htext).1 hc
          | cons d value =>
            obtain ⟨rfl, rfl⟩ := List.cons.inj htext
            exact ⟨value, rest, rfl, fun hmem => hvalue (List.mem_cons_of_mem _ hmem),
              by simpa using hroom⟩

theorem length_asciiStrCpyS (destMax : Nat) (source : List UInt8) :
    (asciiStrCpyS destMax source).length ≤ destMax := by
  unfold asciiStrCpyS
  split
  · next h => simpa using Nat.succ_le_of_lt h.2
  · exact Nat.zero_le _

end Texts

section Items
variable {image : Buffer} {id : Nat}

theorem nctReadItem_eq (hmagic : nctInit image = .ok .success) (buf : Bool) :
    nctReadItem image buf id =
      if nctIdEnd < id ∨ buf = false then .ok (.error .invalidParameter)
      else if entryOffset id + 4 ≤ image.length then
        if image.field (entryOffset id) 4 = id then
          if entryOffset id + nctEntryDataOffset + maxNctDataSize ≤ image.length then
            .ok (.ok (dataOf image id))
          else .error ⟨entryOffset id + nctEntryDataOffset, maxNctDataSize⟩
        else .ok (.error .invalidParameter)
      else .error ⟨entryOffset id, 4⟩ := by
  unfold nctReadItem
  rw [hmagic]
  by_cases hid : nctIdEnd < id
  · simp [hid]
  cases buf with
  | false => simp [hid]
  | true =>
    by_cases hin : entryOffset id + 4 ≤ image.length
    · by_cases hindex : image.field (entryOffset id) 4 = id
      · by_cases hdata : entryOffset id + nctEntryDataOffset + maxNctDataSize ≤ image.length
        · simp [hid, hin, hindex, hdata, Buffer.uint_eq hin, Buffer.bytes_eq hdata, dataOf]
        · simp [hid, hin, hindex, hdata, Buffer.uint_eq hin, Buffer.bytes_outside hdata]
      · simp [hid, hin, hindex, Buffer.uint_eq hin]
    · simp [hid, hin, Buffer.uint_outside hin]

theorem entryOffset_mono {a b : Nat} (h : a ≤ b) : entryOffset a ≤ entryOffset b :=
  Nat.add_le_add_left (Nat.mul_le_mul_right _ h) _

/-- The data of an entry end in front of the next entry. -/
theorem entry_le {a b : Nat} (h : a < b) :
    entryOffset a + nctEntryDataOffset + maxNctDataSize ≤ entryOffset b := by
  have hnext : entryOffset (a + 1) = entryOffset a + nctEntrySize := by
    rw [entryOffset, entryOffset, Nat.succ_mul, Nat.add_assoc]
  have hsize : nctEntryDataOffset + maxNctDataSize ≤ nctEntrySize := by decide
  calc entryOffset a + nctEntryDataOffset + maxNctDataSize
      = entryOffset a + (nctEntryDataOffset + maxNctDataSize) := Nat.add_assoc _ _ _
    _ ≤ entryOffset a + nctEntrySize := Nat.add_le_add_left hsize _
    _ = entryOffset (a + 1) := hnext.symm
    _ ≤ entryOffset b := entryOffset_mono h

/-- Every read of an item stays in the image exactly when the entries lie in it. -/
theorem nctReadItem_inside (hmagic : nctInit image = .ok .success) :
    (∀ buf id, (nctReadItem image buf id).Inside) ↔ EntriesFit image := by
  constructor
  · intro h
    have hlast := h true nctIdEnd
    rw [nctReadItem_eq hmagic, if_neg (by simp)] at hlast
    by_cases hin : entryOffset nctIdEnd + 4 ≤ image.length
    · rw [if_pos hin] at hlast
      refine ⟨hin, fun hpasses => ?_⟩
      rw [if_pos hpasses.2] at hlast
      by_contra hdata
      rw [if_neg hdata] at hlast
      exact Parse.not_inside_error _ hlast
    · rw [if_neg hin] at hlast
      exact absurd hlast (Parse.not_inside_error _)
  · rintro ⟨hlast, hdata⟩ buf id
    rw [nctReadItem_eq hmagic]
    split
    · exact Parse.inside_ok _
    · next hgood =>
      have hid : id ≤ nctIdEnd := Nat.le_of_not_lt fun hlt => hgood (.inl hlt)
      have hstart : entryOffset id + 4 ≤ image.length :=
        (Nat.add_le_add_right (entryOffset_mono hid) 4).trans hlast
      rw [if_pos hstart]
      split
      · next hindex =>
        have hfits : entryOffset id + nctEntryDataOffset + maxNctDataSize ≤ image.length := by
          rcases Nat.lt_or_eq_of_le hid with hlt | rfl
          · exact (entry_le hlt).trans (le_trans (Nat.le_add_right _ 4) hlast)
          · exact hdata ⟨hid, hindex⟩
        rw [if_pos hfits]
        exact Parse.inside_ok _
      · exact Parse.inside_ok _

theorem nctReadItem_passes (hmagic : nctInit image = .ok .success) (hfit : EntriesFit image)
    (hid : id ≤ nctIdEnd) :
    nctReadItem image true id =
      .ok (if Passes image id then .ok (dataOf image id) else .error .invalidParameter) := by
  obtain ⟨value, hvalue⟩ := (nctReadItem_inside hmagic).mpr hfit true id
  have hread := hvalue
  rw [nctReadItem_eq hmagic, if_neg (by simpa using hid)] at hread
  split at hread
  · split at hread
    · next hindex =>
      split at hread
      · rw [hvalue, ← hread, if_pos ⟨hid, hindex⟩]
      · cases hread
    · next hindex => rw [hvalue, ← hread, if_neg fun hpasses => hindex hpasses.2]
  · cases hread

theorem nctGetSpec_inside (hmagic : nctInit image = .ok .success) (hfit : EntriesFit image)
    (id config : Option Nat) :
    (nctGetSpec image id config).Inside ↔ ∀ idSize ∈ id, ∀ configSize ∈ config,
      Passes image nctIdSpec → SpecWellFormed (dataOf image nctIdSpec) idSize configSize := by
  cases id with
  | none => simp [nctGetSpec]
  | some idSize =>
    cases config with
    | none => simp [nctGetSpec]
    | some configSize =>
      simp only [Option.mem_def, Option.some.injEq, forall_eq', nctGetSpec]
      rw [nctReadItem_passes hmagic hfit (by decide), Parse.ok_bind]
      by_cases hpasses : Passes image nctIdSpec
      · rw [if_pos hpasses]
        simp only [hpasses, true_imp_iff]
        rw [Parse.inside_bind, SpecWellFormed, ← asciiStrStr_inside (by decide)]
        constructor
        · rintro ⟨found, hfound, hrest⟩
          refine ⟨⟨found, hfound⟩, fun text htext => ?_⟩
          obtain rfl : found = some text := Except.ok.inj (hfound.symm.trans htext)
          obtain ⟨copy, hcopy, hrest⟩ := Parse.inside_bind.mp hrest
          obtain ⟨found, hfound, hrest⟩ := Parse.inside_bind.mp hrest
          refine ⟨copyToQuote_inside.mp ⟨copy, hcopy⟩,
            (asciiStrStr_inside (by decide)).mp ⟨found, hfound⟩, fun text htext => ?_⟩
          obtain rfl : found = some text := Except.ok.inj (hfound.symm.trans htext)
          obtain ⟨copy, hcopy, -⟩ := Parse.inside_bind.mp hrest
          exact copyToQuote_inside.mp ⟨copy, hcopy⟩
        · rintro ⟨⟨found, hfound⟩, hrest⟩
          refine ⟨found, hfound, ?_⟩
          cases found with
          | none => exact Parse.inside_ok _
          | some text =>
            obtain ⟨hquoted, hsearch, hrest⟩ := hrest text hfound
            obtain ⟨copy, hcopy⟩ := copyToQuote_inside.mpr hquoted
            obtain ⟨found, hfound⟩ := (asciiStrStr_inside (by decide)).mpr hsearch
            refine Parse.inside_bind.mpr ⟨copy, hcopy, Parse.inside_bind.mpr ⟨found, hfound, ?_⟩⟩
            cases found with
            | none => exact Parse.inside_ok _
            | some text =>
              obtain ⟨copy, hcopy⟩ := copyToQuote_inside.mpr (hrest text hfound)
              exact Parse.inside_bind.mpr ⟨copy, hcopy, Parse.inside_ok _⟩
      · rw [if_neg hpasses]
        exact ⟨fun _ h => absurd h hpasses, fun _ => Parse.inside_ok _⟩

theorem nctGetTnspec_inside (hmagic : nctInit image = .ok .success) (hfit : EntriesFit image) :
    (nctGetTnspec image).Inside ↔ (image.field tnsLenOffset 4 ≠ 0 →
      image.field tnsLenOffset 4 ≤ maxTnspecLen →
        image.field tnsOffOffset 4 + image.field tnsLenOffset 4 < image.length) := by
  have hheader : 32 ≤ image.length := le_trans (by decide) hfit.1
  have hid : tnsIdOffset + 4 ≤ image.length := le_trans (by decide) hheader
  have hoff : tnsOffOffset + 4 ≤ image.length := le_trans (by decide) hheader
  have hlen : tnsLenOffset + 4 ≤ image.length := hheader
  unfold nctGetTnspec
  rw [hmagic, Buffer.bytes_eq hid, Buffer.uint_eq hoff, Buffer.uint_eq hlen]
  simp only [Parse.ok_bind, ne_eq, not_true_eq_false, if_false, Parse.pure_eq]
  by_cases hbad : image.field tnsLenOffset 4 = 0 ∨ maxTnspecLen < image.field tnsLenOffset 4
  · rw [if_pos hbad]
    exact ⟨fun _ hne hle => absurd hbad (by omega), fun _ => Parse.inside_ok _⟩
  · rw [if_neg hbad]
    by_cases hlast : image.field tnsOffOffset 4 + image.field tnsLenOffset 4 < image.length
    · rw [Buffer.uint_eq (Nat.succ_le_of_lt hlast), Parse.ok_bind]
      refine ⟨fun _ _ _ => hlast, fun _ => ?_⟩
      split <;> exact Parse.inside_ok _
    · rw [Buffer.uint_outside hlast, Parse.error_bind]
      exact ⟨fun h => absurd h (Parse.not_inside_error _), fun h => absurd (h (by omega) (by omega))
        hlast⟩

theorem nctGetSerialNumber_inside (hmagic : nctInit image = .ok .success)
    (hfit : EntriesFit image) (serialNumber : Bool) (bufferSize : Nat) :
    (∃ status written, nctGetSerialNumber image serialNumber bufferSize = .ok (status, written) ∧
      written.length ≤ bufferSize) ↔
    (serialNumber = true → Passes image nctIdSerialNumber →
      0 ∈ dataOf image nctIdSerialNumber) := by
  unfold nctGetSerialNumber
  rw [hmagic]
  cases serialNumber with
  | false => simp
  | true =>
    rw [nctReadItem_passes hmagic hfit (by decide)]
    by_cases hpasses : Passes image nctIdSerialNumber
    · simp only [hpasses, if_true, Parse.ok_bind, true_imp_iff]
      rw [← asciiStrLen_inside]
      constructor
      · rintro ⟨status, written, h, -⟩
        obtain ⟨length, hlength, -⟩ := Parse.inside_bind.mp ⟨_, h⟩
        exact ⟨length, hlength⟩
      · rintro ⟨length, hlength⟩
        simp only [hlength, Parse.ok_bind]
        by_cases hzero : length = 0
        · exact ⟨.invalidParameter, [], by simp [hzero], Nat.zero_le _⟩
        · exact ⟨.success, _, by simp [hzero]; rfl, length_asciiStrCpyS _ _⟩
    · simp [hpasses]

end Items

section Macs
variable {image : Buffer} (fdtSetProp : String → String → Int)

theorem setMacAddrInDtb_property (dtb : Dtb) (mac : MacAddr) (addr : List UInt8)
    (path name : String) :
    (setMacAddrInDtb fdtSetProp dtb mac.nodePath mac.propName addr).2.property path name =
      if Settable fdtSetProp dtb mac ∧ path = mac.nodePath ∧ name = mac.propName then some addr
      else dtb.property path name := by
  unfold setMacAddrInDtb Settable
  by_cases hnode : dtb.hasNode mac.nodePath = true
  · by_cases hset : fdtSetProp mac.nodePath mac.propName < 0
    · simp [hnode, hset]
    · simp [hnode, hset, Dtb.setProp, not_lt.mp hset]
  · simp [hnode]

theorem setMacAddrInDtb_hasNode (dtb : Dtb) (path name : String) (addr : List UInt8) :
    (setMacAddrInDtb fdtSetProp dtb path name addr).2.hasNode = dtb.hasNode := by
  unfold setMacAddrInDtb
  split
  · rfl
  · split <;> rfl

theorem settable_congr {dtb after : Dtb} (h : after.hasNode = dtb.hasNode) (mac : MacAddr) :
    Settable fdtSetProp after mac ↔ Settable fdtSetProp dtb mac := by
  rw [Settable, Settable, h]

theorem nothingLeaks_congr {dtb after : Dtb} {macs : List MacAddr}
    (hnode : after.hasNode = dtb.hasNode) (hproperty : ∀ mac ∈ macs,
      after.property mac.nodePath mac.propName = dtb.property mac.nodePath mac.propName)
    (item : List UInt8) :
    NothingLeaks image fdtSetProp after macs item ↔ NothingLeaks image fdtSetProp dtb macs item := by
  induction macs generalizing item with
  | nil => rfl
  | cons mac macs ih =>
    obtain ⟨hhere, hthere⟩ := List.forall_mem_cons.mp hproperty
    rw [NothingLeaks, NothingLeaks, settable_congr fdtSetProp hnode, hhere, ih hthere]

theorem populate_cons (hmagic : nctInit image = .ok .success) (hfit : EntriesFit image)
    {mac : MacAddr} (hid : mac.id ≤ nctIdEnd) (macs : List MacAddr) {item next : List UInt8}
    (hnext : next = if Passes image mac.id then dataOf image mac.id else item)
    (status : EfiStatus) (dtb : Dtb) :
    populate image fdtSetProp (mac :: macs) item (status, dtb) =
      populate image fdtSetProp macs next
        (setMacAddrInDtb fdtSetProp dtb mac.nodePath mac.propName (mac.addr next)) := by
  rw [populate, nctReadItem_passes hmagic hfit hid, Parse.ok_bind, hnext]
  by_cases hpasses : Passes image mac.id
  · simp only [if_pos hpasses]
  · simp only [if_neg hpasses]

/-- The properties of the addresses of a list that are at different nodes, after the list has been
gone through, are as they should be exactly when nothing leaks. -/
theorem populate_law (hmagic : nctInit image = .ok .success) (hfit : EntriesFit image)
    (macs : List MacAddr) (hids : ∀ mac ∈ macs, mac.id ≤ nctIdEnd)
    (hnodes : macs.Pairwise fun a b => a.nodePath ≠ b.nodePath) (item : List UInt8)
    (status : EfiStatus) (dtb : Dtb) :
    ∃ result, populate image fdtSetProp macs item (status, dtb) = .ok result ∧
      (∀ path name, (∀ mac ∈ macs, path ≠ mac.nodePath) →
        result.2.property path name = dtb.property path name) ∧
      ((∀ mac ∈ macs, result.2.property mac.nodePath mac.propName =
        published image fdtSetProp dtb mac) ↔ NothingLeaks image fdtSetProp dtb macs item) := by
  induction macs generalizing item status dtb with
  | nil => exact ⟨_, rfl, fun _ _ _ => rfl, fun _ => trivial, fun _ _ h => by cases h⟩
  | cons mac macs ih =>
    obtain ⟨hid, hids⟩ := List.forall_mem_cons.mp hids
    obtain ⟨hfirst, hnodes⟩ := List.pairwise_cons.mp hnodes
    obtain ⟨next, hnext⟩ : ∃ next, next =
      if Passes image mac.id then dataOf image mac.id else item := ⟨_, rfl⟩
    obtain ⟨stored, after, hstored⟩ : ∃ stored after,
      setMacAddrInDtb fdtSetProp dtb mac.nodePath mac.propName (mac.addr next) =
        (stored, after) := ⟨_, _, rfl⟩
    have hproperty := setMacAddrInDtb_property fdtSetProp dtb mac (mac.addr next)
    have hnode := setMacAddrInDtb_hasNode fdtSetProp dtb mac.nodePath mac.propName
      (mac.addr next)
    rw [hstored] at hproperty hnode
    obtain ⟨result, hresult, hkept, hlaw⟩ := ih hids hnodes next stored after
    refine ⟨result, ?_, ?_, ?_⟩
    · rw [populate_cons fdtSetProp hmagic hfit hid macs hnext, hstored]
      exact hresult
    · intro path name hpath
      obtain ⟨hhere, hthere⟩ := List.forall_mem_cons.mp hpath
      rw [hkept path name hthere, hproperty, if_neg fun h => hhere h.2.1]
    · -- the addresses further on see the tree as it was
      have hlater : ∀ other ∈ macs, after.property other.nodePath other.propName =
          dtb.property other.nodePath other.propName := fun other hother => by
        rw [hproperty, if_neg fun h => hfirst other hother h.2.1.symm]
      have hsame : ∀ other ∈ macs, published image fdtSetProp after other =
          published image fdtSetProp dtb other := fun other hother => by
        simp only [published, settable_congr fdtSetProp hnode, hlater other hother]
      rw [List.forall_mem_cons, NothingLeaks, ← hnext, ← nothingLeaks_congr fdtSetProp hnode hlater, ← hlaw]
      refine and_congr ?_ (forall₂_congr fun other hother => by rw [hsame other hother])
      rw [hkept _ _ hfirst, hproperty, published]
      by_cases hset : Settable fdtSetProp dtb mac
      · by_cases hpasses : Passes image mac.id
        · simp [hset, hpasses, hnext]
        · simp [hset, hpasses, hnext, eq_comm]
      · simp [hset]

theorem nctPopulateMacAddrs_law (hmagic : nctInit image = .ok .success) (hfit : EntriesFit image)
    (stack : List UInt8) (dtb : Dtb) :
    (∃ status after, nctPopulateMacAddrs image fdtSetProp stack (some dtb) =
      .ok (status, some after) ∧ ∀ mac ∈ macAddrs,
        after.property mac.nodePath mac.propName = published image fdtSetProp dtb mac) ↔
      NothingLeaks image fdtSetProp dtb macAddrs stack := by
  obtain ⟨⟨status, after⟩, hresult, -, hlaw⟩ := populate_law fdtSetProp hmagic hfit macAddrs
    (by decide) (by decide) stack .success dtb
  rw [← hlaw]
  simp only [nctPopulateMacAddrs, hmagic, Parse.ok_bind, ne_eq, not_true_eq_false, if_false, hresult,
    Parse.pure_eq]
  constructor
  · rintro ⟨status', after', heq, h⟩
    cases heq
    exact h
  · intro h
    exact ⟨status, after, rfl, h⟩

end Macs

/-- For every table with the right magic, every output and every tree: the items are read faithfully
exactly when the table is well formed in what is used of it. -/
theorem items_faithful_iff (image : Buffer) (hmagic : nctInit image = .ok .success)
    (id config : Option Nat) (serialNumber : Bool) (bufferSize : Nat)
    (fdtSetProp : String → String → Int) (stack : List UInt8) (dtb : Dtb) :
    Faithful image id config serialNumber bufferSize fdtSetProp stack dtb ↔
      WellFormed image id config serialNumber fdtSetProp stack dtb := by
  constructor
  · rintro ⟨hread, hspec, htnspec, hserial, hmacs⟩
    have hfit := (nctReadItem_inside hmagic).mp hread
    exact ⟨hfit, (nctGetSpec_inside hmagic hfit id config).mp hspec,
      (nctGetTnspec_inside hmagic hfit).mp htnspec,
      (nctGetSerialNumber_inside hmagic hfit serialNumber bufferSize).mp hserial,
      (nctPopulateMacAddrs_law fdtSetProp hmagic hfit stack dtb).mp hmacs⟩
  · rintro ⟨hfit, hspec, htnspec, hserial, hmacs⟩
    exact ⟨(nctReadItem_inside hmagic).mpr hfit, (nctGetSpec_inside hmagic hfit id config).mpr hspec,
      (nctGetTnspec_inside hmagic hfit).mpr htnspec,
      (nctGetSerialNumber_inside hmagic hfit serialNumber bufferSize).mpr hserial,
      (nctPopulateMacAddrs_law fdtSetProp hmagic hfit stack dtb).mpr hmacs⟩

/-- A partition of so many bytes that are all zero but for the magic: the entry of the serial number
is the only one that passes the check. -/
def blankImage (length : Nat) : Buffer := ⟨length, fun k => nctMagicId.getD k 0⟩

/-- A tree with every node and no property. -/
def bareDtb : Dtb := ⟨fun _ => true, fun _ _ => none⟩

def specText : List UInt8 := charBytes "\"config\":\"A\",\"id\":\"B\""

/-- The bytes of an entry: its id in front, and an address or the text of the spec as its data. -/
def entryByte (id offset : Nat) : UInt8 :=
  if offset = 0 then UInt8.ofNat id
  else if offset < nctEntryDataOffset then 0
  else if id = nctIdSpec then specText.getD (offset - nctEntryDataOffset) 0
  else if offset < nctEntryDataOffset + netEtherAddrLen then UInt8.ofNat (id + offset)
  else 0

/-- A partition with every entry in its place. -/
def filledImage : Buffer where
  length := 0x10000
  content := fun k =>
    if k < nctEntryOffset then nctMagicId.getD k 0
    else entryByte ((k - nctEntryOffset) / nctEntrySize) ((k - nctEntryOffset) % nctEntrySize)

/-- The spec is read, and all four addresses are published. -/
theorem items_faithful_filled :
    Faithful filledImage (some 64) (some 64) true 30 (fun _ _ => 0)
      (List.replicate maxNctDataSize 7) bareDtb := by
  refine (items_faithful_iff filledImage (by rfl) (some 64) (some 64) true 30 (fun _ _ => 0)
    (List.replicate maxNctDataSize 7) bareDtb).mpr
      ⟨⟨by decide, fun _ => by decide⟩, ?_, ?_, ?_, ?_⟩
  · rintro idSize hid configSize hconfig -
    obtain rfl := Option.some.inj hid
    obtain rfl := Option.some.inj hconfig
    -- the text is in front; what is behind it is never looked at
    obtain ⟨rest, hrest⟩ : ∃ rest, dataOf filledImage nctIdSpec = specText ++ 0 :: rest := by
      refine ⟨slice filledImage.content (entryOffset nctIdSpec + nctEntryDataOffset + 22)
        (maxNctDataSize - 22), ?_⟩
      unfold dataOf
      rw [show maxNctDataSize = 22 + (maxNctDataSize - 22) from rfl, slice_add]
      rw [show slice filledImage.content (entryOffset nctIdSpec + nctEntryDataOffset) 22 =
        specText ++ [0] by decide, List.append_assoc]
      rfl
    rw [hrest]
    have hitem : 0 ∈ specText ++ 0 :: rest :=
      List.mem_append_right _ List.mem_cons_self
    refine ⟨.inl hitem, fun found hfound => ⟨?_, .inl hitem, fun found hfound => ?_⟩⟩
    · have hconfigFound : asciiStrStr nctSpecCfgName (specText ++ 0 :: rest) =
          .ok (some (specText ++ 0 :: rest)) := rfl
      obtain rfl := Option.some.inj (Except.ok.inj (hconfigFound.symm.trans hfound))
      exact ⟨charBytes "A", specText.drop 12 ++ 0 :: rest, rfl, by decide, by decide⟩
    · have hidFound : asciiStrStr nctSpecIdName (specText ++ 0 :: rest) =
          .ok (some (specText.drop 13 ++ 0 :: rest)) := rfl
      obtain rfl := Option.some.inj (Except.ok.inj (hidFound.symm.trans hfound))
      exact ⟨charBytes "B", 0 :: rest, rfl, by decide, by decide⟩
  · exact fun h => absurd (by decide) h
  · exact fun _ _ => by decide
  · exact ⟨.inl (by decide), .inl (by decide), .inl (by decide),
      .inl (by decide), trivial⟩

/-- A partition with the right magic whose entry for the first address fails its check: what the
stack holds is published as the address. -/
theorem stack_is_published :
    nctInit (blankImage 0x10000) = .ok .success ∧
    ¬ Faithful (blankImage 0x10000) (some 64) (some 64) true 30 (fun _ _ => 0)
      (List.replicate maxNctDataSize 7) bareDtb := by
  have hmagic : nctInit (blankImage 0x10000) = .ok .success := by rfl
  refine ⟨hmagic, fun h => ?_⟩
  have hfit := (nctReadItem_inside hmagic).mp h.readItem
  have hleaks := ((nctPopulateMacAddrs_law _ hmagic hfit _ _).mp h.macs).1
  revert hleaks
  decide

end Nct
