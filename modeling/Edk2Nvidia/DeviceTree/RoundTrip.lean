import Edk2Nvidia.DeviceTree.Registers

/-! What `DeviceTreeSetRegisters` stores, `DeviceTreeGetRegisters` finds again. -/
namespace DeviceTree
open Parse

section
variable (addressCells sizeCells : Nat)

def Register.Fits (r : Register) : Prop :=
  r.baseAddress.toNat < 256 ^ (4 * addressCells) ∧ r.size.toNat < 256 ^ (4 * sizeCells)

instance (r : Register) : Decidable (r.Fits addressCells sizeCells) :=
  inferInstanceAs (Decidable (_ ∧ _))

end

def NamesFirst : List Register → Prop
  | [] => True
  | r :: rest => if r.name = none then ∀ s ∈ rest, s.name = none else NamesFirst rest

instance : (registers : List Register) → Decidable (NamesFirst registers)
  | [] => isTrue trivial
  | r :: rest =>
    have := instDecidableNamesFirst rest
    inferInstanceAs (Decidable (if r.name = none then ∀ s ∈ rest, s.name = none else NamesFirst rest))

section
variable {addressCells sizeCells : Nat}

@[simp] theorem length_encodeRegister (r : Register) :
    (encodeRegister addressCells sizeCells r).length = entrySize addressCells sizeCells := by
  simp only [encodeRegister, entrySize, List.length_append, length_toBigEndian]
  omega

theorem length_encodeRegisters (registers : List Register) :
    (registers.flatMap (encodeRegister addressCells sizeCells)).length =
      registers.length * entrySize addressCells sizeCells := by
  induction registers with
  | nil => simp
  | cons r rest ih =>
    rw [List.flatMap_cons, List.length_append, length_encodeRegister, ih, List.length_cons,
      Nat.succ_mul, Nat.add_comm]

theorem length_regProperty (registers : List Register) :
    (regProperty addressCells sizeCells registers).length =
      propertySize addressCells sizeCells registers.length := by
  rw [regProperty, List.length_take, length_encodeRegisters]
  exact Nat.min_eq_left (Nat.mod_le _ _)

theorem regProperty_eq {registers : List Register}
    (hsize : registers.length * entrySize addressCells sizeCells < 2 ^ 32) :
    regProperty addressCells sizeCells registers =
      registers.flatMap (encodeRegister addressCells sizeCells) := by
  rw [regProperty, propertySize, Nat.mod_eq_of_lt hsize, ← length_encodeRegisters, List.take_length]

theorem leadingNames_of_unnamed {registers : List Register} (h : ∀ r ∈ registers, r.name = none) :
    leadingNames registers = [] := by
  cases registers with
  | nil => rfl
  | cons r rest => simp [leadingNames, h r List.mem_cons_self]

theorem regNames_eq_nil {registers : List Register} :
    regNames registers = [] ↔ leadingNames registers = [] := by
  rw [regNames, List.flatMap_eq_nil_iff]
  constructor
  · intro h
    cases hnames : leadingNames registers with
    | nil => rfl
    | cons name names => exact absurd (h name (by simp [hnames])) name.terminated_ne_nil
  · intro h
    simp [h]

theorem decode_encode {cells : Nat} {value : UInt64} (h : value.toNat < 256 ^ (4 * cells)) :
    UInt64.ofNat (fromBigEndian (toBigEndian (4 * cells) value.toNat)) = value := by
  rw [fromBigEndian_toBigEndian h, UInt64.ofNat_toNat]

theorem readRegions_encode {registers : List Register} (hfirst : NamesFirst registers)
    (hfits : ∀ r ∈ registers, r.Fits addressCells sizeCells) :
    readRegions addressCells sizeCells registers.length
      (registers.flatMap (encodeRegister addressCells sizeCells)) (regNames registers) =
        registers := by
  induction registers with
  | nil => rfl
  | cons r rest ih =>
    obtain ⟨hbase, hsize⟩ := hfits r List.mem_cons_self
    have hrest : NamesFirst rest := by
      by_cases hr : r.name = none
      · simp only [NamesFirst, hr, if_true] at hfirst
        cases rest with
        | nil => trivial
        | cons s rest' =>
          obtain ⟨hs, hrest'⟩ := List.forall_mem_cons.mp hfirst
          simp only [NamesFirst, hs, if_true]
          exact hrest'
      · simpa only [NamesFirst, if_neg hr] using hfirst
    have hdata : (r :: rest).flatMap (encodeRegister addressCells sizeCells) =
        toBigEndian (4 * addressCells) r.baseAddress.toNat ++
          (toBigEndian (4 * sizeCells) r.size.toNat ++
            rest.flatMap (encodeRegister addressCells sizeCells)) := by
      rw [List.flatMap_cons, encodeRegister, List.append_assoc]
    have hback : ((r :: rest).flatMap (encodeRegister addressCells sizeCells)).drop
        (entrySize addressCells sizeCells) =
          rest.flatMap (encodeRegister addressCells sizeCells) := by
      rw [List.flatMap_cons]
      exact drop_front _ (length_encodeRegister r)
    have ih := ih hrest fun s hs => hfits s (List.mem_cons_of_mem r hs)
    simp only [List.length_cons, readRegions, hback]
    rw [hdata, take_front _ (length_toBigEndian _ _), drop_front _ (length_toBigEndian _ _),
      take_front _ (length_toBigEndian _ _), decode_encode hbase, decode_encode hsize]
    cases hname : r.name with
    | none =>
      have hnames : regNames (r :: rest) = [] := by simp [regNames, leadingNames, hname]
      have hunnamed : leadingNames rest = [] := by
        simp only [NamesFirst, hname, if_true] at hfirst
        exact leadingNames_of_unnamed hfirst
      rw [regNames_eq_nil.mpr hunnamed] at ih
      simp only [hnames, if_true, List.drop_nil, ih]
      rw [← hname]
    | some name =>
      have hnames : regNames (r :: rest) = name.terminated ++ regNames rest := by
        simp [regNames, leadingNames, hname]
      have hne : name.terminated ++ regNames rest ≠ [] := by
        simp [CString.terminated]
      simp only [hnames, if_neg hne, CString.first_terminated,
        drop_front _ name.length_terminated, ih]
      rw [← hname]

end

theorem registerCells_of_parent {node : Node} {parent : Properties} {addressCells sizeCells : UInt64}
    (hparent : node.parent = some parent)
    (haddress : deviceTreeGetNodePropertyValue64 parent "#address-cells" = .ok addressCells)
    (hsize : deviceTreeGetNodePropertyValue64 parent "#size-cells" = .ok sizeCells)
    (ha : addressCells = 1 ∨ addressCells = 2) (hs : sizeCells = 1 ∨ sizeCells = 2) :
    registerCells node = .ok (addressCells.toNat, sizeCells.toNat) := by
  have hgood : ¬ (addressCells > 2 ∨ addressCells = 0 ∨ sizeCells > 2 ∨ sizeCells = 0) := by
    rcases ha with rfl | rfl <;> rcases hs with rfl | rfl <;> decide
  simp only [registerCells, hparent, haddress, hsize, if_neg hgood]

section
variable (refuses : String → List UInt8 → Bool) (addressCells sizeCells : Nat)

/-- The tree has no room for one of the properties that are to be stored. -/
def Refused (registers : List Register) : Prop :=
  refuses "reg" (regProperty addressCells sizeCells registers) = true ∨
    leadingNames registers ≠ [] ∧ refuses "reg-names" (regNames registers) = true

/-- What a caller may expect of storing `registers` in `node`: the same ones come back, or
an error leaves both properties as they were. -/
structure RoundTrips (node : Node) (registers : List Register) : Prop where
  reads_back : (deviceTreeSetRegisters refuses node registers).1 = .success →
    ∀ capacity, registers.length ≤ capacity →
      deviceTreeGetRegisters (deviceTreeSetRegisters refuses node registers).2 capacity =
        (.success, registers, registers.length)
  refuses_wide : (∃ r ∈ registers, ¬ r.Fits addressCells sizeCells) →
    (deviceTreeSetRegisters refuses node registers).1 ≠ .success
  reports : Refused refuses addressCells sizeCells registers →
    (deviceTreeSetRegisters refuses node registers).1 ≠ .success
  restores : (deviceTreeSetRegisters refuses node registers).1 ≠ .success →
    ∀ property, property = "reg" ∨ property = "reg-names" →
      (deviceTreeSetRegisters refuses node registers).2.properties property =
        node.properties property

/-- The values fit the cells and the property size its 32 bits. -/
def Storable (registers : List Register) : Prop :=
  (∀ r ∈ registers, r.Fits addressCells sizeCells) ∧
    registers.length * entrySize addressCells sizeCells < 2 ^ 32

/-- Nothing is stored at all, or everything is and no old names are left. -/
def Clean (node : Node) (registers : List Register) : Prop :=
  if leadingNames registers = [] then
    refuses "reg" (regProperty addressCells sizeCells registers) = true ∨
      Storable addressCells sizeCells registers ∧
        ∀ names, node.properties "reg-names" = some names → names = []
  else
    refuses "reg-names" (regNames registers) = true ∨
      if refuses "reg" (regProperty addressCells sizeCells registers) then
        node.properties "reg-names" = some (regNames registers)
      else Storable addressCells sizeCells registers

end

section
variable {refuses : String → List UInt8 → Bool} {addressCells sizeCells : Nat} {node : Node}
  {registers : List Register}

theorem entrySize_pos (sizeCells : Nat) (ha : 0 < addressCells) : 0 < entrySize addressCells sizeCells := by
  unfold entrySize
  omega

theorem getRegisters_of_entries {data : List UInt8} {count capacity : Nat}
    (hcells : registerCells node = .ok (addressCells, sizeCells))
    (ha : 0 < addressCells) (hreg : node.properties "reg" = some data)
    (hdata : data.length = count * entrySize addressCells sizeCells) (hcount : 0 < count)
    (hcapacity : count ≤ capacity) :
    deviceTreeGetRegisters node capacity =
      (.success, readRegions addressCells sizeCells count data
        ((node.properties "reg-names").getD []), count) := by
  have hentry := entrySize_pos sizeCells ha
  have hmod : ¬ data.length % entrySize addressCells sizeCells ≠ 0 := by
    rw [hdata, Nat.mul_mod_left]
    simp
  have hdiv : data.length / entrySize addressCells sizeCells = count := by
    rw [hdata, Nat.mul_div_cancel _ hentry]
  unfold deviceTreeGetRegisters deviceTreeGetNodeProperty
  simp only [hcells, hreg, if_neg hmod, hdiv, if_neg (Nat.not_lt.mpr hcapacity),
    if_neg (Nat.pos_iff_ne_zero.mp hcount)]
  cases node.properties "reg-names" with
  | none => rfl
  | some names => rfl

theorem entries_of_getRegisters {data : List UInt8} {count capacity : Nat}
    (hcells : registerCells node = .ok (addressCells, sizeCells))
    (hreg : node.properties "reg" = some data)
    (h : deviceTreeGetRegisters node capacity = (.success, registers, count)) :
    count = data.length / entrySize addressCells sizeCells ∧
      registers = readRegions addressCells sizeCells count data
        ((node.properties "reg-names").getD []) := by
  unfold deviceTreeGetRegisters deviceTreeGetNodeProperty at h
  simp only [hcells, hreg] at h
  split at h
  · cases h
  · split at h
    · cases h
    · split at h
      · cases h
      · cases hnames : node.properties "reg-names" with
        | none =>
          rw [hnames] at h
          cases h
          exact ⟨rfl, rfl⟩
        | some names =>
          rw [hnames] at h
          cases h
          exact ⟨rfl, rfl⟩

theorem setRegisters_cases (refuses : String → List UInt8 → Bool) (hne : registers ≠ [])
    (hcells : registerCells node = .ok (addressCells, sizeCells)) :
    deviceTreeSetRegisters refuses node registers =
      if leadingNames registers ≠ [] ∧ refuses "reg-names" (regNames registers) then
        (.deviceError, node)
      else
        let named := if leadingNames registers = [] then node else { node with
          properties := fun name =>
            if name = "reg-names" then some (regNames registers) else node.properties name }
        if refuses "reg" (regProperty addressCells sizeCells registers) then (.deviceError, named)
        else (.success, { named with
          properties := fun name =>
            if name = "reg" then some (regProperty addressCells sizeCells registers)
            else named.properties name }) := by
  unfold deviceTreeSetRegisters deviceTreeSetNodeProperty
  simp only [if_neg hne, hcells]
  by_cases hnames : leadingNames registers = []
  · simp only [hnames, if_true, ne_eq, not_true_eq_false, false_and, if_false]
    cases refuses "reg" (regProperty addressCells sizeCells registers) <;> rfl
  · cases hrefused : refuses "reg-names" (regNames registers) with
    | true => simp [hnames]
    | false =>
      simp only [hnames, if_false, Bool.false_eq_true, and_false]
      cases refuses "reg" (regProperty addressCells sizeCells registers) <;> rfl

theorem storable_of_readsBack {capacity : Nat} {node' : Node}
    (hcells : registerCells node' = .ok (addressCells, sizeCells)) (ha : 0 < addressCells)
    (hfits : ∀ r ∈ registers, r.Fits addressCells sizeCells)
    (hreg : node'.properties "reg" = some (regProperty addressCells sizeCells registers))
    (h : deviceTreeGetRegisters node' capacity = (.success, registers, registers.length)) :
    Storable addressCells sizeCells registers := by
  have hcount := (entries_of_getRegisters hcells hreg h).1
  have hle : registers.length * entrySize addressCells sizeCells ≤
      propertySize addressCells sizeCells registers.length := by
    rw [← length_regProperty]
    exact (Nat.le_div_iff_mul_le (entrySize_pos _ ha)).mp (Nat.le_of_eq hcount)
  exact ⟨hfits, Nat.lt_of_le_of_lt hle (Nat.mod_lt _ (by decide))⟩

theorem readsBack_of_storable {capacity : Nat} {node' : Node} (hne : registers ≠ [])
    (hfirst : NamesFirst registers)
    (hcells : registerCells node' = .ok (addressCells, sizeCells)) (ha : 0 < addressCells)
    (hstorable : Storable addressCells sizeCells registers)
    (hreg : node'.properties "reg" = some (regProperty addressCells sizeCells registers))
    (hnames : (node'.properties "reg-names").getD [] = regNames registers)
    (hcapacity : registers.length ≤ capacity) :
    deviceTreeGetRegisters node' capacity = (.success, registers, registers.length) := by
  rw [regProperty_eq hstorable.2] at hreg
  rw [getRegisters_of_entries hcells ha hreg (length_encodeRegisters registers)
    (List.length_pos_iff.mpr hne) hcapacity, hnames, readRegions_encode hfirst hstorable.1]

/-- The first register read takes a name from any names there are. -/
theorem names_empty_of_readsBack {capacity : Nat} {node' : Node} {data : List UInt8}
    (hne : registers ≠ []) (hunnamed : leadingNames registers = [])
    (hcells : registerCells node' = .ok (addressCells, sizeCells))
    (hreg : node'.properties "reg" = some data)
    (h : deviceTreeGetRegisters node' capacity = (.success, registers, registers.length)) :
    (node'.properties "reg-names").getD [] = [] := by
  have hread := (entries_of_getRegisters hcells hreg h).2
  cases registers with
  | nil => exact absurd rfl hne
  | cons r rest =>
    by_contra hstale
    rw [List.length_cons, readRegions] at hread
    simp only [if_neg hstale] at hread
    injection hread with hr
    rw [hr] at hunnamed
    simp [leadingNames] at hunnamed

/-- A call that fails and changes neither property does all that is asked of it. -/
theorem roundTrips_of_unchanged {node' : Node}
    (hset : deviceTreeSetRegisters refuses node registers = (.deviceError, node'))
    (hsame : ∀ property, property = "reg" ∨ property = "reg-names" →
      node'.properties property = node.properties property) :
    RoundTrips refuses addressCells sizeCells node registers where
  reads_back h := by
    rw [hset] at h
    cases h
  refuses_wide _ := by
    rw [hset]
    exact nofun
  reports _ := by
    rw [hset]
    exact nofun
  restores _ := by
    rw [hset]
    exact hsame

theorem roundTrips_of_stored {node' : Node} (hne : registers ≠ []) (hfirst : NamesFirst registers)
    (ha : 0 < addressCells)
    (hset : deviceTreeSetRegisters refuses node registers = (.success, node'))
    (hcells : registerCells node' = .ok (addressCells, sizeCells))
    (hreg : node'.properties "reg" = some (regProperty addressCells sizeCells registers))
    (hnames : (node'.properties "reg-names").getD [] = regNames registers)
    (hstored : ¬ Refused refuses addressCells sizeCells registers)
    (hstorable : Storable addressCells sizeCells registers) :
    RoundTrips refuses addressCells sizeCells node registers where
  reads_back _ capacity hcapacity := by
    rw [hset]
    exact readsBack_of_storable hne hfirst hcells ha hstorable hreg hnames hcapacity
  refuses_wide hwide := by
    obtain ⟨r, hr, hwide⟩ := hwide
    exact absurd (hstorable.1 r hr) hwide
  reports h := absurd h hstored
  restores h := by
    rw [hset] at h
    exact absurd rfl h

/-- What a successful call that meets the expectation says of its input. -/
theorem storable_of_roundTrips {node' : Node} (ha : 0 < addressCells)
    (h : RoundTrips refuses addressCells sizeCells node registers)
    (hset : deviceTreeSetRegisters refuses node registers = (.success, node'))
    (hcells : registerCells node' = .ok (addressCells, sizeCells))
    (hreg : node'.properties "reg" = some (regProperty addressCells sizeCells registers)) :
    Storable addressCells sizeCells registers ∧
      deviceTreeGetRegisters node' registers.length =
        (.success, registers, registers.length) := by
  have hback := h.reads_back (by rw [hset]) registers.length (Nat.le_refl _)
  rw [hset] at hback
  have hfits : ∀ r ∈ registers, r.Fits addressCells sizeCells := by
    by_contra hwide
    push Not at hwide
    exact h.refuses_wide hwide (by rw [hset])
  exact ⟨storable_of_readsBack hcells ha hfits hreg hback, hback⟩

theorem roundTrips_unnamed (hne : registers ≠ []) (hfirst : NamesFirst registers)
    (hcells : registerCells node = .ok (addressCells, sizeCells)) (ha : 0 < addressCells)
    (hnames : leadingNames registers = []) :
    RoundTrips refuses addressCells sizeCells node registers ↔
      refuses "reg" (regProperty addressCells sizeCells registers) = true ∨
        Storable addressCells sizeCells registers ∧
          ∀ names, node.properties "reg-names" = some names → names = [] := by
  have hset := setRegisters_cases refuses hne hcells
  simp only [hnames, ne_eq, not_true_eq_false, false_and, if_false, if_true] at hset
  cases hrefused : refuses "reg" (regProperty addressCells sizeCells registers) with
  | true =>
    rw [hrefused, if_pos rfl] at hset
    exact ⟨fun _ => .inl rfl, fun _ => roundTrips_of_unchanged hset fun _ _ => rfl⟩
  | false =>
    simp only [hrefused, Bool.false_eq_true, if_false] at hset
    constructor
    · intro h
      obtain ⟨hstorable, hback⟩ := storable_of_roundTrips ha h hset hcells rfl
      refine .inr ⟨hstorable, fun names hstale => ?_⟩
      have hempty := names_empty_of_readsBack hne hnames (by exact hcells) (by exact rfl) hback
      simpa [hstale] using hempty
    · rintro (h | ⟨hstorable, hstale⟩)
      · cases h
      · refine roundTrips_of_stored hne hfirst ha hset hcells rfl ?_
          (by simp [Refused, hnames, hrefused]) hstorable
        rw [regNames_eq_nil.mpr hnames]
        cases hold : node.properties "reg-names" with
        | none => simp [hold]
        | some names => simp [hold, hstale names hold]

theorem roundTrips_named (hne : registers ≠ []) (hfirst : NamesFirst registers)
    (hcells : registerCells node = .ok (addressCells, sizeCells)) (ha : 0 < addressCells)
    (hnames : leadingNames registers ≠ []) :
    RoundTrips refuses addressCells sizeCells node registers ↔
      refuses "reg-names" (regNames registers) = true ∨
        if refuses "reg" (regProperty addressCells sizeCells registers) then
          node.properties "reg-names" = some (regNames registers)
        else Storable addressCells sizeCells registers := by
  have hset := setRegisters_cases refuses hne hcells
  simp only [hnames, ne_eq, not_false_eq_true, true_and, if_false] at hset
  cases hrefusedNames : refuses "reg-names" (regNames registers) with
  | true =>
    rw [hrefusedNames, if_pos rfl] at hset
    exact ⟨fun _ => .inl rfl, fun _ => roundTrips_of_unchanged hset fun _ _ => rfl⟩
  | false =>
    simp only [hrefusedNames, Bool.false_eq_true, if_false, false_or] at hset ⊢
    cases hrefused : refuses "reg" (regProperty addressCells sizeCells registers) with
    | true =>
      -- the new names are stored already when the registers are refused
      simp only [hrefused, if_true] at hset ⊢
      constructor
      · intro h
        have hkept := h.restores (by rw [hset]; exact nofun) "reg-names" (.inr rfl)
        rw [hset] at hkept
        exact hkept.symm
      · intro hsame
        refine roundTrips_of_unchanged hset ?_
        rintro property (rfl | rfl)
        · rfl
        · exact hsame.symm
    | false =>
      simp only [hrefused, Bool.false_eq_true, if_false] at hset ⊢
      exact ⟨fun h => (storable_of_roundTrips ha h hset hcells rfl).1,
        fun hstorable => roundTrips_of_stored hne hfirst ha hset hcells rfl rfl
          (by simp [Refused, hrefusedNames, hrefused]) hstorable⟩

end

/-- Storing registers and reading them again agree exactly when the values fit (and the
property its 32-bit size), no names of an earlier call are left behind an unnamed array, and
a refused `reg` does not come after new names; a call that stores nothing agrees too. The
parent of a node may be too deep in the tree to be found. -/
theorem roundTrips_iff (refuses : String → List UInt8 → Bool) {node : Node} {parent : Properties}
    {addressCells sizeCells : UInt64} {registers : List Register} (hne : registers ≠ [])
    (hfirst : NamesFirst registers) (hparent : ∀ found, node.parent = some found → found = parent)
    (haddress : deviceTreeGetNodePropertyValue64 parent "#address-cells" = .ok addressCells)
    (hsize : deviceTreeGetNodePropertyValue64 parent "#size-cells" = .ok sizeCells)
    (ha : addressCells = 1 ∨ addressCells = 2) (hs : sizeCells = 1 ∨ sizeCells = 2) :
    RoundTrips refuses addressCells.toNat sizeCells.toNat node registers ↔
      node.parent = none ∨ Clean refuses addressCells.toNat sizeCells.toNat node registers := by
  cases hfound : node.parent with
  | none =>
    have hset : deviceTreeSetRegisters refuses node registers = (.deviceError, node) := by
      simp only [deviceTreeSetRegisters, if_neg hne, registerCells, hfound]
    exact ⟨fun _ => .inl rfl, fun _ => roundTrips_of_unchanged hset fun _ _ => rfl⟩
  | some found =>
    cases hparent found hfound
    have hcells := registerCells_of_parent hfound haddress hsize ha hs
    have hpos : 0 < addressCells.toNat := by
      rcases ha with rfl | rfl <;> decide
    simp only [reduceCtorEq, false_or]
    unfold Clean
    split
    · rename_i hnames
      exact roundTrips_unnamed hne hfirst hcells hpos hnames
    · rename_i hnames
      exact roundTrips_named hne hfirst hcells hpos hnames

/-- A node of one named register, below a parent with two and one cells. -/
def sampleNode : Node where
  parent := some fun property =>
    if property = "#address-cells" then some [0, 0, 0, 2]
    else if property = "#size-cells" then some [0, 0, 0, 1]
    else none
  properties := fun property =>
    if property = "reg" then some [0, 0, 0, 0, 0x0c, 0, 0, 0, 0, 0, 0x10, 0]
    else if property = "reg-names" then some [0x61, 0]
    else none

theorem roundTrips_sample :
    RoundTrips (fun _ _ => false) 2 1 sampleNode
      [⟨0x100000000, 0x2000, some ⟨[0x62], by simp⟩⟩, ⟨0x3000, 0x10, none⟩] := by
  refine (roundTrips_iff (fun _ _ => false) (List.cons_ne_nil _ _)
    (by decide) (fun _ h => (Option.some.inj h).symm) (by decide) (by decide) (.inr rfl)
    (.inl rfl)).mpr (.inr ?_)
  show if _ then _ else _
  rw [if_neg (by decide)]
  exact .inr ⟨by decide, by decide⟩

/-- The name of the old register comes back as the name of the new one. -/
theorem stale_name : ¬ RoundTrips (fun _ _ => false) 2 1 sampleNode [⟨0x3000, 0x10, none⟩] := by
  intro h
  have hback := h.reads_back (by decide) 1 (by decide)
  exact absurd hback (by decide)

end DeviceTree
