import Edk2Nvidia.FloorSweep.Thermal

/-! The thermal zones are swept as they should be when each list that is come to consists of whole
entries, a shortened one can be stored, and no list names what the sweep removes itself. -/
namespace FloorSweep
open Parse (Checked)

/-! What the sweep is for. -/

/-- The list without the entries of nodes that are not there; what is no whole entry stays. -/
def keptFrom (alive : UInt32 → Bool) : Nat → List UInt8 → List UInt8
  | 0, list => list
  | fuel + 1, list =>
    if list.length < thermalCoolingDeviceEntrySize then list
    else (if alive (firstPhandle list) then list.take thermalCoolingDeviceEntrySize else []) ++
      keptFrom alive fuel (list.drop thermalCoolingDeviceEntrySize)

def kept (alive : UInt32 → Bool) (list : List UInt8) : List UInt8 := keptFrom alive list.length list

variable {ρ : Type}

/-- A map with what is left of its list, unless that is nothing any more. -/
def sweptMap (alive : UInt32 → Bool) : Option (ThermalMap ρ) → Option (ThermalMap ρ)
  | none => none
  | some map =>
    match map.coolingDevice with
    | none => some map
    | some list =>
      if kept alive list = [] ∧ list ≠ [] then none
      else some { map with coolingDevice := some (kept alive list) }

def sweptZone (alive : UInt32 → Bool) (zone : ThermalZone ρ) : ThermalZone ρ :=
  match zone.coolingMaps with
  | none => zone
  | some coolingMaps =>
    let maps := coolingMaps.maps.map (sweptMap alive)
    { zone with
      coolingMaps :=
        if maps.all Option.isNone then none else some { coolingMaps with maps := maps } }

/-- What is asked of a list that the sweep comes to: whole entries, what the sweep removed before
makes no difference to them, and a shortened list can be stored. -/
structure ListSweepable (alive now : UInt32 → Bool) (stores : Bool) (list : List UInt8) : Prop where
  whole : list.length % thermalCoolingDeviceEntrySize = 0
  same : kept now list = kept alive list
  stored : kept alive list ≠ [] → kept alive list ≠ list → stores = true

/-- The maps from a place on, with the ones in front already swept. -/
def MapsSweepable (alive : UInt32 → Bool) (stores : Nat → Bool)
    (now : List (Option (ThermalMap ρ)) → UInt32 → Bool) :
    List (Option (ThermalMap ρ)) → List (Option (ThermalMap ρ)) → Prop
  | _, [] => True
  | done, map? :: todo =>
    (∀ map list, map? = some map → map.coolingDevice = some list →
      ListSweepable alive (now (done ++ map? :: todo)) (stores done.length) list) ∧
    MapsSweepable alive stores now (done ++ [sweptMap alive map?]) todo

def ZonesSweepable (alive : UInt32 → Bool) (stores : Nat → Nat → Bool) (others : UInt32 → Bool) :
    List (ThermalZone ρ) → List (ThermalZone ρ) → Prop
  | _, [] => True
  | done, zone :: todo =>
    (∀ coolingMaps, zone.coolingMaps = some coolingMaps →
      MapsSweepable alive (stores done.length) (fun maps => nodeExists others
        (done ++ { zone with coolingMaps := some { coolingMaps with maps := maps } } :: todo))
        [] coolingMaps.maps) ∧
    ZonesSweepable alive stores others (done ++ [sweptZone alive zone]) todo

/-- The sweep stays inside the lists, and where it succeeds the zones are what they should be. -/
def SweepsThermals (stores : Nat → Nat → Bool) (others : UInt32 → Bool)
    (zones : List (ThermalZone ρ)) : Prop :=
  ∀ services : Services, services.stores = stores → ∃ result,
    floorSweepGlobalThermals services others (some zones) = .ok result ∧
      ∀ swept, result = .ok swept → swept = some (zones.map (sweptZone (nodeExists others zones)))

/-! The lists. -/
section
variable {alive now : UInt32 → Bool} {list new : List UInt8} {fuel : Nat}

theorem entrySize_eq : thermalCoolingDeviceEntrySize = 12 := rfl

theorem keptFrom_length (alive : UInt32 → Bool) (fuel : Nat) (list : List UInt8) :
    (keptFrom alive fuel list).length ≤ list.length ∧
      (keptFrom alive fuel list).length % thermalCoolingDeviceEntrySize =
        list.length % thermalCoolingDeviceEntrySize := by
  rw [entrySize_eq]
  induction fuel generalizing list with
  | zero => exact ⟨Nat.le_refl _, rfl⟩
  | succ fuel ih =>
    unfold keptFrom
    rw [entrySize_eq]
    split
    · exact ⟨Nat.le_refl _, rfl⟩
    rename_i hlong
    have hrest := ih (list.drop 12)
    rw [List.length_drop] at hrest
    rw [List.length_append]
    split
    · rw [List.length_take, Nat.min_eq_left (by omega)]
      omega
    · rw [List.length_nil]
      omega

theorem keptFrom_eq_self (h : (keptFrom alive fuel list).length = list.length) :
    keptFrom alive fuel list = list := by
  induction fuel generalizing list with
  | zero => rfl
  | succ fuel ih =>
    unfold keptFrom at h ⊢
    rw [entrySize_eq] at h ⊢
    split
    · rfl
    rename_i hlong
    rw [if_neg hlong, List.length_append] at h
    have hrest := (keptFrom_length alive fuel (list.drop 12)).1
    rw [List.length_drop] at hrest
    split
    · rename_i halive
      rw [if_pos halive, List.length_take, Nat.min_eq_left (by omega)] at h
      rw [ih (by rw [List.length_drop]; omega), List.take_append_drop]
    · rename_i halive
      rw [if_neg halive, List.length_nil] at h
      omega

theorem newList_whole {index : Nat} (hfuel : list.length ≤ fuel)
    (hwhole : list.length % thermalCoolingDeviceEntrySize = 0) :
    newList alive fuel index list = .ok (keptFrom alive fuel list) := by
  rw [entrySize_eq] at hwhole
  induction fuel generalizing index list with
  | zero =>
    rw [List.length_eq_zero_iff.mp (Nat.le_zero.mp hfuel)]
    rfl
  | succ fuel ih =>
    unfold newList keptFrom
    rw [entrySize_eq]
    by_cases hempty : list = []
    · rw [if_pos hempty, hempty]
      rfl
    have hpos := List.length_pos_iff.mpr hempty
    rw [if_neg hempty, if_neg (by omega), if_neg (show ¬ list.length < 12 by omega),
      if_neg (show ¬ list.length < 12 by omega)]
    have hrest : newList alive fuel (index + 12) (list.drop 12) =
        .ok (keptFrom alive fuel (list.drop 12)) :=
      ih (by rw [List.length_drop]; omega) (by rw [List.length_drop]; omega)
    rw [hrest]
    cases halive : alive (firstPhandle list) with
    | true => rfl
    | false => rfl

/-- A list that ends inside an entry is left, or loses that part. -/
theorem newList_part {index : Nat} (hfuel : list.length ≤ fuel)
    (hpart : list.length % thermalCoolingDeviceEntrySize ≠ 0)
    (h : newList alive fuel index list = .ok new) :
    new.length % thermalCoolingDeviceEntrySize = 0 := by
  rw [entrySize_eq] at hpart ⊢
  induction fuel generalizing index list new with
  | zero =>
    rw [Nat.le_zero.mp hfuel] at hpart
    exact absurd rfl hpart
  | succ fuel ih =>
    have hdrop : (list.drop 12).length ≤ fuel := by
      rw [List.length_drop]
      have : list.length ≠ 0 := by
        intro hzero
        rw [hzero] at hpart
        exact hpart rfl
      omega
    have hstep : ∀ rest, newList alive fuel (index + 12) (list.drop 12) = .ok rest →
        rest.length % 12 = 0 := by
      intro rest hrest
      by_cases hmore : (list.drop 12).length % 12 = 0
      · rw [newList_whole hdrop hmore] at hrest
        cases hrest
        have hlength := (keptFrom_length alive fuel (list.drop 12)).2
        rw [entrySize_eq] at hlength
        rwa [hlength]
      · exact ih hdrop hmore hrest
    unfold newList at h
    rw [entrySize_eq] at h
    split at h
    · cases h
      rfl
    split at h
    · cases h
    split at h
    · exact hstep new h
    split at h
    · cases h
    rename_i hlong
    cases hrest : newList alive fuel (index + 12) (list.drop 12) with
    | error span =>
      rw [hrest] at h
      cases h
    | ok rest =>
      rw [hrest] at h
      cases h
      have := hstep rest hrest
      rw [List.length_append, List.length_take, Nat.min_eq_left (by omega)]
      omega

end

/-! The maps of a zone. -/
section
variable {alive : UInt32 → Bool} {services : Services} {zone : Nat}
  {now : List (Option (ThermalMap ρ)) → UInt32 → Bool}

theorem sweptMap_some (alive : UInt32 → Bool) {map : ThermalMap ρ} {list : List UInt8}
    (h : map.coolingDevice = some list) : sweptMap alive (some map) =
      if kept alive list = [] ∧ list ≠ [] then none
      else some { map with coolingDevice := some (kept alive list) } := by
  unfold sweptMap
  simp only [h]

/-- A list that is sweepable leaves the map that should be left. -/
theorem sweepMaps_sweepable (zone : Nat) {done todo : List (Option (ThermalMap ρ))} {map : ThermalMap ρ}
    {list : List UInt8} (hlist : map.coolingDevice = some list)
    (h : ListSweepable alive (now (done ++ some map :: todo)) (services.stores zone done.length) list) :
    sweepMaps services now zone done (some map :: todo) = .ok (.error .outOfResources) ∨
      sweepMaps services now zone done (some map :: todo) = .ok (.error .deviceError) ∨
      sweepMaps services now zone done (some map :: todo) =
        sweepMaps services now zone (done ++ [sweptMap alive (some map)]) todo := by
  have hnew : newList (now (done ++ some map :: todo)) list.length 0 list = .ok (kept alive list) := by
    rw [newList_whole (Nat.le_refl _) h.whole]
    exact congrArg _ h.same
  rw [sweepMaps]
  simp only [hlist, hnew]
  split
  · exact .inl rfl
  have hswept := sweptMap_some alive hlist
  by_cases hsame : (kept alive list).length = list.length
  · have heq : kept alive list = list := keptFrom_eq_self hsame
    rw [if_pos hsame]
    rw [heq, if_neg fun hboth => hboth.2 hboth.1, ← hlist] at hswept
    rw [hswept]
    exact .inr (.inr rfl)
  rw [if_neg hsame]
  by_cases hnil : kept alive list = []
  · rw [if_pos ⟨hnil, fun heq => hsame (by rw [hnil, heq])⟩] at hswept
    rw [if_neg (not_not.mpr hnil), hswept]
    split
    · exact .inr (.inl rfl)
    · exact .inr (.inr rfl)
  · have hne : kept alive list ≠ list := fun heq => hsame (congrArg _ heq)
    rw [if_neg fun hboth => hnil hboth.1] at hswept
    rw [if_pos hnil, h.stored hnil hne, hswept]
    exact .inr (.inr rfl)

theorem sweepMaps_of_sweepable {done todo : List (Option (ThermalMap ρ))}
    (h : MapsSweepable alive (services.stores zone) now done todo) :
    ∃ result, sweepMaps services now zone done todo = .ok result ∧
      ∀ maps, result = .ok maps → maps = done ++ todo.map (sweptMap alive) := by
  induction todo generalizing done with
  | nil =>
    refine ⟨.ok done, rfl, ?_⟩
    rintro maps ⟨⟩
    rw [List.map_nil, List.append_nil]
  | cons map? todo ih =>
    have htail := ih h.2
    rw [List.append_assoc] at htail
    cases map? with
    | none => exact htail
    | some map =>
      cases hlist : map.coolingDevice with
      | none =>
        have hswept : sweptMap alive (some map) = some map := by
          unfold sweptMap
          simp only [hlist]
        have hstep : sweepMaps services now zone done (some map :: todo) =
            sweepMaps services now zone (done ++ [some map]) todo := by
          rw [sweepMaps]
          simp only [hlist]
        rw [hstep, List.map_cons]
        rw [hswept] at htail ⊢
        exact htail
      | some list =>
        rcases sweepMaps_sweepable zone hlist (h.1 map list rfl hlist) with
          hstep | hstep | hstep
        · exact ⟨_, hstep, nofun⟩
        · exact ⟨_, hstep, nofun⟩
        · rw [hstep]
          exact htail

structure Willing (services : Services) : Prop where
  allocates : ∀ zone map, services.allocates zone map = true
  nopsNode : ∀ zone map, services.nopsNode zone map = true
  deletesNode : ∀ zone, services.deletesNode zone = true

/-- With willing services the sweep of the maps goes on with what it makes of each. -/
theorem sweepMaps_ok (hwilling : Willing services) {done todo : List (Option (ThermalMap ρ))}
    {result : Except ThermalStatus (List (Option (ThermalMap ρ)))}
    (h : sweepMaps services now zone done todo = .ok result) :
    ∃ maps, result = .ok (done ++ maps) ∧ maps.length = todo.length := by
  induction todo generalizing done with
  | nil =>
    cases h
    exact ⟨[], by rw [List.append_nil], rfl⟩
  | cons map? todo ih =>
    have hnext : ∀ next, sweepMaps services now zone (done ++ [next]) todo = .ok result →
        ∃ maps, result = .ok (done ++ maps) ∧ maps.length = (map? :: todo).length := by
      intro next hrest
      obtain ⟨maps, heq, hlength⟩ := ih hrest
      exact ⟨next :: maps, by rw [heq, List.append_assoc]; rfl, by
        rw [List.length_cons, List.length_cons, hlength]⟩
    cases map? with
    | none => exact hnext none h
    | some map =>
      rw [sweepMaps] at h
      cases hlist : map.coolingDevice with
      | none =>
        simp only [hlist] at h
        exact hnext _ h
      | some list =>
        simp only [hlist, hwilling.allocates, hwilling.nopsNode, Bool.not_true, Bool.false_eq_true,
          if_false] at h
        split at h
        · cases h
        split at h
        · exact hnext _ h
        split at h
        · exact hnext _ h
        · exact hnext _ h

theorem sweepable_of_sweepMaps (hwilling : Willing services)
    {done todo : List (Option (ThermalMap ρ))}
    (h : sweepMaps services now zone done todo =
      .ok (.ok (done ++ todo.map (sweptMap alive)))) :
    MapsSweepable alive (services.stores zone) now done todo := by
  induction todo generalizing done with
  | nil => trivial
  | cons map? todo ih =>
    have hnext : ∀ next, sweepMaps services now zone (done ++ [next]) todo =
        .ok (.ok (done ++ (map? :: todo).map (sweptMap alive))) →
          next = sweptMap alive map? ∧
            MapsSweepable alive (services.stores zone) now (done ++ [sweptMap alive map?]) todo := by
      intro next hrest
      obtain ⟨maps, heq, -⟩ := sweepMaps_ok hwilling hrest
      have hsame := Except.ok.inj heq
      rw [List.append_assoc] at hsame
      have hcons := List.append_cancel_left hsame
      rw [List.map_cons] at hcons
      obtain ⟨rfl, -⟩ := List.cons.inj hcons
      refine ⟨rfl, ih ?_⟩
      rw [hrest, List.append_assoc]
      rfl
    cases map? with
    | none => exact ⟨nofun, (hnext none h).2⟩
    | some map =>
      cases hlist : map.coolingDevice with
      | none =>
        rw [sweepMaps] at h
        simp only [hlist] at h
        refine ⟨?_, (hnext _ h).2⟩
        rintro _ list ⟨⟩ hsome
        rw [hlist] at hsome
        cases hsome
      | some list =>
        have hswept := sweptMap_some alive hlist
        rw [sweepMaps] at h
        simp only [hlist, hwilling.allocates, hwilling.nopsNode, Bool.not_true, Bool.false_eq_true,
          if_false] at h
        cases hnew : newList (now (done ++ some map :: todo)) list.length 0 list with
        | error span =>
          rw [hnew] at h
          cases h
        | ok new =>
          simp only [hnew] at h
          have hlist' : ∀ {P : List UInt8 → Prop}, P list → ∀ other old, some map = some other →
              other.coolingDevice = some old → P old := by
            rintro P hP other old ⟨⟩ hold
            rw [hlist] at hold
            cases hold
            exact hP
          by_cases hwhole : list.length % thermalCoolingDeviceEntrySize = 0
          · have heq : new = kept (now (done ++ some map :: todo)) list := by
              rw [newList_whole (Nat.le_refl _) hwhole] at hnew
              exact (Except.ok.inj hnew).symm
            by_cases hsame : new.length = list.length
            · rw [if_pos hsame] at h
              have hall : new = list := by
                rw [heq] at hsame ⊢
                exact keptFrom_eq_self hsame
              obtain ⟨hmap, hrest⟩ := hnext _ h
              rw [hswept] at hmap
              have hkept : kept alive list = list := by
                split at hmap
                · cases hmap
                · have hdevice := congrArg ThermalMap.coolingDevice (Option.some.inj hmap)
                  rw [hlist] at hdevice
                  exact (Option.some.inj hdevice).symm
              exact ⟨hlist' ⟨hwhole, by rw [← heq, hall, hkept], fun _ hne => absurd hkept hne⟩, hrest⟩
            rw [if_neg hsame] at h
            by_cases hnil : new = []
            · rw [if_neg (not_not.mpr hnil)] at h
              obtain ⟨hmap, hrest⟩ := hnext _ h
              rw [hswept] at hmap
              have hkept : kept alive list = [] := by
                split at hmap
                · rename_i hboth
                  exact hboth.1
                · cases hmap
              exact ⟨hlist' ⟨hwhole, by rw [← heq, hnil, hkept], fun hne => absurd hkept hne⟩, hrest⟩
            · rw [if_pos hnil] at h
              obtain ⟨hmap, hrest⟩ := hnext _ h
              rw [hswept] at hmap
              by_cases hboth : kept alive list = [] ∧ list ≠ []
              · rw [if_pos hboth] at hmap
                cases hmap
              rw [if_neg hboth] at hmap
              have hdevice := congrArg ThermalMap.coolingDevice (Option.some.inj hmap)
              by_cases hstores : services.stores zone done.length = true
              · rw [if_pos hstores] at hdevice
                have hkept := Option.some.inj hdevice
                exact ⟨hlist' ⟨hwhole, by rw [← heq, hkept], fun _ _ => hstores⟩, hrest⟩
              · rw [if_neg hstores] at hdevice
                cases hdevice
          · -- A part of an entry is lost, where it should stay.
            have hpart := newList_part (Nat.le_refl _) hwhole hnew
            have hkept := (keptFrom_length alive list.length list).2
            have hstays : kept alive list ≠ [] := by
              intro hnil
              change keptFrom alive list.length list = [] at hnil
              rw [hnil] at hkept
              exact hwhole hkept.symm
            rw [if_neg fun hboth => hstays hboth.1] at hswept
            have hdiffers : new.length ≠ list.length := fun heq => hwhole (by rw [← heq, hpart])
            rw [if_neg hdiffers] at h
            exfalso
            split at h
            · obtain ⟨hmap, -⟩ := hnext _ h
              rw [hswept] at hmap
              have hdevice := congrArg ThermalMap.coolingDevice (Option.some.inj hmap)
              split at hdevice
              · have hsame : new = keptFrom alive list.length list := Option.some.inj hdevice
                rw [← hsame] at hkept
                exact hwhole (hkept.symm.trans hpart)
              · cases hdevice
            · obtain ⟨hmap, -⟩ := hnext _ h
              rw [hswept] at hmap
              cases hmap

end

/-! The zones. -/
section
variable {alive : UInt32 → Bool} {services : Services} {others : UInt32 → Bool}

theorem all_none_eq {α : Type} {l l' : List (Option α)} (h : l.all Option.isNone = true)
    (h' : l'.all Option.isNone = true) (hlength : l.length = l'.length) : l = l' := by
  have hnone : ∀ {l : List (Option α)}, l.all Option.isNone = true →
      l = List.replicate l.length none := fun hall =>
    List.eq_replicate_iff.mpr ⟨rfl, fun a ha =>
      Option.isNone_iff_eq_none.mp (List.all_eq_true.mp hall a ha)⟩
  rw [hnone h, hnone h', hlength]

theorem sweepZones_of_sweepable {done todo : List (ThermalZone ρ)}
    (h : ZonesSweepable alive services.stores others done todo) :
    ∃ result, sweepZones services others done todo = .ok result ∧
      ∀ zones, result = .ok zones → zones = done ++ todo.map (sweptZone alive) := by
  induction todo generalizing done with
  | nil =>
    refine ⟨.ok done, rfl, ?_⟩
    rintro zones ⟨⟩
    rw [List.map_nil, List.append_nil]
  | cons zone todo ih =>
    have htail := ih h.2
    rw [List.append_assoc] at htail
    rw [sweepZones]
    cases hmaps : zone.coolingMaps with
    | none =>
      have hswept : sweptZone alive zone = zone := by
        unfold sweptZone
        simp only [hmaps]
      rw [hswept] at htail
      rw [List.map_cons, hswept]
      exact htail
    | some coolingMaps =>
      obtain ⟨result, hresult, hall⟩ := sweepMaps_of_sweepable (h.1 coolingMaps hmaps)
      simp only [hresult]
      cases result with
      | error status => exact ⟨_, rfl, nofun⟩
      | ok maps =>
        have heq := hall maps rfl
        rw [List.nil_append] at heq
        have hswept : sweptZone alive zone = { zone with
            coolingMaps := if maps.all Option.isNone then none
              else some { coolingMaps with maps := maps } } := by
          unfold sweptZone
          simp only [hmaps, heq]
        rw [hswept] at htail
        rw [List.map_cons, hswept]
        by_cases hnone : maps.all Option.isNone = true
        · simp only [if_pos hnone] at htail ⊢
          split
          · exact ⟨_, rfl, nofun⟩
          · exact htail
        · simp only [if_neg hnone] at htail ⊢
          exact htail

theorem sweepZones_ok (hwilling : Willing services) {done todo : List (ThermalZone ρ)}
    {result : Except ThermalStatus (List (ThermalZone ρ))}
    (h : sweepZones services others done todo = .ok result) :
    ∃ zones, result = .ok (done ++ zones) := by
  induction todo generalizing done with
  | nil =>
    cases h
    exact ⟨[], by rw [List.append_nil]⟩
  | cons zone todo ih =>
    have hnext : ∀ next, sweepZones services others (done ++ [next]) todo = .ok result →
        ∃ zones, result = .ok (done ++ zones) := by
      intro next hrest
      obtain ⟨zones, heq⟩ := ih hrest
      exact ⟨next :: zones, by rw [heq, List.append_assoc]; rfl⟩
    rw [sweepZones] at h
    cases hmaps : zone.coolingMaps with
    | none =>
      simp only [hmaps] at h
      exact hnext _ h
    | some coolingMaps =>
      simp only [hmaps, hwilling.deletesNode, Bool.not_true, Bool.false_eq_true, if_false] at h
      split at h
      · cases h
      · rename_i status hfails
        obtain ⟨maps, heq, -⟩ := sweepMaps_ok hwilling hfails
        cases heq
      · split at h
        · exact hnext _ h
        · exact hnext _ h

theorem sweepable_of_sweepZones (hwilling : Willing services) {done todo : List (ThermalZone ρ)}
    (h : sweepZones services others done todo = .ok (.ok (done ++ todo.map (sweptZone alive)))) :
    ZonesSweepable alive services.stores others done todo := by
  induction todo generalizing done with
  | nil => trivial
  | cons zone todo ih =>
    have hnext : ∀ next, sweepZones services others (done ++ [next]) todo =
        .ok (.ok (done ++ (zone :: todo).map (sweptZone alive))) →
          next = sweptZone alive zone ∧
            ZonesSweepable alive services.stores others (done ++ [sweptZone alive zone]) todo := by
      intro next hrest
      obtain ⟨zones, heq⟩ := sweepZones_ok hwilling hrest
      have hsame := Except.ok.inj heq
      rw [List.append_assoc] at hsame
      have hcons := List.append_cancel_left hsame
      rw [List.map_cons] at hcons
      obtain ⟨rfl, -⟩ := List.cons.inj hcons
      refine ⟨rfl, ih ?_⟩
      rw [hrest, List.append_assoc]
      rfl
    rw [sweepZones] at h
    cases hmaps : zone.coolingMaps with
    | none =>
      simp only [hmaps] at h
      exact ⟨by rw [hmaps]; nofun, (hnext _ h).2⟩
    | some coolingMaps =>
      simp only [hmaps, hwilling.deletesNode, Bool.not_true, Bool.false_eq_true, if_false] at h
      have hswept : sweptZone alive zone = { zone with
          coolingMaps := if (coolingMaps.maps.map (sweptMap alive)).all Option.isNone then none
            else some { coolingMaps with maps := coolingMaps.maps.map (sweptMap alive) } } := by
        unfold sweptZone
        simp only [hmaps]
      split at h
      · cases h
      · cases h
      · rename_i maps hresult
        have hdone : maps = coolingMaps.maps.map (sweptMap alive) ∧
            ZonesSweepable alive services.stores others (done ++ [sweptZone alive zone]) todo := by
          by_cases hnone : maps.all Option.isNone = true
          · rw [if_pos hnone] at h
            obtain ⟨hzone, hrest⟩ := hnext _ h
            refine ⟨?_, hrest⟩
            rw [hswept] at hzone
            have hcooling := congrArg ThermalZone.coolingMaps hzone
            by_cases hall : (coolingMaps.maps.map (sweptMap alive)).all Option.isNone = true
            · obtain ⟨others, heq, hlength⟩ := sweepMaps_ok hwilling hresult
              cases heq
              exact all_none_eq hnone hall (by rw [List.nil_append, hlength, List.length_map])
            · rw [if_neg hall] at hcooling
              cases hcooling
          · rw [if_neg hnone] at h
            obtain ⟨hzone, hrest⟩ := hnext _ h
            refine ⟨?_, hrest⟩
            rw [hswept] at hzone
            have hcooling := congrArg ThermalZone.coolingMaps hzone
            by_cases hall : (coolingMaps.maps.map (sweptMap alive)).all Option.isNone = true
            · rw [if_pos hall] at hcooling
              cases hcooling
            · rw [if_neg hall] at hcooling
              exact congrArg CoolingMaps.maps (Option.some.inj hcooling)
        refine ⟨?_, hdone.2⟩
        rintro coolingMaps' hsome
        rw [hmaps] at hsome
        cases hsome
        refine sweepable_of_sweepMaps hwilling ?_
        rw [hresult, hdone.1, List.nil_append]

end

/-- When the thermal zones are swept as they should be. -/
theorem thermal_floorsweeping_exact_iff (stores : Nat → Nat → Bool) (others : UInt32 → Bool)
    (zones : List (ThermalZone ρ)) :
    SweepsThermals stores others zones ↔
      ZonesSweepable (nodeExists others zones) stores others [] zones := by
  constructor
  · intro hsweeps
    let services : Services := ⟨fun _ _ => true, stores, fun _ _ => true, fun _ => true⟩
    have hwilling : Willing services := ⟨fun _ _ => rfl, fun _ _ => rfl, fun _ => rfl⟩
    obtain ⟨result, hresult, hswept⟩ := hsweeps services rfl
    rw [floorSweepGlobalThermals] at hresult
    split at hresult
    · cases hresult
    · rename_i status hfails
      obtain ⟨done, heq⟩ := sweepZones_ok hwilling hfails
      cases heq
    · rename_i done hdone
      cases hresult
      have heq := Option.some.inj (hswept _ rfl)
      rw [heq] at hdone
      exact sweepable_of_sweepZones hwilling hdone
  · rintro hsweepable services rfl
    obtain ⟨result, hresult, hall⟩ := sweepZones_of_sweepable hsweepable
    rw [floorSweepGlobalThermals, hresult]
    cases result with
    | error status => exact ⟨_, rfl, nofun⟩
    | ok done =>
      refine ⟨_, rfl, ?_⟩
      rintro swept ⟨⟩
      rw [hall done rfl]
      rfl

/-- One zone whose map lists a phandle of four bytes and nothing else. -/
def shortList : List (ThermalZone Unit) :=
  [⟨some ⟨[], [some ⟨[], some [0, 0, 0, 5], ()⟩], ()⟩, ()⟩]

/-- The entry is copied from behind the end of the list. -/
theorem shortList_overrun :
    ¬ SweepsThermals (fun _ _ => true) (fun phandle => phandle == 5) shortList := by
  intro hsweeps
  obtain ⟨result, hresult, -⟩ :=
    hsweeps ⟨fun _ _ => true, fun _ _ => true, fun _ _ => true, fun _ => true⟩ rfl
  have hoverrun : floorSweepGlobalThermals
      ⟨fun _ _ => true, fun _ _ => true, fun _ _ => true, fun _ => true⟩
      (fun phandle => phandle == 5) (some shortList) = .error ⟨0, 12⟩ := by
    rfl
  rw [hoverrun] at hresult
  cases hresult

end FloorSweep
