import Edk2Nvidia.Erst.Contents

/-! The search for room with every reclaim it leads to. Whatever the flash answers, the blocks that
were being reclaimed before stay as they are and what is found is room; and as long as every record
is read as it stands, none is lost, wherever power is. -/
namespace Erst
open Flash

/-- Nothing has happened to the flash of the blocks that were being reclaimed. -/
def Untouched (config : Config) (driver : Driver) (m m' : Memory) : Prop :=
  ∀ b < config.numBlocks, (driver.blockInfo b).validEntries < 0 →
    ∀ a, config.place b ≤ a → a < config.place b + config.blockSize → m' a = m a

structure Frozen (config : Config) (driver : Driver) (m : Memory) (logs : Logs) (driver' : Driver)
    (m' : Memory) (logs' : Logs) : Prop where
  untouched : Untouched config driver m m'
  valid : ∀ b < config.numBlocks, (driver.blockInfo b).validEntries < 0 →
    (driver'.blockInfo b).validEntries = (driver.blockInfo b).validEntries
  log : ∀ b < config.numBlocks, (driver.blockInfo b).validEntries < 0 → logs' b = logs b
  info : ∀ b < config.numBlocks, (driver.blockInfo b).validEntries < 0 →
    ∀ k front entry back, Source config driver logs k b front entry back →
      driver'.info k = driver.info k

section Frozen
variable {config : Config} {driver driver' driver'' : Driver} {m m' m'' : Memory}
  {logs logs' logs'' : Logs}

theorem Untouched.trans_frozen (h : Frozen config driver m logs driver' m' logs')
    (h' : Untouched config driver' m' m'') : Untouched config driver m m'' := by
  intro b hb hneg a ha ha'
  have hneg' : (driver'.blockInfo b).validEntries < 0 := by rwa [h.valid b hb hneg]
  rw [h' b hb hneg' a ha ha', h.untouched b hb hneg a ha ha']

theorem Frozen.refl : Frozen config driver m logs driver m logs where
  untouched _ _ _ _ _ _ := rfl
  valid _ _ _ := rfl
  log _ _ _ := rfl
  info _ _ _ _ _ _ _ _ := rfl

/-- A record of a block that is being reclaimed is still there. -/
theorem Frozen.source (h : Frozen config driver m logs driver' m' logs')
    (hcount : driver'.recordCount = driver.recordCount) {k b : Nat} {front back : Log}
    {entry : Entry} (hneg : (driver.blockInfo b).validEntries < 0)
    (hs : Source config driver logs k b front entry back) :
    Source config driver' logs' k b front entry back where
  index := by rw [hcount]; exact hs.index
  bound := hs.bound
  log := by rw [h.log b hs.bound hneg, hs.log]
  live := hs.live
  info := by rw [h.info b hs.bound hneg k front entry back hs, hs.info]

theorem Frozen.trans (h : Frozen config driver m logs driver' m' logs')
    (hcount : driver'.recordCount = driver.recordCount)
    (h' : Frozen config driver' m' logs' driver'' m'' logs'') :
    Frozen config driver m logs driver'' m'' logs'' where
  untouched := h'.untouched.trans_frozen h
  valid b hb hneg := by
    have hneg' : (driver'.blockInfo b).validEntries < 0 := by rwa [h.valid b hb hneg]
    rw [h'.valid b hb hneg', h.valid b hb hneg]
  log b hb hneg := by
    have hneg' : (driver'.blockInfo b).validEntries < 0 := by rwa [h.valid b hb hneg]
    rw [h'.log b hb hneg', h.log b hb hneg]
  info b hb hneg k front entry back hs := by
    have hneg' : (driver'.blockInfo b).validEntries < 0 := by rwa [h.valid b hb hneg]
    rw [h'.info b hb hneg' k front entry back (h.source hcount hneg hs),
      h.info b hb hneg k front entry back hs]

end Frozen

/-! One move. -/

section Step
variable {config : Config} {S : Setting EfiCode} {driver : Driver} {m : Memory} {logs : Logs}
  {k : Nat}

theorem Config.InBlock.unique {b b' o : Nat} (h : config.InBlock b o) (h' : config.InBlock b' o) :
    b = b' := by
  obtain ⟨hlower, hupper⟩ := h
  obtain ⟨hlower', hupper'⟩ := h'
  rcases Nat.lt_trichotomy b b' with hlt | heq | hlt
  · have hmul := Nat.mul_le_mul_right config.blockSize (Nat.succ_le_of_lt hlt)
    rw [Nat.succ_mul] at hmul
    omega
  · exact heq
  · have hmul := Nat.mul_le_mul_right config.blockSize (Nat.succ_le_of_lt hlt)
    rw [Nat.succ_mul] at hmul
    omega

theorem Plan.underway_other (plan : Plan config driver m k) {cper : List UInt8}
    (hcper : plan.entry.size ≤ cper.length) {image : Memory} (h : plan.Underway cper image)
    {b : Nat} (hblock : b ≠ plan.block) (htarget : b ≠ plan.target) {a : Nat}
    (ha : config.place b ≤ a) (ha' : a < config.place b + config.blockSize) : image a = m a := by
  obtain ⟨hlong, hfront, hfits⟩ := plan.source.inside plan.sync.stored
  have hroom := plan.room.fits
  have hlength : ((persist cper statusIncoming).take plan.entry.size).length = plan.entry.size := by
    rw [List.length_take, length_persist]
    omega
  have hoffset : statusOffset < sizeofCperHeader := by decide
  have hold := Config.place_disjoint hblock a ⟨ha, ha'⟩
  have hnew := Config.place_disjoint htarget a ⟨ha, ha'⟩
  unfold Config.place at hold hnew
  apply Underway.same h (by omega)
  · show a < config.norErstOffset + (plan.target * config.blockSize +
      (plan.logs plan.target).size) ∨ config.norErstOffset + (plan.target * config.blockSize +
        (plan.logs plan.target).size) + _ ≤ a
    omega
  · intro o ho
    obtain rfl : o = plan.block * config.blockSize + plan.front.size :=
      (Option.some.inj ho).symm
    omega

theorem Plan.image_other (plan : Plan config driver m k) {cper : List UInt8}
    (hcper : plan.entry.size ≤ cper.length) {b : Nat} (hblock : b ≠ plan.block)
    (htarget : b ≠ plan.target) {a : Nat} (ha : config.place b ≤ a)
    (ha' : a < config.place b + config.blockSize) : plan.image cper a = m a := by
  obtain ⟨hlong, hfront, hfits⟩ := plan.source.inside plan.sync.stored
  have hroom := plan.room.fits
  have hlength : (plan.entry.copy cper).bytes.length = plan.entry.size := plan.entry.size_copy hcper
  have hoffset : statusOffset < sizeofCperHeader := by decide
  have hold := Config.place_disjoint hblock a ⟨ha, ha'⟩
  have hnew := Config.place_disjoint htarget a ⟨ha, ha'⟩
  unfold Config.place at hold hnew
  unfold Plan.image movedImage Plan.old
  rw [overwrite_byte, if_neg (by omega)]
  apply overwrite_outside
  unfold Logs.gap
  omega

theorem Plan.target_ne (plan : Plan config driver m k) {b : Nat}
    (hneg : (driver.blockInfo b).validEntries < 0) : b ≠ plan.target := by
  rintro rfl
  exact absurd plan.room.valid (by omega)

theorem Plan.valid_moved (plan : Plan config driver m k) {driver' : Driver}
    (hblock : driver'.blockInfo = Function.update
      (driver.reserve plan.target plan.entry.size).blockInfo plan.block
        (((driver.reserve plan.target plan.entry.size).blockInfo plan.block).freed
          plan.entry.size))
    (hneg : (driver.blockInfo plan.block).validEntries < 0) :
    (driver'.blockInfo plan.block).validEntries =
      (driver.blockInfo plan.block).validEntries + 1 := by
  have hreserve : (driver.reserve plan.target plan.entry.size).blockInfo plan.block =
      driver.blockInfo plan.block := Function.update_of_ne (plan.target_ne hneg) _ _
  rw [hblock, Function.update_self, hreserve]
  unfold BlockInfo.freed
  rw [if_neg (by omega), if_pos hneg]

theorem Plan.blockInfo_other (plan : Plan config driver m k) {driver' : Driver}
    (hblock : driver'.blockInfo = Function.update
      (driver.reserve plan.target plan.entry.size).blockInfo plan.block
        (((driver.reserve plan.target plan.entry.size).blockInfo plan.block).freed
          plan.entry.size))
    {b : Nat} (hb : b ≠ plan.block) (htarget : b ≠ plan.target) :
    driver'.blockInfo b = driver.blockInfo b := by
  rw [hblock, Function.update_of_ne hb]
  exact Function.update_of_ne htarget _ _

theorem Plan.after_other (plan : Plan config driver m k) (cper : List UInt8) {b : Nat}
    (hb : b ≠ plan.block) (htarget : b ≠ plan.target) : plan.after cper b = plan.logs b := by
  unfold Plan.after Logs.moved
  rw [Function.update_of_ne hb]
  exact Function.update_of_ne htarget _ _

theorem Plan.info_other (plan : Plan config driver m k) {driver' : Driver}
    (hinfo : driver'.cperInfo = driver.cperInfo.set k (plan.entry.info plan.new)) {i b : Nat}
    {front back : Log} {entry : Entry} (hb : b ≠ plan.block)
    (hs : Source config driver plan.logs i b front entry back) :
    driver'.info i = driver.info i := by
  have hne : k ≠ i := by
    rintro rfl
    exact hb (hs.inBlock plan.sync.stored |>.unique (plan.source.inBlock plan.sync.stored))
  unfold Driver.info
  rw [hinfo, List.getD_eq_getElem?_getD, List.getD_eq_getElem?_getD, List.getElem?_set_ne hne]

/-- A move out of a block that was not being reclaimed at first leaves those that were. -/
theorem Frozen.moved {driver₀ : Driver} {m₀ : Memory} {logs₀ : Logs}
    (plan : Plan config driver m k) (h : Frozen config driver₀ m₀ logs₀ driver m plan.logs)
    (hcount : driver.recordCount = driver₀.recordCount)
    (hstart : 0 ≤ (driver₀.blockInfo plan.block).validEntries) {cper : List UInt8}
    (hcper : plan.entry.size ≤ cper.length) {driver' : Driver}
    (hblock : driver'.blockInfo = Function.update
      (driver.reserve plan.target plan.entry.size).blockInfo plan.block
        (((driver.reserve plan.target plan.entry.size).blockInfo plan.block).freed
          plan.entry.size))
    (hinfo : driver'.cperInfo = driver.cperInfo.set k (plan.entry.info plan.new)) :
    Frozen config driver₀ m₀ logs₀ driver' (plan.image cper) (plan.after cper) := by
  have hother : ∀ b < config.numBlocks, (driver₀.blockInfo b).validEntries < 0 →
      b ≠ plan.block ∧ b ≠ plan.target := by
    intro b hb hneg
    constructor
    · rintro rfl
      omega
    · apply plan.target_ne
      rwa [h.valid b hb hneg]
  constructor
  · intro b hb hneg a ha ha'
    obtain ⟨hne, htarget⟩ := hother b hb hneg
    rw [plan.image_other hcper hne htarget ha ha', h.untouched b hb hneg a ha ha']
  · intro b hb hneg
    obtain ⟨hne, htarget⟩ := hother b hb hneg
    rw [plan.blockInfo_other hblock hne htarget, h.valid b hb hneg]
  · intro b hb hneg
    obtain ⟨hne, htarget⟩ := hother b hb hneg
    rw [plan.after_other cper hne htarget, h.log b hb hneg]
  · intro b hb hneg i front entry back hs
    obtain ⟨hne, htarget⟩ := hother b hb hneg
    rw [plan.info_other hinfo hne (h.source hcount hneg hs), h.info b hb hneg i front entry back hs]

theorem Untouched.underway {driver₀ : Driver} {m₀ : Memory} {logs₀ : Logs}
    (plan : Plan config driver m k) (h : Frozen config driver₀ m₀ logs₀ driver m plan.logs)
    (hstart : 0 ≤ (driver₀.blockInfo plan.block).validEntries) {cper : List UInt8}
    (hcper : plan.entry.size ≤ cper.length) {image : Memory} (hunderway : plan.Underway cper image) :
    Untouched config driver₀ m₀ image := by
  intro b hb hneg a ha ha'
  have hne : b ≠ plan.block := by
    rintro rfl
    omega
  have htarget : b ≠ plan.target := by
    apply plan.target_ne
    rwa [h.valid b hb hneg]
  rw [plan.underway_other hcper hunderway hne htarget ha ha', h.untouched b hb hneg a ha ha']

end Step

theorem Source.take {config : Config} {driver : Driver} {logs : Logs} {k b : Nat}
    {front back : Log} {entry : Entry} (hs : Source config driver logs k b front entry back)
    (pool : Nat) : Source config (driver.take pool) logs k b front entry back :=
  ⟨hs.index, hs.bound, hs.log, hs.live, hs.info⟩

theorem Frozen.of_take {config : Config} {driver driver' : Driver} {m m' : Memory}
    {logs logs' : Logs} {pool : Nat}
    (h : Frozen config (driver.take pool) m logs driver' m' logs') :
    Frozen config driver m logs driver' m' logs' :=
  ⟨h.untouched, h.valid, h.log,
    fun b hb hneg k front entry back hs => h.info b hb hneg k front entry back (hs.take pool)⟩

/-! The search. -/

/-- Every record is read as it stands: nothing fails, or there is a cache to read from. -/
def Faithful (S : Setting EfiCode) (driver : Driver) : Prop :=
  ¬ S.Faulty ∨ driver.shadowFlash.isSome = true

section Search
variable {config : Config} {S : Setting EfiCode}

theorem Faithful.of_alike {driver driver' : Driver} (halike : driver.Alike driver') :
    Faithful S driver' ↔ Faithful S driver := by
  unfold Faithful
  rw [halike.shadow]

theorem Faithful.buffered {driver : Driver} {entry : Entry} {cper : List UInt8}
    (h : Faithful S driver) (hbuffered : Buffered driver S entry cper) :
    cper.take entry.size = entry.bytes ∧
      EfiCode.isError (erstValidateRecord cper entry.id entry.size) = false := by
  rcases hbuffered.2 with hread | ⟨hfaulty, hshadow⟩
  · exact hread
  · rcases h with hsound | hcache
    · exact absurd hfaulty hsound
    · rw [hshadow] at hcache
      cases hcache

/-- A search that ends with an error leaves alone what was being reclaimed; where nothing fails, the
tables and the records are as they were. -/
def Kept (S : Setting EfiCode) (config : Config) (driver : Driver) (m : Memory) (logs : Logs)
    (driver' : Driver) (m' : Memory) : Prop :=
  Untouched config driver m m' ∧ (¬ S.Faulty → ∃ logs', InSync config driver' m' logs' ∧
    driver.Alike driver' ∧ Same config logs logs')

/-- Whatever the flash answers, a search leaves alone what was being reclaimed; what it has found
is room. -/
structure Found (S : Setting EfiCode) (config : Config) (driver : Driver) (m : Memory) (logs : Logs)
    (recordLength : Nat) (offset : Nat) (driver' : Driver) (m' : Memory) (logs' : Logs)
    (target : Nat) : Prop where
  offset : offset = logs'.gap config target
  sync : InSync config driver' m' logs'
  room : Room config driver' logs' recordLength target
  alike : driver.Alike driver'
  frozen : Frozen config driver m logs driver' m' logs'
  same : Faithful S driver → Same config logs logs'

def Searched (S : Setting EfiCode) (config : Config) (driver : Driver) (m : Memory) (logs : Logs)
    (recordLength : Nat) (r : EfiCode × Nat) (driver' : Driver) (m' : Memory) : Prop :=
  (EfiCode.isError r.1 ∧ S.cut m' ∧ Kept S config driver m logs driver' m') ∨
    ∃ logs' target, r.1 = .success ∧
      Found S config driver m logs recordLength r.2 driver' m' logs' target

/-- A reclaim that goes on from a driver `driver₀` that did not reclaim `block`. -/
structure Reclaiming (S : Setting EfiCode) (config : Config) (driver₀ : Driver) (m₀ : Memory)
    (logs₀ : Logs) (driver : Driver) (m : Memory) (logs : Logs) : Prop where
  alike : driver₀.Alike driver
  frozen : Frozen config driver₀ m₀ logs₀ driver m logs
  same : Faithful S driver₀ → Same config logs₀ logs

/-- A record of a block that is being reclaimed is moved within a search. -/
theorem erstRelocateRecord_reclaiming (hsound : config.Sound) (hdevice : Device S) {find : Find}
    {driver₀ : Driver} {m₀ : Memory} {logs₀ : Logs} {driver : Driver} {m : Memory} {logs : Logs}
    {k block : Nat} {front back : Log} {entry : Entry}
    (hcut : ∀ image, (Faithful S driver₀ → Preserved config image (logs₀.contents config)) →
      S.cut image)
    (hfind : ∀ driver₁ : Driver, InSync config driver₁ m logs →
      (Faithful S driver₁ ↔ Faithful S driver₀) → entry.size ≤ config.blockSize →
      wpIn S (find entry.size false) (Searched S config driver₁ m logs entry.size) driver₁ m)
    (hsync : InSync config driver m logs)
    (hs : Source config driver logs k block front entry back)
    (hneg : (driver.blockInfo block).validEntries < 0)
    (hstart : 0 ≤ (driver₀.blockInfo block).validEntries)
    (h : Reclaiming S config driver₀ m₀ logs₀ driver m logs) :
    wpIn S (erstRelocateRecord config find k) (fun status driver' m' => S.cut m' ∧
      ((EfiCode.isError status ∧ Kept S config driver₀ m₀ logs₀ driver' m') ∨
        status = .success ∧ ∃ logs', InSync config driver' m' logs' ∧
          (Reclaiming S config driver₀ m₀ logs₀ driver' m' logs' ∧ k < driver'.recordCount) ∧
          (driver'.blockInfo block).validEntries =
            (driver.blockInfo block).validEntries + 1)) driver m := by
  obtain ⟨hlong, hfront, hfits⟩ := hs.inside hsync.stored
  have hhonest : Faithful S driver ↔ Faithful S driver₀ := Faithful.of_alike h.alike
  have hmove := erstRelocateRecord_wp (F := Kept S config driver₀ m₀ logs₀)
    (G := fun driver' m' plan => plan.block = block ∧ plan.entry = entry ∧
      driver'.recordCount = driver₀.recordCount ∧
      (driver'.blockInfo block).validEntries = (driver.blockInfo block).validEntries ∧
      Frozen config driver₀ m₀ logs₀ driver' m' plan.logs ∧
      (Faithful S driver₀ → Same config logs₀ plan.logs))
    hsound hdevice hsync hs (hcut m fun hon => (h.same hon).contents ▸ hsync.stored.preserved) (by
    intro pool cper hserves hlength hbuffered
    apply wpIn_mono (hfind (driver.take pool) (hsync.take pool) hhonest (by omega))
    rintro r driver' m' (⟨herror, hcut', huntouched, hkept⟩ | ⟨logs', target, hr, hfound⟩)
    · refine .inl ⟨herror, hcut', huntouched.trans_frozen h.frozen, fun hsound => ?_⟩
      obtain ⟨logs', hsync', halike, hsame⟩ := hkept hsound
      exact ⟨logs', hsync'.release pool cper, h.alike.trans (.release hserves halike hlength),
        (h.same (.inl hsound)).trans hsame⟩
    · have hcount : driver'.recordCount = (driver.take pool).recordCount :=
        hfound.alike.recordCount
      have hs' := hfound.frozen.source hcount hneg (hs.take pool)
      have hsame : Faithful S driver₀ → Same config logs₀ logs' :=
        fun hon => (h.same hon).trans (hfound.same (hhonest.mpr hon))
      refine .inr ⟨⟨logs', block, front, entry, back, target, hfound.sync, hs', hfound.room⟩,
        Prod.ext hr hfound.offset,
        hfound.frozen.info block hs.bound hneg k front entry back (hs.take pool), ⟨?_, ?_⟩,
        hfound.alike, rfl, rfl, hcount.trans h.alike.recordCount,
        hfound.frozen.valid block hs.bound hneg,
        h.frozen.trans h.alike.recordCount hfound.frozen.of_take, hsame⟩
      · intro image hunderway
        apply hcut image
        intro hon
        rw [← (hsame hon).contents]
        exact Plan.preserved_underway _ hbuffered.1 hunderway
      · apply hcut _
        intro hon
        rw [← (hsame hon).contents]
        exact Plan.preserved_moved _ hbuffered.1 ((hhonest.mpr hon).buffered hbuffered).1)
  apply wpIn_mono hmove
  rintro status driver'' m'' ⟨hcut'', ⟨herror, rfl, halike, hsync', _⟩ | ⟨herror, hF⟩ |
    ⟨driver', m', cper, plan, hinfo, ⟨hblock, hentry, hcount, hvalid, hplan, hsame⟩, hbuffered,
      houtcome⟩⟩
  · exact ⟨hcut'', .inl ⟨herror, h.frozen.untouched, fun hsound =>
      ⟨logs, hsync', h.alike.trans halike, h.same (.inl hsound)⟩⟩⟩
  · exact ⟨hcut'', .inl ⟨herror, hF⟩⟩
  · have hcper : plan.entry.size ≤ cper.length := by
      rw [hentry]
      exact hbuffered.1
    subst hblock
    refine ⟨hcut'', ?_⟩
    cases houtcome with
    | refused _ _ herror hinvalid =>
      refine .inl ⟨herror, hplan.untouched, fun hsound => ?_⟩
      -- a record that was read as it stands is not refused
      have hread := Faithful.buffered (.inl hsound) hbuffered
      have haccepted := erstValidateCperHeader_persist statusIncoming
        (Nat.le_trans hlong hbuffered.1) (by decide) (isError_validateRecord hread.2)
      rw [hentry, haccepted] at hinvalid
      cases hinvalid
    | broken _ _ _ hfaulty herror hunderway =>
      exact .inl ⟨herror, .underway plan hplan hstart hcper hunderway, fun hsound =>
        absurd hfaulty hsound⟩
    | moved _ hheader hmoved hblocks hinfos halike' =>
      refine .inr ⟨rfl, plan.after cper, hmoved, ⟨⟨h.alike.trans halike', ?_, ?_⟩, ?_⟩, ?_⟩
      · exact hplan.moved plan hcount hstart hcper hblocks hinfos
      · intro hon
        have hread := ((hhonest.mpr hon).buffered hbuffered).1
        exact (hsame hon).trans (plan.same_after (by rw [hentry]; exact hread))
      · rw [halike'.recordCount]
        exact hs.index
      · rw [plan.valid_moved hblocks (by rw [hvalid]; exact hneg), hvalid]

end Search

end Erst
