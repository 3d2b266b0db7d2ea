import Edk2Nvidia.Fmp.SetImage

/-! What the programs of an update do to a system, for any answers of the calls. -/
namespace TegraFmp
open Flash (Memory slice Holds)
open FwPartition (Name nameOf)
open FwImage (alignValue readFlagsOf)
open FwImageDxe
open Effect

section Calls
variable {fmp : Fmp} {lost : Command → System → Prop} {s : System} {image : Private}
  {flags offset : Nat}

abbrev wp (lost : Command → System → Prop) (Q : α → System → Prop) (program : Program α)
    (s : System) : Prop :=
  Prog.wp exec (fun _ => True) lost Q program s

theorem success_of_not_isError {status : EfiStatus} (h : ¬ status.isError = true) :
    status = .success := by
  cases status <;> first
    | rfl
    | exact absurd rfl h

theorem ne_success_of_isError {status : EfiStatus} (h : status.isError = true) :
    status ≠ .success := by
  rintro rfl
  cases h

theorem access_cases (partition : Partition) (offset bytes : Nat) :
    access (some partition) offset bytes = .error .invalidParameter ∨
      access (some partition) offset bytes = .ok (partition, offset, bytes) := by
  unfold access
  dsimp only
  split
  · exact .inl rfl
  · exact .inr rfl

def Fmp.readTarget (fmp : Fmp) (image : Private) (flags : Nat) : Option Partition :=
  selectPartition image flags (if flags &&& readInactiveImage ≠ 0 then
    inactiveImagePartition fmp.platform image else activeImagePartition fmp.platform image)

def Fmp.writeTarget (fmp : Fmp) (image : Private) (flags : Nat) : Option Partition :=
  selectPartition image flags (inactiveImagePartition fmp.platform image)

theorem Fmp.fwImageRead_eq (fmp : Fmp) (image : Private) (offset bytes flags : Nat) :
    fwImageRead fmp.platform image offset bytes flags =
      access (fmp.readTarget image flags) offset bytes := rfl

theorem Fmp.fwImageWrite_eq (fmp : Fmp) (image : Private) (offset bytes flags : Nat) :
    fwImageWrite fmp.platform image offset bytes flags =
      access (fmp.writeTarget image flags) offset bytes := rfl

/-- A chunk that was read together with the block it ends in, and what is behind it. -/
theorem holds_chunk {m : Memory} {offset blockSize size : Nat} {data : List UInt8}
    (hsame : ¬ (slice m offset (alignValue (min data.length size) blockSize)).take
      (min data.length size) ≠ data.take (min data.length size))
    (hrest : Holds m (offset + min data.length size) (data.drop (min data.length size))) :
    Holds m offset data := by
  rw [not_not, Flash.take_slice _ _ _ _ (FwImage.le_alignValue _ _)] at hsame
  have hlength : (data.take (min data.length size)).length = min data.length size := by
    rw [List.length_take]
    omega
  rw [← List.take_append_drop (min data.length size) data, Flash.holds_append, hlength]
  refine ⟨?_, hrest⟩
  unfold Holds
  rw [hlength, hsame]

/-- A read where it may be cut off. -/
def ReadsIn (lost : Command → System → Prop) (s : System) : Prop :=
  ∀ partition offset bytes, lost (.partitionRead partition offset bytes) s

theorem read_wp {Q : EfiStatus × List UInt8 → System → Prop} (hreads : ReadsIn lost s)
    (bytes : Nat) (hQ : ∀ status buffer, (status.isError = true ∨ ∃ partition,
      fmp.readTarget image flags = some partition ∧
        buffer = slice (s.storage partition.partitionName) offset bytes) → Q (status, buffer) s) :
    wp lost Q (fmp.read image offset bytes flags) s := by
  unfold Fmp.read
  rw [Fmp.fwImageRead_eq]
  cases hselect : fmp.readTarget image flags with
  | none => exact hQ _ _ (.inl rfl)
  | some partition =>
    rcases access_cases partition offset bytes with haccess | haccess
    · rw [haccess]
      exact hQ _ _ (.inl rfl)
    · rw [haccess]
      exact ⟨hreads partition offset bytes,
        fun answer _ => hQ answer.status _ (.inr ⟨partition, hselect, rfl⟩)⟩

theorem write_wp {Q : EfiStatus → System → Prop} {data : List UInt8} {partition : Partition}
    (hselect : fmp.writeTarget image flags = some partition)
    (hlost : lost (.partitionWrite partition offset data) s)
    (hfail : ∀ status, status.isError = true → Q status s)
    (hwrite : ∀ status content,
      Q status (s.replaced partition.partitionName (written status offset data content))) :
    wp lost Q (fmp.write image offset data flags) s := by
  unfold Fmp.write
  rw [Fmp.fwImageWrite_eq, hselect]
  rcases access_cases partition offset data.length with haccess | haccess
  · rw [haccess]
    exact hfail _ rfl
  · rw [haccess]
    exact ⟨hlost, fun answer _ => hwrite answer.status _⟩

theorem tailLoop_wp (hreads : ReadsIn lost s) (endOfLastBlock remaining readOffset : Nat) :
    wp lost (fun _ s' => s' = s) (fmp.tailLoop image endOfLastBlock flags remaining readOffset)
      s := by
  induction remaining using Nat.strong_induction_on generalizing readOffset with
  | h remaining ih =>
    unfold Fmp.tailLoop
    split
    · exact rfl
    · next hne =>
      dsimp only
      split
      · exact rfl
      split
      · exact rfl
      rw [wp, Prog.wp_bind]
      refine read_wp hreads _ fun status buffer _ => ?_
      dsimp only
      split
      · exact rfl
      split
      · exact rfl
      have hpos : 0 < fmpDataBufferSize := by decide
      exact ih _ (by omega) _

/-- The comparison changes nothing, and what it finds to be there is. -/
theorem compareLoop_wp (hreads : ReadsIn lost s) (compareOffset : Nat)
    (dataBuffer : List UInt8) :
    wp lost (fun r s' => s' = s ∧ (r.2 = true → ∀ partition,
        fmp.readTarget image flags = some partition →
          Holds (s.storage partition.partitionName) compareOffset dataBuffer))
      (fmp.compareLoop image flags compareOffset dataBuffer) s := by
  induction hlength : dataBuffer.length using Nat.strong_induction_on
    generalizing compareOffset dataBuffer with
  | h n ih =>
    unfold Fmp.compareLoop
    split
    · next hnil =>
      subst hnil
      exact ⟨rfl, fun _ _ _ => Flash.holds_nil _ _⟩
    · next hne =>
      dsimp only
      split
      · exact ⟨rfl, fun hno => by cases hno⟩
      rw [wp, Prog.wp_bind]
      refine read_wp hreads _ fun status buffer hread => ?_
      dsimp only
      split
      · exact ⟨rfl, fun hno => by cases hno⟩
      split
      · exact ⟨rfl, fun hno => by cases hno⟩
      next hok hsame =>
      obtain herror | ⟨partition, hselect, rfl⟩ := hread
      · exact absurd herror hok
      have hpos := List.length_pos_iff.mpr hne
      have hbuffer : 0 < fmpDataBufferSize := by decide
      refine Prog.wp_mono (ih _ ?_ _ _ rfl) (fun _ _ h => h) ?_
      · rw [List.length_drop]
        omega
      rintro r s' ⟨rfl, hrest⟩
      refine ⟨rfl, fun hfound partition' hselect' => ?_⟩
      rw [hselect] at hselect'
      obtain rfl := Option.some.inj hselect'
      exact holds_chunk hsame (hrest hfound partition hselect)

theorem skipsWrite_wp (hreads : ReadsIn lost s) (dataBuffer : List UInt8) :
    wp lost (fun skips s' => s' = s ∧ (skips = true → ∀ partition,
        fmp.readTarget image (readFlagsOf flags) = some partition →
          Holds (s.storage partition.partitionName) 0 dataBuffer))
      (fmp.skipsWrite image dataBuffer flags) s := by
  unfold Fmp.skipsWrite
  split
  · rw [wp, Prog.wp_bind]
    refine Prog.wp_mono (compareLoop_wp hreads 0 dataBuffer) (fun _ _ h => h) ?_
    rintro ⟨status, same⟩ s' ⟨rfl, hsame⟩
    dsimp only
    split
    · next hmatch =>
      rw [Prog.wp_bind]
      refine Prog.wp_mono (p := fmp.checkLastBlockTailAllFf image dataBuffer.length
        (readFlagsOf flags)) (Q := fun _ s'' => s'' = s') ?_ (fun _ _ h => h) ?_
      · unfold Fmp.checkLastBlockTailAllFf
        split
        · exact rfl
        split
        · exact rfl
        exact tailLoop_wp hreads _ _ _
      · rintro tail s'' rfl
        exact ⟨rfl, fun _ => hsame (Bool.and_eq_true_iff.mp hmatch).2⟩
    · exact ⟨rfl, fun hno => by cases hno⟩
  · exact ⟨rfl, fun hno => by cases hno⟩

theorem writeLoop_wp {I : System → Prop} {partition : Partition}
    (hselect : fmp.writeTarget image flags = some partition)
    (hlost : ∀ offset data s, I s → lost (.partitionWrite partition offset data) s)
    (hkeeps : ∀ content s, I s → I (s.replaced partition.partitionName content))
    (writeOffset : Nat) (dataBuffer : List UInt8) (h : I s) :
    wp lost (fun _ => I) (fmp.writeLoop image flags writeOffset dataBuffer) s := by
  induction hlength : dataBuffer.length using Nat.strong_induction_on
    generalizing writeOffset dataBuffer s with
  | h n ih =>
    unfold Fmp.writeLoop
    split
    · exact h
    · next hne =>
      have hpos := List.length_pos_iff.mpr hne
      have hloop : 0 < fmpWriteLoopSize := by decide
      have hrest : ∀ status s', I s' → wp lost (fun _ => I)
          (if status.isError = true then pure status
            else fmp.writeLoop image flags
              (writeOffset + (dataBuffer.take fmpWriteLoopSize).length)
              (dataBuffer.drop fmpWriteLoopSize)) s' := by
        intro status s' h'
        split
        · exact h'
        · refine ih _ ?_ _ _ h' rfl
          rw [List.length_drop]
          omega
      rw [wp, Prog.wp_bind]
      exact write_wp hselect (hlost _ _ _ h) (fun status _ => hrest status s h)
        fun status content => hrest status _ (hkeeps _ _ h)

theorem writeImage_wp {I : System → Prop} {partition : Partition} {header : Package}
    {name : Name} (hfind : fmp.fwImageFindProtocol name = some image)
    (hselect : fmp.writeTarget image flags = some partition)
    (hreads : ∀ s, I s → ReadsIn lost s)
    (hlost : ∀ offset data s, I s → lost (.partitionWrite partition offset data) s)
    (hkeeps : ∀ content s, I s → I (s.replaced partition.partitionName content)) (h : I s) :
    wp lost (fun _ => I) (fmp.writeImage header name flags) s := by
  unfold Fmp.writeImage
  rw [hfind]
  dsimp only
  split
  · exact h
  · rw [wp, Prog.wp_bind]
    refine Prog.wp_mono (skipsWrite_wp (hreads s h) _) (fun _ _ h => h) ?_
    rintro skips s' ⟨rfl, _⟩
    split
    · exact h
    · exact writeLoop_wp hselect hlost hkeeps _ _ h

theorem verifyLoop_wp {partition : Partition}
    (hselect : fmp.readTarget image flags = some partition) (hreads : ReadsIn lost s)
    (verifyOffset : Nat) (dataBuffer : List UInt8) :
    wp lost (fun status s' => s' = s ∧
        (status = .success → Holds (s.storage partition.partitionName) verifyOffset dataBuffer))
      (fmp.verifyLoop image flags verifyOffset dataBuffer) s := by
  induction hlength : dataBuffer.length using Nat.strong_induction_on
    generalizing verifyOffset dataBuffer with
  | h n ih =>
    unfold Fmp.verifyLoop
    split
    · next hnil =>
      subst hnil
      exact ⟨rfl, fun _ => Flash.holds_nil _ _⟩
    · next hne =>
      have hpos := List.length_pos_iff.mpr hne
      have hbuffer : 0 < fmpDataBufferSize := by decide
      rw [wp, Prog.wp_bind]
      refine read_wp hreads _ fun status buffer hread => ?_
      dsimp only
      split
      · next herror =>
        exact ⟨rfl,
          fun hsuccess => absurd hsuccess (ne_success_of_isError herror)⟩
      split
      · exact ⟨rfl, fun hsuccess => by cases hsuccess⟩
      next hok hsame =>
      obtain herror | ⟨partition', hselect', rfl⟩ := hread
      · exact absurd herror hok
      rw [hselect] at hselect'
      obtain rfl := Option.some.inj hselect'
      refine Prog.wp_mono (ih _ ?_ _ _ rfl) (fun _ _ h => h) ?_
      · rw [List.length_drop]
        omega
      rintro status' s' ⟨rfl, hrest⟩
      exact ⟨rfl, fun hsuccess => holds_chunk hsame (hrest hsuccess)⟩

/-- What is to hold of an image does, unless the package is allowed to be without it. -/
def Fmp.Handled (fmp : Fmp) (header : Package) (minimalUpdate : Bool) (G : Private → Prop)
    (image : Private) : Prop :=
  match fmp.getPackageImage header image.name with
  | .ok _ => G image
  | .error _ => (!minimalUpdate && fmp.fwImagesRequired.contains image.name) = false

/-- The loop over the images: what every action keeps, and what those that succeed show. -/
theorem forImages_wp {I : System → Prop} {G : Private → Prop} {header : Package}
    {minimalUpdate : Bool} {skips : Name → Bool} {action : Name → Program EfiStatus}
    {images : List Private}
    (haction : ∀ image ∈ images, skips image.name = false → ∀ s, I s →
      wp lost (fun status s' => I s' ∧ (status = .success → G image)) (action image.name) s)
    (h : I s) :
    wp lost (fun status s' => I s' ∧ (status = .success →
        ∀ image ∈ images, skips image.name = false →
          fmp.Handled header minimalUpdate G image))
      (fmp.forImages header minimalUpdate skips action images) s := by
  induction images generalizing s with
  | nil => exact ⟨h, fun _ image himage => by cases himage⟩
  | cons image rest ih =>
    obtain ⟨hfirst, hrest⟩ := List.forall_mem_cons.mp haction
    -- what is left once this image is done
    have hcont : ∀ s', I s' → (skips image.name = false →
        fmp.Handled header minimalUpdate G image) →
        wp lost (fun status s' => I s' ∧ (status = .success →
            ∀ image' ∈ image :: rest, skips image'.name = false →
              fmp.Handled header minimalUpdate G image'))
          (fmp.forImages header minimalUpdate skips action rest) s' := by
      intro s' h' hdone
      refine Prog.wp_mono (ih hrest h') (fun _ _ h => h) ?_
      rintro status s'' ⟨h'', hall⟩
      exact ⟨h'', fun hsuccess => List.forall_mem_cons.mpr ⟨hdone, hall hsuccess⟩⟩
    unfold Fmp.forImages
    split
    · next hskips => exact hcont s h fun hno => absurd (hskips.symm.trans hno) (by decide)
    next hskips =>
    have hskips : skips image.name = false := Bool.eq_false_iff.mpr hskips
    cases hpackage : fmp.getPackageImage header image.name with
    | error status =>
      dsimp only
      split
      · have herror := header.select_isError _ _ hpackage
        exact ⟨h, fun hsuccess => absurd hsuccess (ne_success_of_isError herror)⟩
      · next hoptional =>
        refine hcont s h fun _ => ?_
        unfold Fmp.Handled
        rw [hpackage]
        exact Bool.eq_false_iff.mpr hoptional
    | ok data =>
      dsimp only
      rw [wp, Prog.wp_bind]
      refine Prog.wp_mono (hfirst hskips s h) (fun _ _ h => h) ?_
      rintro status s' ⟨h', hgood⟩
      split
      · next herror =>
        exact ⟨h',
          fun hsuccess => absurd hsuccess (ne_success_of_isError herror)⟩
      · next hok =>
        refine hcont s' h' fun _ => ?_
        unfold Fmp.Handled
        rw [hpackage]
        exact hgood (success_of_not_isError hok)

theorem step_wp {lost : Command → System → Prop} {Q : Result → System → Prop}
    {las : LastAttemptStatus} {program : Program EfiStatus} {rest : Program Result}
    (h : wp lost (fun status s' => (status ≠ .success → Q (.aborted, las) s') ∧
      (status = .success → wp lost Q rest s')) program s) :
    wp lost Q (Fmp.step las program rest) s := by
  unfold Fmp.step
  rw [wp, Prog.wp_bind]
  refine Prog.wp_mono h (fun _ _ h => h) ?_
  rintro status s' ⟨hfail, hrest⟩
  split
  · next herror =>
    exact hfail (ne_success_of_isError herror)
  · next hok => exact hrest (success_of_not_isError hok)

end Calls

end TegraFmp
