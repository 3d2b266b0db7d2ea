import Edk2Nvidia.Fmp.FullUpdate

/-! An update of single images, for development, changes nothing but these images in the chain that
the variable names. -/
namespace TegraFmp
open Flash (Memory slice Holds)
open FwPartition (Name nameOf)
open FwImageDxe
open Effect

/-- The chain that a value of the variable stands for. -/
def chainOf (value : UInt8) : Option BootChain :=
  if value = 0 then some .a else if value = 1 then some .b else none

def forceFlag : BootChain → Nat
  | .a => forcePartitionA
  | .b => forcePartitionB

theorem writeFlag_eq (value : UInt8) :
    Fmp.writeFlag [value] = (chainOf value).map forceFlag := by
  unfold Fmp.writeFlag chainOf
  split
  · next h =>
    obtain rfl := (List.cons.inj h).1
    rfl
  · next h =>
    obtain rfl := (List.cons.inj h).1
    rfl
  · next hzero hone =>
    have hzero' : value ≠ 0 := fun h => hzero (by rw [h])
    have hone' : value ≠ 1 := fun h => hone (by rw [h])
    rw [if_neg hzero', if_neg hone']
    rfl

theorem Fmp.writes_forceFlag (fmp : Fmp) (chain : BootChain) :
    fmp.Writes (forceFlag chain) chain := by
  intro image _ _
  cases chain with
  | a => rfl
  | b => rfl

theorem Fmp.reads_forceFlag (fmp : Fmp) (chain : BootChain) :
    fmp.Reads (forceFlag chain) chain := by
  intro image _ _
  cases chain with
  | a => rfl
  | b => rfl

/-- Nothing is changed but partitions of the chain, of images that can be updated alone. -/
structure Confined (initial : System) (chain : Option BootChain) (s : System) : Prop where
  mark : s.inactiveChainGood = initial.inactiveChainGood
  bct : s.bctChain = initial.bctChain
  kept : ∀ partition, some (bootChain partition) ≠ chain ∨
    minimalUnsupportedImageNames.contains (baseName partition) = true →
      s.storage partition.partitionName = initial.storage partition.partitionName

section Minimal
variable {fmp : Fmp} {header : Package} {initial s : System} {chain : BootChain}

theorem Confined.refl (initial : System) (chain : Option BootChain) :
    Confined initial chain initial := ⟨rfl, rfl, fun _ _ => rfl⟩

theorem Confined.replaced {partition : Partition} (h : Confined initial (some chain) s)
    (hchain : bootChain partition = chain)
    (hname : minimalUnsupportedImageNames.contains (baseName partition) = false)
    (content : Memory) :
    Confined initial (some chain) (s.replaced partition.partitionName content) := by
  refine ⟨h.mark, h.bct, fun other hother => ?_⟩
  rw [← h.kept other hother]
  refine if_neg fun hsame => ?_
  rw [bootChain_congr hsame, baseName_congr hsame, hchain, hname] at hother
  rcases hother with hne | hcontains
  · exact hne rfl
  · cases hcontains

theorem unsupported_false {name : Name}
    (h : minimalUnsupportedImageNames.contains name = false) :
    name ≠ updateInactivePartitions ∧ name ≠ brBctBackupPartitionName := by
  unfold minimalUnsupportedImageNames at h
  have hall : name ≠ gpt ∧ name ≠ updateInactivePartitions ∧ name ≠ brBctBackupPartitionName := by
    simpa using h
  exact hall.2

/-- Where a minimal update may be cut off. -/
abbrev ConfinedIn (initial : System) (chain : Option BootChain) (_ : Command) (s : System) : Prop :=
  Confined initial chain s

theorem Fmp.Sound.writeMinimal_wp (hsound : fmp.Sound) (h : Confined initial (some chain) s) :
    wp (ConfinedIn initial (some chain)) (fun _ => Confined initial (some chain))
      (fmp.writeRegularImages header true (forceFlag chain)) s := by
  unfold Fmp.writeRegularImages
  refine Prog.wp_mono (forImages_wp (I := Confined initial (some chain)) (G := fun _ => True)
    ?_ h) (fun _ _ h => h) fun _ _ h => h.1
  intro image himage hskips s' h'
  have hsupported : minimalUnsupportedImageNames.contains image.name = false := hskips
  obtain ⟨hpseudo, hbackup⟩ := unsupported_false hsupported
  have hbacked : fwImageHasNoBackup image = false := by
    rw [noBackup_eq]
    simp [hbackup, hpseudo]
  obtain ⟨partition, hpartition, hchain, hbase⟩ := hsound.place himage hbacked chain
  have hselect := (fmp.writes_forceFlag chain image himage hbacked).trans hpartition
  refine Prog.wp_mono (TegraFmp.writeImage_wp (I := Confined initial (some chain))
    (hsound.find himage) hselect (fun _ h _ _ _ => h)
    (fun _ _ _ h => h) ?_ h') (fun _ _ h => h) fun _ _ h => ⟨h, fun _ => trivial⟩
  intro content s'' h''
  exact h''.replaced hchain (hbase ▸ hsupported) content

/-- Every image that can be updated alone is the one of the package, if that has one. -/
def Fmp.InstalledAlone (fmp : Fmp) (header : Package) (chain : BootChain) (s : System) : Prop :=
  ∀ image ∈ fmp.images, noVerifyPartitionNames.contains image.name = false →
    minimalUnsupportedImageNames.contains image.name = false →
      fmp.Handled header true (fmp.Holding header chain s) image

theorem Fmp.Sound.setMinimalImages_wp (hsound : fmp.Sound)
    (hverify : fmp.pcdFmpWriteVerifyImage = true) (h : Confined initial (some chain) s) :
    wp (ConfinedIn initial (some chain)) (fun status s' => Confined initial (some chain) s' ∧
        (status = .success → fmp.InstalledAlone header chain s'))
      (fmp.setMinimalImages header (forceFlag chain)) s := by
  unfold Fmp.setMinimalImages
  rw [wp, Prog.wp_bind]
  refine Prog.wp_mono (hsound.writeMinimal_wp h) (fun _ _ h => h) fun status s₁ h₁ => ?_
  split
  · next herror =>
    exact ⟨h₁,
      fun hsuccess => absurd hsuccess (ne_success_of_isError herror)⟩
  rw [Prog.wp_bind]
  refine Prog.wp_mono (hsound.verifyAllImages_wp hverify (fmp.reads_forceFlag chain)
    (fun _ _ _ => h₁) true) (fun _ _ h => h) ?_
  rintro status s' ⟨rfl, hinstalled⟩
  split
  · next herror =>
    exact ⟨h₁,
      fun hsuccess => absurd hsuccess (ne_success_of_isError herror)⟩
  next hok =>
  have hall := hinstalled (success_of_not_isError hok)
  exact ⟨h₁, fun _ _ => ⟨h₁, fun _ image himage hno hsupported =>
    hall image himage hno hsupported⟩⟩

/-- What a minimal update leaves when it returns. -/
def Fmp.EndsMinimal (fmp : Fmp) (header : Package) (initial : System) (chain : Option BootChain)
    (result : Result) (s : System) : Prop :=
  Confined initial chain s ∧
    (result.1 = .success → ∃ c, chain = some c ∧ fmp.InstalledAlone header c s)

theorem Fmp.Sound.setMinimal_wp (hsound : fmp.Sound)
    (hverify : fmp.pcdFmpWriteVerifyImage = true) (answer : Answer) :
    wp (ConfinedIn initial (chainOf answer.value))
      (fmp.EndsMinimal header initial (chainOf answer.value))
      (Fmp.step .setSingleImageFailed
        (if answer.status.isError then pure answer.status
          else match Fmp.writeFlag [answer.value] with
            | none => pure .unsupported
            | some flag => fmp.setMinimalImages header flag)
        (pure (.success, .success))) initial := by
  have hconfined := Confined.refl initial (chainOf answer.value)
  refine step_wp ?_
  split
  · next herror =>
    exact ⟨fun _ => ⟨hconfined, fun hc => by cases hc⟩,
      fun hsuccess => absurd hsuccess (ne_success_of_isError herror)⟩
  rw [writeFlag_eq]
  cases hchain : chainOf answer.value with
  | none =>
    rw [hchain] at hconfined
    exact ⟨fun _ => ⟨hconfined, fun hc => by cases hc⟩, fun hsuccess => by cases hsuccess⟩
  | some chain =>
    rw [hchain] at hconfined
    refine Prog.wp_mono (hsound.setMinimalImages_wp hverify hconfined) (fun _ _ h => h) ?_
    rintro status s' ⟨h', hinstalled⟩
    exact ⟨fun _ => ⟨h', fun hc => by cases hc⟩,
      fun hsuccess => ⟨h', fun _ => ⟨chain, rfl, hinstalled hsuccess⟩⟩⟩

/-- The answer to the first call decides what a minimal update can change. -/
theorem fmpTegraSetImage_minimal (groups : List (Name × List Partition))
    (himages : fmp.images.Perm ((callbacks fmp.platform groups).filter (·.installed)))
    (henabled : fmp.platform.enableBPartitions = true)
    (hverify : fmp.pcdFmpWriteVerifyImage = true) (hminimal : fmp.isMinimal header = true)
    (answer : Answer) (answers : List Answer) (initial : System) :
    (∀ result s, Prog.run exec (fmp.fmpTegraSetImage (some header)) (answer :: answers) initial =
        .done result s → fmp.EndsMinimal header initial (chainOf answer.value) result s) ∧
    ∀ c s, Prog.run exec (fmp.fmpTegraSetImage (some header)) (answer :: answers) initial =
      .lost c s → Confined initial (chainOf answer.value) s := by
  by_cases hinit : fmp.mFmpLibInitialized = true
  · have hrun : Prog.run exec (fmp.fmpTegraSetImage (some header)) (answer :: answers) initial =
        Prog.run exec (Fmp.step .setSingleImageFailed
          (if answer.status.isError then pure answer.status
            else match Fmp.writeFlag [answer.value] with
              | none => pure .unsupported
              | some flag => fmp.setMinimalImages header flag)
          (pure (.success, .success))) answers initial := by
      unfold Fmp.fmpTegraSetImage
      dsimp only
      rw [if_neg (not_not.mpr hinit), if_pos hminimal]
      rfl
    have hwp : wp (ConfinedIn initial (chainOf answer.value))
        (fmp.EndsMinimal header initial (chainOf answer.value)) _ initial :=
      (Fmp.sound groups henabled himages).setMinimal_wp hverify answer
    rw [hrun]
    exact ⟨fun _ _ h => Prog.wp_done hwp (fun _ _ => trivial) h,
      fun _ _ h => Prog.wp_lost hwp (fun _ _ => trivial) h⟩
  · have hrun : Prog.run exec (fmp.fmpTegraSetImage (some header)) (answer :: answers) initial =
        .done (.notReady, .fmpLibUninitialized) initial := by
      unfold Fmp.fmpTegraSetImage
      dsimp only
      rw [if_pos hinit]
      rfl
    rw [hrun]
    refine ⟨fun result s h => ?_, fun c s h => by cases h⟩
    obtain ⟨rfl, rfl⟩ := Outcome.done.inj h
    exact ⟨Confined.refl _ _, fun hsuccess => by cases hsuccess⟩

end Minimal

/-- The image foo alone, in the chain B. -/
def oneByte : Package where
  imageCount := 1
  select name := if name = nameOf "foo" then .ok [2] else .error .notFound
  select_isError := by
    intro name status h
    split at h
    · cases h
    · cases h
      rfl

def singleImage : Fmp := { twoImages with pcdFmpSingleImageUpdate := true }

theorem fmpTegraSetImage_minimal_oneByte :
    (match Prog.run exec (singleImage.fmpTegraSetImage (some oneByte))
        ({ faultFree with value := 1 } :: List.replicate 5 faultFree) erasedSystem with
      | .done result _ => decide (result = (.success, .success))
      | .lost _ _ => false) = true ∧
    ∀ n, (∀ result s, Prog.run exec (singleImage.fmpTegraSetImage (some oneByte))
        ({ faultFree with value := 1 } :: List.replicate n faultFree) erasedSystem =
          .done result s → singleImage.EndsMinimal oneByte erasedSystem (chainOf 1) result s) ∧
      ∀ c s, Prog.run exec (singleImage.fmpTegraSetImage (some oneByte))
        ({ faultFree with value := 1 } :: List.replicate n faultFree) erasedSystem = .lost c s →
          Confined erasedSystem (chainOf 1) s :=
  ⟨by decide +kernel, fun n => fmpTegraSetImage_minimal [([], [mb1A, mb1B, fooA, fooB])]
    (List.Perm.refl _) rfl rfl (by decide) { faultFree with value := 1 }
    (List.replicate n faultFree) erasedSystem⟩

end TegraFmp
