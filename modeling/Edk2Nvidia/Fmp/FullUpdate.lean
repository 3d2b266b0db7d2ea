import Edk2Nvidia.Fmp.Images

/-! A full update that is cut off at any call leaves the running chain as it was, and the boot BCT
is not changed to a chain whose images are not those of the package. -/
namespace TegraFmp
open Flash (Memory slice Holds)
open FwPartition (Name nameOf)
open FwImageDxe
open Effect

/-- Everything of the running chain is as it was; the boot BCT and its backup are for both. -/
def Fmp.Kept (fmp : Fmp) (initial s : System) : Prop :=
  ∀ partition, bootChain partition = fmp.platform.mBootChain → builds partition = true →
    partition.partitionName ≠ brBctBackupPartitionName →
      s.storage partition.partitionName = initial.storage partition.partitionName

/-- The chain that is written does not start. -/
def Fmp.Invalid (fmp : Fmp) (s : System) : Prop :=
  ∀ image partition, fmp.fwImageFindProtocol mb1 = some image →
    image.partition fmp.target = some partition →
      Holds (s.storage partition.partitionName) 0
        (List.replicate (min image.writeBytes fmpDataBufferSize) 0xFF)

/-- The chain that is written has all images of the package, none that is required missing. -/
def Fmp.Installed (fmp : Fmp) (header : Package) (s : System) : Prop :=
  ∀ image ∈ fmp.images, noVerifyPartitionNames.contains image.name = false →
    fmp.Handled header false (fmp.Holding header fmp.target s) image

structure Fmp.Safe (fmp : Fmp) (header : Package) (initial : System) (c : Command) (s : System) :
    Prop where
  kept : fmp.Kept initial s
  marked : s.inactiveChainGood = true → s = initial ∧ c = .setInactiveBootChainStatus false
  invalid : ∀ partition offset data, c = .partitionWrite partition offset data →
    baseName partition ≠ mb1 → baseName partition ≠ gpt → fmp.Invalid s
  switched : s.bctChain ≠ initial.bctChain → fmp.Installed header s
  switches : ∀ chain, c = .updateFwChain chain → chain = fmp.target ∧ fmp.Installed header s
  clears : c = .setInactiveBootChainStatus true →
    s.bctChain = some fmp.target ∧ fmp.Installed header s

structure Fmp.Ends (fmp : Fmp) (header : Package) (initial : System) (result : Result)
    (s : System) : Prop where
  kept : fmp.Kept initial s
  marked : s.inactiveChainGood = true → result.1 = .success ∨ s = initial
  switched : s.bctChain ≠ initial.bctChain → fmp.Installed header s
  success : result.1 = .success →
    s.inactiveChainGood = true ∧ s.bctChain = some fmp.target ∧ fmp.Installed header s

/-- What holds from the mark on until the boot BCT is changed. -/
structure Fmp.Marked (fmp : Fmp) (initial s : System) : Prop where
  kept : fmp.Kept initial s
  bad : s.inactiveChainGood = false
  bct : s.bctChain = initial.bctChain

section Sound
variable {fmp : Fmp} {header : Package} {initial s : System} {image : Private}
  {partition : Partition}

theorem Fmp.Kept.replaced {name : Name} (h : fmp.Kept initial s)
    (hname : ∀ partition, bootChain partition = fmp.platform.mBootChain →
      builds partition = true → partition.partitionName ≠ brBctBackupPartitionName →
        partition.partitionName ≠ name) (content : Memory) :
    fmp.Kept initial (s.replaced name content) := by
  intro partition hchain hbuilds hbackup
  rw [← h partition hchain hbuilds hbackup]
  exact if_neg (hname partition hchain hbuilds hbackup)

theorem Fmp.Marked.replaced (h : fmp.Marked initial s) (hchain : bootChain partition = fmp.target)
    (content : Memory) : fmp.Marked initial (s.replaced partition.partitionName content) := by
  refine ⟨h.kept.replaced ?_ content, h.bad, h.bct⟩
  intro running hrunning _ _ hname
  have hsame := bootChain_congr hname
  rw [hrunning, hchain] at hsame
  exact fmp.target_ne hsame.symm

theorem Fmp.Invalid.replaced (hsound : fmp.Sound) (h : fmp.Invalid s)
    (hname : baseName partition ≠ mb1) (content : Memory) :
    fmp.Invalid (s.replaced partition.partitionName content) := by
  intro image idle hfind hidle
  have hholds := h image idle hfind hidle
  obtain ⟨himage, himageName⟩ := Fmp.mem_of_find hfind
  have hne : idle.partitionName ≠ partition.partitionName := by
    intro hsame
    obtain ⟨_, hbase, _⟩ := hsound.places image himage _ idle hidle
    exact hname ((baseName_congr hsame).symm.trans (hbase.trans himageName))
  unfold System.replaced
  dsimp only
  rwa [if_neg hne]

theorem Fmp.Installed.of_storage {s' : System} (h : fmp.Installed header s)
    (hstorage : ∀ image ∈ fmp.images, noVerifyPartitionNames.contains image.name = false →
      ∀ partition, image.partition fmp.target = some partition →
        s'.storage partition.partitionName = s.storage partition.partitionName) :
    fmp.Installed header s' := by
  intro image himage hverify
  have hhandled := h image himage hverify
  unfold Fmp.Handled at hhandled ⊢
  split at hhandled
  · obtain ⟨data, partition, hdata, hpartition, hholds⟩ := hhandled
    refine ⟨data, partition, hdata, hpartition, ?_⟩
    rw [hstorage image himage hverify partition hpartition]
    exact hholds
  · exact hhandled

theorem Fmp.Marked.not_good (h : fmp.Marked initial s) : s.inactiveChainGood ≠ true := by
  rw [h.bad]
  decide

/-- A call behind the mark and before the change of the boot BCT. -/
theorem Fmp.Marked.safe {c : Command} (h : fmp.Marked initial s)
    (hinvalid : ∀ partition offset data, c = .partitionWrite partition offset data →
      baseName partition ≠ mb1 → baseName partition ≠ gpt → fmp.Invalid s)
    (hswitches : ∀ chain, c = .updateFwChain chain → chain = fmp.target ∧ fmp.Installed header s)
    (hclears : c ≠ .setInactiveBootChainStatus true) : fmp.Safe header initial c s :=
  ⟨h.kept, fun hgood => absurd hgood h.not_good, hinvalid,
    fun hswitched => absurd h.bct hswitched, hswitches, fun hc => absurd hc hclears⟩

theorem Fmp.Marked.reads (h : fmp.Marked initial s) :
    ReadsIn (fmp.Safe header initial) s := fun _ _ _ =>
  h.safe (fun _ _ _ hc => (by cases hc)) (fun _ hc => (by cases hc)) (fun hc => (by cases hc))

theorem Fmp.Marked.write (h : fmp.Marked initial s)
    (hinvalid : baseName partition ≠ mb1 → baseName partition ≠ gpt → fmp.Invalid s)
    (offset : Nat) (data : List UInt8) :
    fmp.Safe header initial (.partitionWrite partition offset data) s := by
  refine h.safe ?_ (fun _ hc => (by cases hc)) (fun hc => (by cases hc))
  intro partition' offset' data' hc
  obtain ⟨rfl, _, _⟩ := Command.partitionWrite.inj hc
  exact hinvalid

theorem Fmp.Marked.aborts (h : fmp.Marked initial s) (las : LastAttemptStatus) :
    fmp.Ends header initial (.aborted, las) s :=
  ⟨h.kept, fun hgood => absurd hgood h.not_good, fun hswitched => absurd h.bct hswitched,
    fun hc => by cases hc⟩

/-! The steps of the update. -/

/-- A write of an image that needs the other chain not to start, or is what it starts with. -/
theorem Fmp.Sound.writeImage_wp {E : System → Prop} {name : Name} (hsound : fmp.Sound)
    (hname : (name == brBctBackupPartitionName || name == updateInactivePartitions) = false)
    (hextra : ∀ s, E s → name ≠ mb1 → name ≠ gpt → fmp.Invalid s)
    (hkeeps : ∀ partition content s, baseName partition = name → E s →
      E (s.replaced partition.partitionName content))
    (h : fmp.Marked initial s ∧ E s) :
    wp (fmp.Safe header initial) (fun _ s' => fmp.Marked initial s' ∧ E s')
      (fmp.writeImage header name 0) s := by
  cases hfind : fmp.fwImageFindProtocol name with
  | none =>
    unfold Fmp.writeImage
    rw [hfind]
    exact h
  | some image =>
    obtain ⟨himage, rfl⟩ := Fmp.mem_of_find hfind
    obtain ⟨partition, hpartition, hchain, hbase⟩ := hsound.place himage hname fmp.target
    have hselect := (hsound.writes image himage hname).trans hpartition
    refine TegraFmp.writeImage_wp (I := fun s => fmp.Marked initial s ∧ E s)
      hfind hselect (fun s h => h.1.reads) ?_ ?_ h
    · intro offset data s h
      refine h.1.write ?_ offset data
      rw [hbase]
      exact hextra s h.2
    · intro content s h
      exact ⟨h.1.replaced hchain content, hkeeps partition content s hbase h.2⟩

theorem holds_written (offset : Nat) (data : List UInt8) (content : Memory) :
    Holds (written .success offset data content) offset data := by
  unfold Holds slice
  apply List.ext_getElem
  · rw [List.length_map, List.length_range']
  · intro k hk hdata
    rw [List.getElem_map, List.getElem_range']
    unfold written
    rw [if_neg (by decide), if_pos (by omega), Nat.one_mul, Nat.add_sub_cancel_left,
      List.getD_eq_getElem _ _ hdata]

/-- The first bytes of an image that starts the chain are erased in one write. -/
theorem Fmp.Sound.invalidateImage_wp {name : Name} (hsound : fmp.Sound)
    (hname : name = mb1 ∨ name = gpt) (h : fmp.Marked initial s) :
    wp (fmp.Safe header initial) (fun status s' => fmp.Marked initial s' ∧
        (name = mb1 → status = .success → fmp.Invalid s')) (fmp.invalidateImage name 0) s := by
  unfold Fmp.invalidateImage
  cases hfind : fmp.fwImageFindProtocol name with
  | none => exact ⟨h, fun _ hsuccess => by cases hsuccess⟩
  | some image =>
    obtain ⟨himage, rfl⟩ := Fmp.mem_of_find hfind
    have hbackup : fwImageHasNoBackup image = false := by
      rw [noBackup_eq]
      rcases hname with hname | hname
      · rw [hname]
        decide
      · rw [hname]
        decide
    obtain ⟨partition, hpartition, hchain, hbase⟩ := hsound.place himage hbackup fmp.target
    have hselect := (hsound.writes image himage hbackup).trans hpartition
    set data := List.replicate (min image.writeBytes fmpDataBufferSize) (0xFF : UInt8) with hdata
    have hsize : data.length ≤ fmpWriteLoopSize := by
      rw [hdata, List.length_replicate]
      have hsizes : fmpDataBufferSize ≤ fmpWriteLoopSize := by decide
      omega
    have hinvalid : ∀ s' : System, Holds (s'.storage partition.partitionName) 0 data →
        image.name = mb1 → fmp.Invalid s' := by
      intro s' hholds hmb1 image' partition' hfind' hpartition'
      rw [← hmb1, hsound.find himage] at hfind'
      obtain rfl := Option.some.inj hfind'
      rw [hpartition] at hpartition'
      obtain rfl := Option.some.inj hpartition'
      exact hholds
    dsimp only
    unfold Fmp.writeImageFromBuffer Fmp.writeLoop
    split
    · next hnil =>
      refine ⟨h, fun hmb1 _ => hinvalid s ?_ hmb1⟩
      rw [hdata.trans hnil]
      exact Flash.holds_nil _ _
    · rw [wp, Prog.wp_bind]
      refine write_wp hselect ?_ ?_ ?_
      · refine h.write ?_ _ _
        rw [hbase]
        intro hmb1 hgpt
        exact absurd hname (not_or.mpr ⟨hmb1, hgpt⟩)
      · intro status herror
        rw [if_pos herror]
        exact ⟨h,
          fun _ hsuccess => absurd hsuccess (ne_success_of_isError herror)⟩
      · intro status content
        have hmarked := h.replaced hchain (written status 0 (data.take fmpWriteLoopSize) content)
        split
        · next herror =>
          exact ⟨hmarked,
            fun _ hsuccess => absurd hsuccess (ne_success_of_isError herror)⟩
        · next hok =>
          obtain rfl := success_of_not_isError hok
          unfold Fmp.writeLoop
          rw [dif_pos (List.drop_eq_nil_of_le hsize)]
          refine ⟨hmarked, fun hmb1 _ => hinvalid _ ?_ hmb1⟩
          unfold System.replaced
          dsimp only
          rw [if_pos rfl, List.take_of_length_le hsize]
          exact holds_written _ _ _

theorem Fmp.Sound.writeRegularImages_wp (hsound : fmp.Sound) (h : fmp.Marked initial s)
    (hinvalid : fmp.Invalid s) :
    wp (fmp.Safe header initial) (fun _ => fmp.Marked initial)
      (fmp.writeRegularImages header false 0) s := by
  unfold Fmp.writeRegularImages
  refine Prog.wp_mono (forImages_wp (I := fun s => fmp.Marked initial s ∧ fmp.Invalid s)
    (G := fun _ => True) ?_ ⟨h, hinvalid⟩) (fun _ _ h => h) fun _ _ h => h.1.1
  intro image himage hskips s' h'
  have hspecial : specialImageNames.contains image.name = false := by simpa using hskips
  obtain ⟨hgpt, hmb1, hpseudo, hbackup⟩ := special_false hspecial
  refine Prog.wp_mono (hsound.writeImage_wp (E := fmp.Invalid) ?_ (fun _ h _ _ => h) ?_ h')
    (fun _ _ h => h) fun _ _ h => ⟨h, fun _ => trivial⟩
  · simp [hbackup, hpseudo]
  · intro partition content s'' hbase h''
    exact h''.replaced hsound (hbase ▸ hmb1) content

theorem Fmp.Marked.step {las : LastAttemptStatus} {program : Program EfiStatus}
    {rest : Program Result} {Q : System → Prop}
    (h : wp (fmp.Safe header initial) (fun status s' => fmp.Marked initial s' ∧
      (status = .success → Q s')) program s)
    (hrest : ∀ s', fmp.Marked initial s' → Q s' →
      wp (fmp.Safe header initial) (fmp.Ends header initial) rest s') :
    wp (fmp.Safe header initial) (fmp.Ends header initial) (Fmp.step las program rest) s := by
  refine step_wp (Prog.wp_mono h (fun _ _ h => h) ?_)
  rintro status s' ⟨hmarked, hQ⟩
  exact ⟨fun _ => hmarked.aborts las, fun hsuccess => hrest s' hmarked (hQ hsuccess)⟩

/-- The partition of a verified image is none of the boot BCT. -/
theorem Fmp.Sound.verified_ne (hsound : fmp.Sound) (himage : image ∈ fmp.images)
    (hverify : noVerifyPartitionNames.contains image.name = false)
    (hpartition : image.partition fmp.target = some partition) :
    partition.partitionName ≠ bctPartition ∧
      partition.partitionName ≠ brBctBackupPartitionName := by
  obtain ⟨_, hbase, hbuilds⟩ := hsound.places image himage _ partition hpartition
  obtain ⟨_, _, hbackup⟩ := noVerify_false hverify
  refine ⟨by simpa [builds] using hbuilds, fun hname => hbackup ?_⟩
  rw [← hbase]
  unfold baseName
  rw [hname]
  decide

theorem Fmp.Sound.updateBctBackupPartition_wp (hsound : fmp.Sound) (h : fmp.Marked initial s)
    (hinstalled : fmp.Installed header s) :
    wp (fmp.Safe header initial)
      (fun _ s' => fmp.Marked initial s' ∧ fmp.Installed header s')
      (fmp.updateBctBackupPartition header) s := by
  unfold Fmp.updateBctBackupPartition
  split
  · exact ⟨h, hinstalled⟩
  · refine ⟨?_, fun answer _ => ⟨⟨h.kept.replaced ?_ _, h.bad, h.bct⟩, ?_⟩⟩
    · exact h.safe (fun _ _ _ hc => (by cases hc)) (fun _ hc => (by cases hc))
        (fun hc => (by cases hc))
    · intro partition _ _ hbackup
      exact hbackup
    · refine hinstalled.of_storage fun image himage hverify partition hpartition => ?_
      exact if_neg (hsound.verified_ne himage hverify hpartition).2

/-- The boot BCT and the mark are changed when all images are there. -/
theorem Fmp.Sound.finish_wp (hsound : fmp.Sound) (h : fmp.Marked initial s)
    (hinstalled : fmp.Installed header s) :
    wp (fmp.Safe header initial) (fmp.Ends header initial)
      (Fmp.step .bctUpdateFailed fmp.updateFwChain <|
        Fmp.step .setInactiveBootChainGoodFailed (Fmp.setInactiveBootChainStatus true) <|
        pure (.success, .success)) s := by
  refine step_wp ⟨?_, fun answer _ => ?_⟩
  · refine h.safe (fun _ _ _ hc => (by cases hc)) ?_ (fun hc => (by cases hc))
    intro chain hc
    exact ⟨(Command.updateFwChain.inj hc).symm, hinstalled⟩
  -- the chain of the boot BCT is changed from here on
  set changed := (exec (.updateFwChain (otherBootChain fmp.platform.mBootChain)) answer s).2
    with hchanged
  have hkept : fmp.Kept initial changed := by
    refine Fmp.Kept.replaced (s := s) h.kept ?_ (answer.image (s.storage bctPartition))
    intro partition _ hbuilds _
    simpa [builds] using hbuilds
  have hthere : fmp.Installed header changed := by
    refine hinstalled.of_storage fun image himage hverify partition hpartition => ?_
    exact if_neg (hsound.verified_ne himage hverify hpartition).1
  have hbad : changed.inactiveChainGood ≠ true := h.not_good
  have hbct : changed.bctChain = some fmp.target := rfl
  have haborts : ∀ las, fmp.Ends header initial (.aborted, las) changed := fun las =>
    ⟨hkept, fun hgood => absurd hgood hbad, fun _ => hthere,
      fun hc => (by cases hc)⟩
  refine ⟨fun _ => haborts _, fun _ => step_wp ⟨?_, fun answer' _ => ?_⟩⟩
  · exact ⟨hkept, fun hgood => absurd hgood hbad,
      fun _ _ _ hc => (by cases hc), fun _ => hthere, fun _ hc => (by cases hc),
      fun _ => ⟨hbct, hthere⟩⟩
  · show (answer'.status ≠ .success → fmp.Ends header initial
        (.aborted, .setInactiveBootChainGoodFailed)
        (if answer'.status.isError then changed
          else { changed with inactiveChainGood := true })) ∧
      (answer'.status = .success → fmp.Ends header initial (.success, .success)
        (if answer'.status.isError then changed
          else { changed with inactiveChainGood := true }))
    constructor
    · intro hfail
      have herror : answer'.status.isError = true := by
        by_contra hok
        exact hfail (success_of_not_isError hok)
      rw [if_pos herror]
      exact haborts _
    · intro hsuccess
      rw [hsuccess, if_neg (by decide)]
      exact ⟨hkept, fun _ => .inl rfl, fun _ => hthere, fun _ => ⟨rfl, hbct, hthere⟩⟩

theorem Fmp.Sound.installImages_wp (hsound : fmp.Sound)
    (hverify : fmp.pcdFmpWriteVerifyImage = true) (h : fmp.Marked initial s) (update : Bool) :
    wp (fmp.Safe header initial) (fmp.Ends header initial) (fmp.installImages header update)
      s := by
  have hgpt : ∀ s, fmp.Marked initial s → wp (fmp.Safe header initial)
      (fun status s' => fmp.Marked initial s' ∧ (status = .success → True))
      (fmp.writeImage header gpt 0) s := by
    intro s h
    refine Prog.wp_mono (hsound.writeImage_wp (E := fun _ => True) (by decide)
      (fun _ _ _ hno => absurd rfl hno) (fun _ _ _ _ _ => trivial) ⟨h, trivial⟩)
      (fun _ _ h => h) fun _ _ h => ⟨h.1, fun _ => trivial⟩
  unfold Fmp.installImages
  refine Fmp.Marked.step (Q := fun _ => True) ?_ fun s₁ h₁ _ => ?_
  · split
    · exact Prog.wp_mono (hsound.invalidateImage_wp (.inr rfl) h) (fun _ _ h => h)
        fun _ _ h => ⟨h.1, fun _ => trivial⟩
    · exact ⟨h, fun _ => trivial⟩
  refine Fmp.Marked.step (Q := fmp.Invalid) ?_ fun s₂ h₂ hinvalid => ?_
  · exact Prog.wp_mono (hsound.invalidateImage_wp (.inl rfl) h₁) (fun _ _ h => h)
      fun _ _ h => ⟨h.1, h.2 rfl⟩
  refine Fmp.Marked.step (Q := fun _ => True) ?_ fun s₃ h₃ _ => ?_
  · exact Prog.wp_mono (hsound.writeRegularImages_wp h₂ hinvalid) (fun _ _ h => h)
      fun _ _ h => ⟨h, fun _ => trivial⟩
  refine Fmp.Marked.step (Q := fun _ => True) ?_ fun s₄ h₄ _ => ?_
  · exact Prog.wp_mono (hsound.writeImage_wp (E := fun _ => True) (by decide)
      (fun _ _ hno => absurd rfl hno) (fun _ _ _ _ _ => trivial) ⟨h₃, trivial⟩)
      (fun _ _ h => h) fun _ _ h => ⟨h.1, fun _ => trivial⟩
  refine Fmp.Marked.step (Q := fun _ => True) ?_ fun s₅ h₅ _ => ?_
  · split
    · exact hgpt s₄ h₄
    · exact ⟨h₄, fun _ => trivial⟩
  refine Fmp.Marked.step (Q := fmp.Installed header) ?_ fun s₆ h₆ hinstalled => ?_
  · refine Prog.wp_mono (hsound.verifyAllImages_wp hverify hsound.reads h₅.reads false)
      (fun _ _ h => h) ?_
    rintro status s' ⟨rfl, hinstalled⟩
    exact ⟨h₅, fun hsuccess image himage hno => hinstalled hsuccess image himage hno rfl⟩
  refine Fmp.Marked.step (Q := fmp.Installed header) ?_ fun s₇ h₇ hinstalled' => ?_
  · exact Prog.wp_mono (hsound.updateBctBackupPartition_wp h₆ hinstalled) (fun _ _ h => h)
      fun _ _ h => ⟨h.1, fun _ => h.2⟩
  exact hsound.finish_wp h₇ hinstalled'

theorem Fmp.Sound.gptUpdate_wp {lost : Command → System → Prop} (hsound : fmp.Sound)
    (hverify : fmp.pcdFmpWriteVerifyImage = true) (hreads : ReadsIn lost s) :
    wp lost (fun _ s' => s' = s) (fmp.gptUpdate header) s := by
  unfold Fmp.gptUpdate
  split
  · rw [wp, Prog.wp_bind]
    have hread : wp lost (fun _ s' => s' = s) (fmp.verifyImage header gpt readInactiveImage) s := by
      cases hfind : fmp.fwImageFindProtocol gpt with
      | none =>
        unfold Fmp.verifyImage
        rw [if_pos hverify, hfind]
        exact rfl
      | some image =>
        obtain ⟨himage, hname⟩ := Fmp.mem_of_find hfind
        rw [← hname]
        refine Prog.wp_mono (hsound.verifyImage_wp hverify hsound.reads himage ?_ hreads)
          (fun _ _ h => h) fun _ _ h => h.1
        rw [noBackup_eq, hname]
        decide
    refine Prog.wp_mono hread (fun _ _ h => h) fun status s' h => ?_
    split
    · exact h
    · exact h
  · exact rfl

theorem Fmp.Sound.fmpTegraSetImage_wp (hsound : fmp.Sound)
    (hverify : fmp.pcdFmpWriteVerifyImage = true) (hfull : fmp.isMinimal header = false) :
    wp (fmp.Safe header initial) (fmp.Ends header initial) (fmp.fmpTegraSetImage (some header))
      initial := by
  have hkept : fmp.Kept initial initial := fun _ _ _ _ => rfl
  have hstart : ∀ las, ∀ status ≠ EfiStatus.success,
      fmp.Ends header initial (status, las) initial := fun las status hstatus =>
    ⟨hkept, fun _ => .inr rfl, fun hswitched => absurd rfl hswitched,
      fun hsuccess => absurd hsuccess hstatus⟩
  unfold Fmp.fmpTegraSetImage
  dsimp only
  split
  · exact hstart _ _ (by decide)
  rw [if_neg (by rw [hfull]; decide)]
  refine step_wp ⟨?_, fun answer _ => ?_⟩
  · exact ⟨hkept, fun _ => ⟨rfl, rfl⟩, fun _ _ _ hc => (by cases hc),
      fun hswitched => absurd rfl hswitched, fun _ hc => (by cases hc), fun hc => (by cases hc)⟩
  show (answer.status ≠ .success → fmp.Ends header initial
      (.aborted, .setInactiveBootChainBadFailed)
      (if answer.status.isError then initial else { initial with inactiveChainGood := false })) ∧
    (answer.status = .success → wp (fmp.Safe header initial) (fmp.Ends header initial) _
      (if answer.status.isError then initial else { initial with inactiveChainGood := false }))
  constructor
  · intro hfail
    have herror : answer.status.isError = true := by
      by_contra hok
      exact hfail (success_of_not_isError hok)
    rw [if_pos herror]
    exact hstart _ _ (by decide)
  · intro hsuccess
    rw [hsuccess, if_neg (by decide)]
    have hmarked : fmp.Marked initial { initial with inactiveChainGood := false } :=
      ⟨hkept, rfl, rfl⟩
    rw [wp, Prog.wp_bind]
    refine Prog.wp_mono (hsound.gptUpdate_wp hverify hmarked.reads) (fun _ _ h => h) ?_
    rintro checked s' rfl
    cases checked with
    | error status => exact hmarked.aborts _
    | ok update => exact hsound.installImages_wp hverify hmarked update

end Sound

/-- Wherever the full update is cut off, and whatever the calls answer and the writes leave: the
running chain is as it was, the other one is marked bad and does not start while its images are
written, and the boot BCT is changed to it only when it has all the images of the package. -/
theorem fmpTegraSetImage_safe {fmp : Fmp} {header : Package}
    (groups : List (Name × List Partition))
    (himages : fmp.images.Perm ((callbacks fmp.platform groups).filter (·.installed)))
    (henabled : fmp.platform.enableBPartitions = true)
    (hverify : fmp.pcdFmpWriteVerifyImage = true) (hfull : fmp.isMinimal header = false)
    (answers : List Answer) (initial : System) :
    (∀ result s,
      Prog.run exec (fmp.fmpTegraSetImage (some header)) answers initial = .done result s →
        fmp.Ends header initial result s) ∧
    ∀ c s, Prog.run exec (fmp.fmpTegraSetImage (some header)) answers initial = .lost c s →
      fmp.Safe header initial c s := by
  have hwp : wp (fmp.Safe header initial) (fmp.Ends header initial)
      (fmp.fmpTegraSetImage (some header)) initial :=
    (Fmp.sound groups henabled himages).fmpTegraSetImage_wp hverify hfull
  exact ⟨fun _ _ hrun => Prog.wp_done hwp (fun _ _ => trivial) hrun,
    fun _ _ hrun => Prog.wp_lost hwp (fun _ _ => trivial) hrun⟩

def mb1A : Partition := partitionOf "A_mb1" 4096 (by decide)
def mb1B : Partition := partitionOf "B_mb1" 4096 (by decide)

/-- The images mb1 and foo, while the chain A runs. -/
def twoImages : Fmp where
  platform := chainA
  images := (callbacks chainA [([], [mb1A, mb1B, fooA, fooB])]).filter (·.installed)
  fwImagesRequired := [mb1]
  pcdFmpWriteVerifyImage := true
  pcdFmpSingleImageUpdate := false
  pcdFmpMultiImageMinimalUpdate := false
  mFmpLibInitialized := true

def twoBytes : Package where
  imageCount := 2
  select name :=
    if name = mb1 then .ok [1] else if name = nameOf "foo" then .ok [2] else .error .notFound
  select_isError := by
    intro name status h
    split at h
    · cases h
    split at h
    · cases h
    · cases h
      rfl

def erasedSystem : System := ⟨fun _ _ => 0xFF, true, none⟩

/-- A call succeeds, and a write leaves alone what it is not about. -/
def faultFree : Answer := ⟨.success, 0, id⟩

/-- The whole update succeeds, and power is lost in the midst of it. -/
theorem fmpTegraSetImage_safe_twoImages :
    (match Prog.run exec (twoImages.fmpTegraSetImage (some twoBytes))
        (List.replicate 10 faultFree) erasedSystem with
      | .done result _ => decide (result = (.success, .success))
      | .lost _ _ => false) = true ∧
    ∀ n, (∀ result s, Prog.run exec (twoImages.fmpTegraSetImage (some twoBytes))
        (List.replicate n faultFree) erasedSystem = .done result s →
          twoImages.Ends twoBytes erasedSystem result s) ∧
      ∀ c s, Prog.run exec (twoImages.fmpTegraSetImage (some twoBytes))
        (List.replicate n faultFree) erasedSystem = .lost c s →
          twoImages.Safe twoBytes erasedSystem c s :=
  ⟨by decide +kernel, fun n => fmpTegraSetImage_safe [([], [mb1A, mb1B, fooA, fooB])]
    (List.Perm.refl _) rfl rfl (by decide) (List.replicate n faultFree) erasedSystem⟩

end TegraFmp
