import Vproc.Exec.LoadSteps

/-!
# What a successful load does, in order

If `load_pie` returns an image, then it has taken a slot and reserved it, has
gone through the segments, and then through the relocations.  Besides, it has
allocated some vectors.
-/

namespace Vproc.Exec.LoadEvents

open Vproc.Lib.Alignment
open Vproc.Lib.Procedure
open Vproc.Lib.Procedure.Traced
open Vproc.Exec.Elf hiding programHeaders
open Vproc.Exec.Image
open Vproc.Exec.ElfTables
open Vproc.Exec.LoadPie
open Vproc.Exec.LoadSteps

/-! ## One segment and one relocation -/

/-- What is done for a segment. -/
def segmentEvents (data : FileBytes) (base : Nat) (phdr : Phdr) :
    List Event :=
  .map (mappedRange base phdr) ::
    ((if 0 < phdr.pFilesz.toNat then
        [.copy (base + phdr.pVaddr.toNat) (copiedBytes data.bytes phdr)]
      else []) ++
      [.protect (mappedRange base phdr) (protFromFlags phdr.pFlags)])

/-- `rela_type(rela.r_info) == R_AARCH64_RELATIVE`. -/
def isRelative (rela : RelaEntry) : Bool :=
  relaType rela.rInfo == R_AARCH64_RELATIVE

/-- What is done for a relocation of this type. -/
def relocationEvent (base : Nat) (rela : RelaEntry) : Event :=
  .relocate (base + rela.rOffset.toNat)
    (BitVec.ofNat 64 base + rela.rAddend).toNat

section Completes

variable {events : List Event}

@[simp]
theorem completes_kernelCall_bind
    {Result : Type} {last : Result} {answer : Option Nat}
    {message : Nat → String} {next : Unit → Loading Result} :
    Completes (kernelCall answer message >>= next) events last ↔
      answer = none ∧ Completes (next ()) events last := by
  refine completes_bind_of_quiet fun before middle => ?_
  cases answer with
  | none =>
      refine (completes_pure ()).trans ?_
      simp
  | some errno => simp [kernelCall]

theorem completes_copySegment
    (data : FileBytes) {nextBase : NextBase} {phdr : Phdr}
    (fits :
      nextBase.value + roundDown PAGE_SIZE phdr.pVaddr.toNat < 2 ^ 64) :
    Completes
        (copySegment data
          (nextBase.value + roundDown PAGE_SIZE phdr.pVaddr.toNat)
          (phdr.pVaddr.toNat - roundDown PAGE_SIZE phdr.pVaddr.toNat)
          phdr) events () ↔
      Copies data phdr ∧
        events =
          if 0 < phdr.pFilesz.toNat then
            [.copy (nextBase.value + phdr.pVaddr.toNat)
              (copiedBytes data.bytes phdr)]
          else [] := by
  obtain ⟨targetFits, target⟩ := copy_fits fits
  have short := data.short
  rw [target] at targetFits
  unfold copySegment Copies
  by_cases some : 0 < phdr.pFilesz.toNat
  · simp only [some, if_true, forall_true_left, completes_add_bind,
      completes_ite, completes_fail, completes_slice_bind, completes_emit,
      and_false, false_or, not_lt, Nat.le_add_right, true_and,
      Nat.add_sub_cancel_left, targetFits, target]
    unfold SegmentInFile InFile
    constructor
    · rintro ⟨_, inFile, _, isCopy⟩
      exact ⟨inFile, isCopy⟩
    · rintro ⟨inFile, isCopy⟩
      exact ⟨by omega, inFile, inFile, isCopy⟩
  · simp [some]

theorem completes_mapLoadSegment
    (data : FileBytes) (nextBase : NextBase) (answers : KernelAnswers)
    (segment : Phdr × Nat) :
    Completes (mapLoadSegment data nextBase.value answers segment)
        events () ↔
      (SegmentFits nextBase.value segment.1 ∧
          Mapped data answers segment) ∧
        events = segmentEvents data nextBase.value segment.1 := by
  obtain ⟨phdr, i⟩ := segment
  have small : phdr.pVaddr.toNat < 2 ^ 64 := phdr.pVaddr.isLt
  have down :
      pageAlignDown phdr.pVaddr.toNat =
        roundDown PAGE_SIZE phdr.pVaddr.toNat :=
    clearLow_eq (by decide) small
  have below := roundDown_le PAGE_SIZE phdr.pVaddr.toNat
  have above :
      roundDown PAGE_SIZE phdr.pVaddr.toNat ≤
        roundUp PAGE_SIZE (memEnd phdr) := by
    have up := le_roundUp (memEnd phdr) (by decide : 0 < PAGE_SIZE)
    unfold memEnd at up ⊢
    omega
  have same :
      phdr.pVaddr.toNat + phdr.pMemsz.toNat = memEnd phdr := rfl
  unfold mapLoadSegment SegmentFits Mapped
  dsimp only
  simp only [down, same, completes_add_bind, completes_sub_bind,
    completes_pageAlignUp_bind, completes_kernelCall_bind,
    completes_emit_bind, below, above, true_and]
  constructor
  · rintro ⟨_, memFits, baseFits, granted, _, rest, rfl⟩
    obtain ⟨_, ⟨⟩, _, copied, ends, rfl⟩ := (completes_bind _ _).mp rest
    obtain ⟨copies, rfl⟩ := (completes_copySegment data baseFits).mp copied
    obtain ⟨isSet, protects⟩ := completes_kernelCall_bind.mp ends
    obtain rfl := (completes_emit _ _).mp protects
    exact ⟨⟨⟨memFits, baseFits⟩, granted, copies, isSet⟩, rfl⟩
  · rintro ⟨⟨⟨memFits, baseFits⟩, granted, copies, isSet⟩, rfl⟩
    refine ⟨by omega, memFits, baseFits, granted, _, ?_, rfl⟩
    refine (completes_bind _ _).mpr ⟨_, (), _, ?_, ?_, rfl⟩
    · exact (completes_copySegment data baseFits).mpr ⟨copies, rfl⟩
    · exact
        completes_kernelCall_bind.mpr
          ⟨isSet, (completes_emit _ _).mpr rfl⟩

/-- The loop over the segments. -/
theorem completes_mapSegments
    (data : FileBytes) (nextBase : NextBase) (answers : KernelAnswers)
    (segments : List (Phdr × Nat)) :
    Completes (forEach (mapLoadSegment data nextBase.value answers) segments)
        events () ↔
      (∀ segment ∈ segments, SegmentFits nextBase.value segment.1 ∧
          Mapped data answers segment) ∧
        events =
          (segments.map Prod.fst).flatMap
            (segmentEvents data nextBase.value) := by
  rw [completes_forEach fun segment _ =>
      completes_mapLoadSegment data nextBase answers segment,
    List.flatMap_map]

theorem completes_applyRelocation (base : Nat) (rela : RelaEntry) :
    Completes (applyRelocation base rela) events () ↔
      (isRelative rela = true → base + rela.rOffset.toNat < 2 ^ 64) ∧
        events =
          if isRelative rela then [relocationEvent base rela] else [] := by
  unfold applyRelocation isRelative
  by_cases relative : relaType rela.rInfo = R_AARCH64_RELATIVE
  · simp [relative, relocationEvent]
  · simp [relative]

/-- The loop over the relocations. -/
theorem completes_applyRelocations
    (base : Nat) (relas : List RelaEntry) :
    Completes (forEach (applyRelocation base) relas) events () ↔
      (∀ rela ∈ relas, isRelative rela = true →
          base + rela.rOffset.toNat < 2 ^ 64) ∧
        events =
          (relas.filter isRelative).map (relocationEvent base) := by
  have only :
      relas.flatMap (fun rela =>
          if isRelative rela then [relocationEvent base rela] else []) =
        (relas.filter isRelative).map (relocationEvent base) := by
    induction relas with
    | nil => rfl
    | cons rela rest induction =>
        rw [List.flatMap_cons, induction, List.filter_cons]
        split <;> rfl
  rw [completes_forEach fun rela _ => completes_applyRelocation base rela,
    only]

end Completes

/-! ## Reading the file -/

/-- Nothing is done to the address space. -/
def Quiet : Event → Prop
  | .allocate _ _ => True
  | .takeSlot _ => True
  | _ => False

section Quiet

variable {data : FileBytes} {events : List Event}

theorem quiet_programHeaders
    {hdr : Ehdr} {phdrs : List Phdr}
    (completes : Completes (programHeaders data hdr) events phdrs) :
    ∀ event ∈ events, Quiet event := by
  refine forall_events_of_completes completes fun _ => ?_
  rw [meets_programHeaders]
  exact ⟨fun _ => True.intro, fun _ => True.intro⟩

theorem quiet_loadSpan
    {phdrs : List Phdr} {span : Nat × Nat}
    (some : loadSegments phdrs ≠ [])
    (completes : Completes (loadSpan phdrs) events span) :
    ∀ event ∈ events, Quiet event := by
  refine forall_events_of_completes completes fun meets => ?_
  rw [meets_loadSpan some] at meets ⊢
  exact meets

theorem quiet_dynamicEntries
    {phdrs : List Phdr} {dyns : List Dyn}
    (completes : Completes (dynamicEntries data phdrs) events dyns) :
    ∀ event ∈ events, Quiet event := by
  refine forall_events_of_completes completes fun meets => ?_
  rw [meets_dynamicEntries] at meets ⊢
  refine (onFirst_congr (fun _ => Iff.rfl) fun phdr _ => ?_).mp meets
  exact Iff.rfl

theorem quiet_relaEntries
    {dyns : List Dyn} {relas : List RelaEntry}
    (completes :
      Completes (relaEntriesFromDynamic data dyns) events relas) :
    ∀ event ∈ events, Quiet event := by
  refine forall_events_of_completes completes fun meets => ?_
  rw [meets_relaEntriesFromDynamic] at meets ⊢
  exact meets

theorem quiet_interpreterPath
    {phdrs : List Phdr} {path : Option (List UInt8)}
    (completes : Completes (interpreterPath data phdrs) events path) :
    ∀ event ∈ events, Quiet event := by
  refine forall_events_of_completes completes fun meets => ?_
  rw [meets_interpreterPath] at meets ⊢
  exact meets

end Quiet

/-! ## A whole load -/

section Load

variable {data : FileBytes} {events : List Event}
variable {phdrs : List Phdr} {dyns : List Dyn} {relas : List RelaEntry}

theorem of_completes_relocateImage
    {base : Nat}
    (dynamic : Returns (dynamicEntries data phdrs) dyns)
    (relocations : Returns (relaEntriesFromDynamic data dyns) relas)
    (completes : Completes (relocateImage data base phdrs) events ()) :
    (∀ rela ∈ relas, isRelative rela = true →
        base + rela.rOffset.toNat < 2 ^ 64) ∧
      ∃ before, (∀ event ∈ before, Quiet event) ∧
        events =
          before ++ (relas.filter isRelative).map (relocationEvent base) := by
  obtain ⟨first, others, rest, readsDynamic, later, rfl⟩ :=
    (completes_bind _ _).mp completes
  have firstQuiet := quiet_dynamicEntries readsDynamic
  obtain rfl : others = dyns :=
    (completes_unique readsDynamic (completes_of_returns dynamic)).2
  rcases (completes_ite _ _).mp later with ⟨rfl, isDone⟩ | ⟨_, continues⟩
  · obtain ⟨rfl, _⟩ := (completes_pure _).mp isDone
    have none : relas = [] := by
      have reads := completes_of_returns relocations
      exact ((completes_pure _).mp reads).2
    subst none
    exact ⟨nofun, first, firstQuiet, rfl⟩
  · obtain ⟨second, entries, _, readsRela, steps, rfl⟩ :=
      (completes_bind _ _).mp continues
    have secondQuiet := quiet_relaEntries readsRela
    obtain rfl : entries = relas :=
      (completes_unique readsRela (completes_of_returns relocations)).2
    obtain ⟨_, _, _, applies, last, rfl⟩ := (completes_bind _ _).mp steps
    obtain ⟨_, _, _, loop, count, rfl⟩ := (completes_bind _ _).mp applies
    obtain ⟨rfl, _⟩ := (completes_pure _).mp last
    obtain ⟨rfl, _⟩ := (completes_pure _).mp count
    obtain ⟨fits, rfl⟩ := (completes_applyRelocations base _).mp loop
    refine ⟨fits, first ++ second, ?_, ?_⟩
    · exact List.forall_mem_append.mpr ⟨firstQuiet, secondQuiet⟩
    · rw [List.append_nil, List.append_nil, List.append_assoc]

/-- What a load has done when it is done. -/
structure LoadDone (data : FileBytes) (nextBase : NextBase)
    (phdrs : List Phdr) (relas : List RelaEntry) (events : List Event)
    (image : LoadedImage) : Prop where
  base : image.base = nextBase.value
  segments : ∀ phdr ∈ loadSegments phdrs,
    SegmentFits image.base phdr ∧ Copies data phdr
  relocations : ∀ rela ∈ relas, isRelative rela = true →
    image.base + rela.rOffset.toNat < 2 ^ 64
  order : ∃ before between after,
    (∀ event ∈ before, Quiet event) ∧
      (∀ event ∈ between, Quiet event) ∧
      (∀ event ∈ after, Quiet event) ∧
      events =
        before ++ .reserve ⟨image.base, image.totalSize⟩ ::
          ((loadSegments phdrs).flatMap (segmentEvents data image.base) ++
            (between ++
              ((relas.filter isRelative).map
                  (relocationEvent image.base) ++
                after)))

theorem LoadDone.after_quiet
    {nextBase : NextBase} {image : LoadedImage} {quiet : List Event}
    (isQuiet : ∀ event ∈ quiet, Quiet event)
    (done : LoadDone data nextBase phdrs relas events image) :
    LoadDone data nextBase phdrs relas (quiet ++ events) image := by
  obtain ⟨base, segments, fits, before, between, after, isBefore,
    isBetween, isAfter, rfl⟩ := done
  refine
    ⟨base, segments, fits, quiet ++ before, between, after, ?_, isBetween,
      isAfter, ?_⟩
  · exact List.forall_mem_append.mpr ⟨isQuiet, isBefore⟩
  · rw [List.append_assoc]

theorem loadDone_of_loadImage
    {answers : KernelAnswers} {nextBase : NextBase} {hdr : Ehdr}
    {image : LoadedImage}
    (dynamic : Returns (dynamicEntries data phdrs) dyns)
    (relocations : Returns (relaEntriesFromDynamic data dyns) relas)
    (completes :
      Completes (loadImage data answers nextBase hdr phdrs) events image) :
    LoadDone data nextBase phdrs relas events image := by
  unfold loadImage at completes
  dsimp only at completes
  rw [completes_ite] at completes
  rcases completes with ⟨_, fails⟩ | ⟨some, fromSpan⟩
  · exact (completes_fail _ fails).elim
  · obtain ⟨spans, span, _, spanned, fromTotal, rfl⟩ :=
      (completes_bind _ _).mp fromSpan
    obtain ⟨_, fromSlot⟩ := completes_pageAlignUp_bind.mp fromTotal
    obtain ⟨takes, base, _, taken, fromAnswer, rfl⟩ :=
      (completes_bind _ _).mp fromSlot
    obtain ⟨_, isSlot, isBase⟩ := of_completes_allocSlot taken
    subst isBase
    have takesQuiet : ∀ event ∈ takes, Quiet event := by
      rw [isSlot]
      exact List.forall_mem_singleton.mpr True.intro
    obtain ⟨_, fromReserve⟩ := completes_kernelCall_bind.mp fromAnswer
    obtain ⟨_, fromMaps, rfl⟩ := (completes_emit_bind _ _).mp fromReserve
    obtain ⟨_, _, _, maps, fromRelocations, rfl⟩ :=
      (completes_bind _ _).mp fromMaps
    obtain ⟨mapped, rfl⟩ := (completes_mapSegments _ _ _ _).mp maps
    obtain ⟨_, _, _, relocates, fromPath, rfl⟩ :=
      (completes_bind _ _).mp fromRelocations
    obtain ⟨fits, between, betweenQuiet, rfl⟩ :=
      of_completes_relocateImage dynamic relocations relocates
    obtain ⟨paths, _, _, path, ends, rfl⟩ := (completes_bind _ _).mp fromPath
    obtain ⟨_, ends⟩ := completes_add_bind.mp ends
    obtain ⟨_, ends⟩ := completes_add_bind.mp ends
    obtain ⟨rfl, rfl⟩ := (completes_pure _).mp ends
    have every : ∀ phdr ∈ loadSegments phdrs,
        SegmentFits nextBase.value phdr ∧ Copies data phdr := by
      intro phdr member
      obtain ⟨i, found⟩ := List.mem_iff_getElem?.mp member
      obtain ⟨sums, _, copies, _⟩ :=
        mapped (phdr, i) (List.mem_zipIdx_iff_getElem?.mpr found)
      exact ⟨sums, copies⟩
    refine
      ⟨rfl, every, fits, spans ++ takes, between, paths, ?_,
        betweenQuiet, quiet_interpreterPath path, ?_⟩
    · exact
        List.forall_mem_append.mpr
          ⟨quiet_loadSpan some spanned, takesQuiet⟩
    · simp only [List.zipIdx_map_fst, List.append_assoc, List.append_nil]

/-- A load which returns an image is done. -/
theorem loadDone_of_returns
    {answers : KernelAnswers} {nextBase : NextBase} {hdr : Ehdr}
    {image : LoadedImage}
    (parsed : parseHeader data.bytes = .ok hdr)
    (headers : Returns (programHeaders data hdr) phdrs)
    (dynamic : Returns (dynamicEntries data phdrs) dyns)
    (relocations : Returns (relaEntriesFromDynamic data dyns) relas)
    (loaded : Returns (loadPie data answers nextBase) image) :
    LoadDone data nextBase phdrs relas (loadPie data answers nextBase).events
      image := by
  have completes := completes_of_returns loaded
  generalize (loadPie data answers nextBase).events = events at completes ⊢
  obtain ⟨other, isHeader, steps⟩ := completes_lift_bind.mp completes
  cases parsed.symm.trans isHeader
  obtain ⟨_, _, fromHeaders⟩ := completes_lift_bind.mp steps
  obtain ⟨reads, others, _, readsHeaders, loads, rfl⟩ :=
    (completes_bind _ _).mp fromHeaders
  obtain rfl : others = phdrs :=
    (completes_unique readsHeaders (completes_of_returns headers)).2
  exact
    (loadDone_of_loadImage dynamic relocations loads).after_quiet
      (quiet_programHeaders readsHeaders)

end Load

end Vproc.Exec.LoadEvents
