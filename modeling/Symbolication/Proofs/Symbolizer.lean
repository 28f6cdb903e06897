import Symbolication.Proofs.UnitCache.Answer
import Symbolication.Symbolizer

/-!
Symbolizers over independent binaries. What a symbolizer has decoded for earlier queries shows in no
answer: the location is that of the first binary which, asked on its own for the first time, has
one. So a file that does not load, or a binary that has no location for the address or cannot say,
may stand anywhere in the list.
-/

namespace Symbolication

/-- The location of an address in an image just opened. There is none where decoding fails. -/
def DebugImage.location? [LinkageNames] (image : DebugImage) (address : UInt64) : Option Location :=
  match ((image.resolve address).run.run .empty).1 with
  | .ok location? => location?
  | .error _ => none

/-- The file can be read, is an object with all sections, and its debugging information opens. -/
def Loads (file? : Option Bytes) (image : DebugImage) : Prop :=
  ∃ file object sections, file? = some file ∧ ObjectFile.decode file = .ok object ∧
    object.debugSections = .ok sections ∧ DebugImage.ofSections sections = .ok image

namespace Binary

theorem load_eq_ok_iff {path : String} {file? : Option Bytes} {binary : Binary} :
    load path file? = .ok binary ↔ ∃ image, Loads file? image ∧ binary = ofImage path image := by
  constructor
  · intro loaded
    cases file? with
    | none => cases loaded
    | some file =>
        unfold load at loaded
        dsimp only [Bind.bind, Except.bind] at loaded
        cases decoded : ObjectFile.decode file with
        | error fault =>
            rw [decoded] at loaded
            cases loaded
        | ok object =>
            rw [decoded] at loaded
            dsimp only [Except.mapError] at loaded
            cases collected : object.debugSections with
            | error source =>
                rw [collected] at loaded
                cases loaded
            | ok sections =>
                rw [collected] at loaded
                dsimp only at loaded
                cases opened : DebugImage.ofSections sections with
                | error error =>
                    rw [opened] at loaded
                    cases loaded
                | ok image =>
                    rw [opened] at loaded
                    cases loaded
                    exact ⟨image, ⟨file, object, sections, rfl, decoded, collected, opened⟩, rfl⟩
  · rintro ⟨image, ⟨file, object, sections, rfl, decoded, collected, opened⟩, rfl⟩
    unfold load
    dsimp only [Bind.bind, Except.bind]
    rw [decoded]
    dsimp only [Except.mapError]
    rw [collected]
    dsimp only
    rw [opened]

variable [LinkageNames]

/-- A binary answers like its image just opened, and what it keeps stays sound. -/
theorem resolve_of_sound {binary : Binary} (sound : binary.cache.Sound binary.image)
    (address : UInt64) :
    (binary.resolve address).1.toOption.join = binary.image.location? address ∧
      (binary.resolve address).2.image = binary.image ∧
      (binary.resolve address).2.cache.Sound binary.image := by
  have answers := binary.image.resolve_answers address
  have fresh := answers.answer .empty (.empty binary.image)
  have same : (binary.resolve address).1 = _ := answers.answer binary.cache sound
  refine ⟨?_, rfl, answers.sound binary.cache sound⟩
  unfold DebugImage.location?
  rw [same, fresh]
  cases binary.image.resolveWith binary.image.decodeUnit address <;> rfl

end Binary

namespace Symbolizer

def images (symbolizer : Symbolizer) : List DebugImage := symbolizer.binaries.map (·.image)

/-- The binaries of the files that load, in the order of the paths. -/
inductive Keeps (read? : String → Option Bytes) : List String → List Binary → Prop
  | nil : Keeps read? [] []
  | kept {path : String} {image : DebugImage} {paths : List String} {binaries : List Binary}
      (loads : Loads (read? path) image) (others : Keeps read? paths binaries) :
      Keeps read? (path :: paths) (.ofImage path image :: binaries)
  | skipped {path : String} {paths : List String} {binaries : List Binary}
      (fails : ∀ image, ¬Loads (read? path) image) (others : Keeps read? paths binaries) :
      Keeps read? (path :: paths) binaries

variable {read? : String → Option Bytes}

theorem keeps_ofPaths (paths : List String) : Keeps read? paths (ofPaths read? paths).binaries := by
  unfold ofPaths
  induction paths with
  | nil => exact .nil
  | cons path paths induction =>
      rw [List.filterMap_cons]
      cases loaded : Binary.load path (read? path) with
      | error error =>
          refine .skipped ?_ induction
          intro image loads
          rw [Binary.load_eq_ok_iff.mpr ⟨image, loads, rfl⟩] at loaded
          cases loaded
      | ok binary =>
          obtain ⟨image, loads, rfl⟩ := Binary.load_eq_ok_iff.mp loaded
          exact .kept loads induction

/-- One path more puts in the image of its file, if the file loads. -/
theorem images_ofPaths_insert (read? : String → Option Bytes) (before behind : List String)
    (path : String) :
    ∃ more : List DebugImage, (∀ image ∈ more, Loads (read? path) image) ∧
      (ofPaths read? (before ++ path :: behind)).images =
        (ofPaths read? before).images ++ more ++ (ofPaths read? behind).images := by
  unfold ofPaths images
  simp only [List.filterMap_append, List.filterMap_cons, List.map_append]
  cases loaded : Binary.load path (read? path) with
  | error error => exact ⟨[], by simp, by simp [Except.toOption]⟩
  | ok binary =>
      obtain ⟨image, loads, rfl⟩ := Binary.load_eq_ok_iff.mp loaded
      exact ⟨[image], by simpa using loads, by simp [Except.toOption, Binary.ofImage]⟩

theorem images_ofPaths_append (before behind : List String) :
    (ofPaths read? (before ++ behind)).images =
      (ofPaths read? before).images ++ (ofPaths read? behind).images := by
  unfold ofPaths images
  rw [List.filterMap_append, List.map_append]

section Queries

variable [LinkageNames]

/-- The answer to one query, without what is kept for later ones. -/
def answer (symbolizer : Symbolizer) (address : UInt64) : Option Location :=
  (symbolizer.resolve address).1

/-- Queries asked in order, each on what the ones before it have left. -/
def queries (addresses : List UInt64) : StateM Symbolizer (List (Option Location)) :=
  addresses.mapM fun address symbolizer => symbolizer.resolve address

def answers (symbolizer : Symbolizer) (addresses : List UInt64) : List (Option Location) :=
  ((queries addresses).run symbolizer).1

def after (symbolizer : Symbolizer) (addresses : List UInt64) : Symbolizer :=
  ((queries addresses).run symbolizer).2

/-- The symbolizers that come about when binaries are put in and taken out, and queries asked, in
any order. -/
inductive Reached : Symbolizer → Prop
  | empty : Reached .empty
  | asked {symbolizer : Symbolizer} (reached : Reached symbolizer) (address : UInt64) :
      Reached (symbolizer.resolve address).2
  | inserted {before behind : List Binary} (reached : Reached ⟨before ++ behind⟩) (path : String)
      (image : DebugImage) : Reached ⟨before ++ .ofImage path image :: behind⟩
  | removed {before behind : List Binary} {binary : Binary}
      (reached : Reached ⟨before ++ binary :: behind⟩) : Reached ⟨before ++ behind⟩

/-- What every binary keeps is what its own image decodes to. -/
def Sound (symbolizer : Symbolizer) : Prop :=
  ∀ binary ∈ symbolizer.binaries, binary.cache.Sound binary.image

/-- Only a location ends the search; binaries behind it are left as they are. -/
theorem resolveFirst_cons (address : UInt64) (binary : Binary) (rest : List Binary) :
    resolveFirst address (binary :: rest) =
      match (binary.resolve address).1.toOption.join with
      | some location => (some location, (binary.resolve address).2 :: rest)
      | none =>
          ((resolveFirst address rest).1,
            (binary.resolve address).2 :: (resolveFirst address rest).2) := by
  rw [resolveFirst]
  obtain ⟨result, asked⟩ := binary.resolve address
  cases result with
  | error error => rfl
  | ok location? => cases location? <;> rfl

theorem resolveFirst_of_sound {binaries : List Binary}
    (sound : ∀ binary ∈ binaries, binary.cache.Sound binary.image) (address : UInt64) :
    (resolveFirst address binaries).1 =
        (binaries.map (·.image)).findSome? (·.location? address) ∧
      (resolveFirst address binaries).2.map (·.image) = binaries.map (·.image) ∧
      ∀ binary ∈ (resolveFirst address binaries).2, binary.cache.Sound binary.image := by
  induction binaries with
  | nil => exact ⟨rfl, rfl, sound⟩
  | cons binary rest induction =>
      rw [List.forall_mem_cons] at sound
      obtain ⟨answer, images, others⟩ := induction sound.2
      obtain ⟨own, image, kept⟩ := Binary.resolve_of_sound sound.1 address
      rw [← image] at kept
      rw [resolveFirst_cons, own, List.map_cons, List.findSome?_cons]
      cases binary.image.location? address with
      | some location =>
          refine ⟨rfl, ?_, List.forall_mem_cons.mpr ⟨kept, sound.2⟩⟩
          rw [List.map_cons, image]
      | none =>
          refine ⟨answer, ?_, List.forall_mem_cons.mpr ⟨kept, others⟩⟩
          rw [List.map_cons, image, images]

theorem resolve_of_sound {symbolizer : Symbolizer} (sound : symbolizer.Sound) (address : UInt64) :
    symbolizer.answer address = symbolizer.images.findSome? (·.location? address) ∧
      (symbolizer.resolve address).2.images = symbolizer.images ∧
      (symbolizer.resolve address).2.Sound :=
  resolveFirst_of_sound sound address

theorem run_queries_cons (address : UInt64) (addresses : List UInt64) (symbolizer : Symbolizer) :
    (queries (address :: addresses)).run symbolizer =
      (symbolizer.answer address :: ((symbolizer.resolve address).2.answers addresses),
        (symbolizer.resolve address).2.after addresses) := by
  simp only [queries, List.mapM_cons]
  rfl

/-- A run of queries changes neither what is searched nor its soundness, so every query of the run
is answered like the first one. -/
theorem queries_of_sound {symbolizer : Symbolizer} (sound : symbolizer.Sound)
    (addresses : List UInt64) :
    symbolizer.answers addresses =
        addresses.map (fun address => symbolizer.images.findSome? (·.location? address)) ∧
      (symbolizer.after addresses).images = symbolizer.images ∧
      (symbolizer.after addresses).Sound := by
  unfold answers after
  induction addresses generalizing symbolizer with
  | nil => exact ⟨rfl, rfl, sound⟩
  | cons address addresses induction =>
      obtain ⟨answer, images, next⟩ := resolve_of_sound sound address
      obtain ⟨others, last, kept⟩ := induction next
      rw [run_queries_cons]
      refine ⟨?_, last.trans images, kept⟩
      rw [List.map_cons, ← answer, ← images]
      exact congrArg _ others

theorem Reached.sound {symbolizer : Symbolizer} (reached : Reached symbolizer) :
    symbolizer.Sound := by
  induction reached with
  | empty =>
      intro binary member
      cases member
  | asked reached address induction => exact (resolve_of_sound induction address).2.2
  | inserted reached path image induction =>
      unfold Sound at induction ⊢
      simp only [List.forall_mem_append, List.forall_mem_cons] at induction ⊢
      exact ⟨induction.1, .empty image, induction.2⟩
  | removed reached induction =>
      unfold Sound at induction ⊢
      simp only [List.forall_mem_append, List.forall_mem_cons] at induction ⊢
      exact ⟨induction.1, induction.2.2⟩

theorem Reached.after {symbolizer : Symbolizer} (reached : Reached symbolizer)
    (addresses : List UInt64) : Reached (symbolizer.after addresses) := by
  unfold Symbolizer.after
  induction addresses generalizing symbolizer with
  | nil => exact reached
  | cons address addresses induction =>
      rw [run_queries_cons]
      exact induction (reached.asked address)

theorem Keeps.reached {paths : List String} {binaries : List Binary}
    (keeps : Keeps read? paths binaries) : Reached ⟨binaries⟩ := by
  induction keeps with
  | nil => exact .empty
  | @kept path image _ binaries loads others induction =>
      exact @Reached.inserted _ [] binaries induction path image
  | skipped fails others induction => exact induction

theorem ofPaths_reached (paths : List String) : Reached (ofPaths read? paths) :=
  (keeps_ofPaths paths).reached

/-- In every state that can be reached, the images alone decide about an answer. -/
theorem Reached.answer {symbolizer : Symbolizer} (reached : Reached symbolizer)
    (address : UInt64) :
    symbolizer.answer address = symbolizer.images.findSome? (·.location? address) :=
  (resolve_of_sound reached.sound address).1

theorem Reached.images_after {symbolizer : Symbolizer} (reached : Reached symbolizer)
    (addresses : List UInt64) : (symbolizer.after addresses).images = symbolizer.images :=
  (queries_of_sound reached.sound addresses).2.1

/-- Where the images between two others have no location, they can be left out. -/
theorem findSome?_between {address : UInt64} {before more behind : List DebugImage}
    (misses : ∀ image ∈ more, image.location? address = none) :
    (before ++ more ++ behind).findSome? (·.location? address) =
      (before ++ behind).findSome? (·.location? address) := by
  have nothing : more.findSome? (·.location? address) = none :=
    List.findSome?_eq_none_iff.mpr misses
  rw [List.findSome?_append, List.findSome?_append, List.findSome?_append, nothing, Option.or_none]

/-- The files that load are kept in order, and every query is answered by the first binary that has
a location when it is asked alone and for the first time. So, whatever was asked before, an answer
stays as it is when a file is put in that does not load or has no location for the address, when
any such binary is put in or taken out, and, if it is a location, when binaries are added behind. -/
theorem first_hit_wins (read? : String → Option Bytes) :
    (∀ paths, Keeps read? paths (ofPaths read? paths).binaries ∧
      ∀ addresses, (ofPaths read? paths).answers addresses =
        addresses.map fun address =>
          (ofPaths read? paths).images.findSome? (·.location? address)) ∧
      (∀ (before behind : List String) (path : String) (address : UInt64),
        (∀ image, Loads (read? path) image → image.location? address = none) →
          ∀ earlier earlier' : List UInt64,
            ((ofPaths read? (before ++ path :: behind)).after earlier).answer address =
              ((ofPaths read? (before ++ behind)).after earlier').answer address) ∧
      (∀ symbolizer symbolizer' : Symbolizer, Reached symbolizer → Reached symbolizer' →
        (∀ (before behind : List DebugImage) (image : DebugImage) (address : UInt64),
          symbolizer.images = before ++ image :: behind →
            symbolizer'.images = before ++ behind → image.location? address = none →
              symbolizer.answer address = symbolizer'.answer address) ∧
          ∀ (more : List DebugImage) (address : UInt64) (location : Location),
            symbolizer'.images = symbolizer.images ++ more →
              symbolizer.answer address = some location →
                symbolizer'.answer address = some location) := by
  refine ⟨?_, ?_, ?_⟩
  · intro paths
    exact ⟨keeps_ofPaths paths, fun addresses =>
      (queries_of_sound (ofPaths_reached paths).sound addresses).1⟩
  · intro before behind path address misses earlier earlier'
    have longer : Reached (ofPaths read? (before ++ path :: behind)) := ofPaths_reached _
    have shorter : Reached (ofPaths read? (before ++ behind)) := ofPaths_reached _
    obtain ⟨more, loads, split⟩ := images_ofPaths_insert read? before behind path
    rw [(longer.after earlier).answer, (shorter.after earlier').answer,
      longer.images_after, shorter.images_after, split, images_ofPaths_append]
    exact findSome?_between fun image member => misses image (loads image member)
  · intro symbolizer symbolizer' reached reached'
    refine ⟨?_, ?_⟩
    · intro before behind image address longer shorter misses
      rw [reached.answer, reached'.answer, longer, shorter, List.append_cons]
      exact findSome?_between (List.forall_mem_singleton.mpr misses)
    · intro more address location longer hit
      rw [reached.answer] at hit
      rw [reached'.answer, longer, List.findSome?_append, hit]
      rfl

end Queries

/-- The index of an image whose only unit covers some addresses from 0x1000 on. -/
def sampleIndex : AddressIndex where
  sets := [
    { offset := 0, unitOffset := 0, addressWidth := .eight, segmentWidth := none
      ranges := [{ segment := 0, address := 0x1000, length := 0x100 }] }]

/-- An image with a line for these addresses. -/
def coveringImage : DebugImage where
  sections := {
    info := [12, 0, 0, 0, 4, 0, 0, 0, 0, 0, 8, 1, 0, 0, 0, 0]
    abbreviations := [1, 0x11, 0, 0x10, 0x17, 0, 0, 0]
    addressRanges := []
    lines := [48, 0, 0, 0, 4, 0, 22, 0, 0, 0, 1, 1, 1, 0xfb, 14, 10, 0, 1, 1, 1, 1, 0, 0, 0, 1, 0,
      97, 0, 0, 0, 0, 0, 0, 9, 2, 0, 0x10, 0, 0, 0, 0, 0, 0, 3, 2, 1, 2, 0x80, 2, 0, 1, 1]
    strings := []
    rangeLists := [] }
  index := sampleIndex

/-- An image whose unit is of a version that cannot be read. -/
def brokenImage : DebugImage where
  sections := {
    info := [8, 0, 0, 0, 7, 0, 0, 0, 0, 0, 8, 0]
    abbreviations := []
    addressRanges := []
    lines := []
    strings := []
    rangeLists := [] }
  index := sampleIndex

section Samples

open scoped LinkageNames

/-- The broken image in front changes nothing, nor does a path without a file, nor what was asked
before; and the location stays when the broken image is added behind. -/
theorem first_hit_wins_sample :
    ((brokenImage.resolve 0x1010).run.run .empty).1 =
        .error { source := .info, offset := 0, fault := .unsupportedVersion 7 } ∧
      (⟨[.ofImage "broken" brokenImage, .ofImage "app" coveringImage]⟩ : Symbolizer).answer 0x1010 =
        some { address := 0x1010, file := "a", line := 3, function := none } ∧
      (⟨[.ofImage "app" coveringImage, .ofImage "broken" brokenImage]⟩ : Symbolizer).answer 0x1010 =
        some { address := 0x1010, file := "a", line := 3, function := none } ∧
      ((ofPaths (fun _ => none) ["gone"]).after [0x1000]).answer 0x1010 =
        (ofPaths (fun _ => none) []).answer 0x1010 := by
  obtain ⟨_, files, states⟩ := first_hit_wins fun _ => none
  have alone : Reached ⟨[.ofImage "app" coveringImage]⟩ :=
    @Reached.inserted _ [] [] .empty "app" coveringImage
  have brokenFirst : Reached
      ⟨[.ofImage "broken" brokenImage, .ofImage "app" coveringImage]⟩ :=
    @Reached.inserted _ [] [.ofImage "app" coveringImage] alone "broken" brokenImage
  have brokenLast : Reached
      ⟨[.ofImage "app" coveringImage, .ofImage "broken" brokenImage]⟩ :=
    @Reached.inserted _ [.ofImage "app" coveringImage] [] alone "broken" brokenImage
  have found : (⟨[.ofImage "app" coveringImage]⟩ : Symbolizer).answer 0x1010 =
      some { address := 0x1010, file := "a", line := 3, function := none } := by
    decide +kernel
  refine ⟨by decide +kernel, ?_, ?_, ?_⟩
  · exact ((states _ _ brokenFirst alone).1 [] [coveringImage] brokenImage 0x1010 rfl rfl
      (by decide +kernel)).trans found
  · exact (states _ _ alone brokenLast).2 [brokenImage] 0x1010 _ rfl found
  · refine files [] [] "gone" 0x1010 ?_ [0x1000] []
    rintro image ⟨_, _, _, missing, _⟩
    cases missing

end Samples

end Symbolizer

end Symbolication
