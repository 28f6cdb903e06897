import Mathlib.Data.List.Chain
import Symbolication.Proofs.Reader.Item
import Symbolication.Proofs.Reader.Window

/-!
Readers that are split off one another. Those in use form a stack: a split puts a reader for the
next bytes on top, which is read until it is dropped. Each step moves the reader on top behind the
bytes that it understands, and a step that fails moves nothing; so every reader keeps to its window,
however long reading goes on.
-/

namespace Symbolication

/-- The window is cut out of the one below, and ends where the reader there stands. -/
structure Reader.IsSplitOff (part whole : Reader) : Prop where
  origin_le : whole.origin ≤ part.origin
  stop_eq : part.stop = whole.offset
  offset_le : whole.offset ≤ whole.stop

structure ReaderStack where
  top : Reader
  below : List Reader
deriving DecidableEq, Repr

inductive ReaderOperation where
  | read (item : ReaderItem)
  | split (length : Nat)
  | pop
deriving DecidableEq, Repr

abbrev ReaderOperation.Value : ReaderOperation → Type
  | read item => item.Value
  | split _ | pop => Unit

namespace ReaderStack

def readers (stack : ReaderStack) : List Reader := stack.top :: stack.below

/-- The stack without its top. The only reader stays. -/
def pop (stack : ReaderStack) : ReaderStack :=
  match stack.below with
  | [] => stack
  | top :: below => { top, below }

/-- The result of an operation, and where it leaves the readers. -/
def step (stack : ReaderStack) :
    (operation : ReaderOperation) → Checked (Except DecodeError operation.Value × ReaderStack)
  | .read item => do
      let (outcome, top) ← item.program.apply stack.top
      pure (outcome, { stack with top })
  | .split length => do
      let (outcome, top) ← (Reading.window length).apply stack.top
      match outcome with
      | .error error => pure (.error error, { stack with top })
      | .ok part => pure (.ok (), { top := part, below := top :: stack.below })
  | .pop => pure (.ok (), stack.pop)

/-- Operations one after the other, whether they fail or not. -/
def run (stack : ReaderStack) : List ReaderOperation → Checked ReaderStack
  | [] => pure stack
  | operation :: operations => do
      let (_, next) ← stack.step operation
      next.run operations

/-- What decoders make of an operation. -/
def decoded (stack : ReaderStack) :
    (operation : ReaderOperation) → Except DecodeError operation.Value × ReaderStack
  | .read item =>
      let (outcome, top) := item.decoder.perform stack.top stack.top.cursor
      (outcome, { stack with top })
  | .split length =>
      match (Decoder.window length).perform stack.top stack.top.cursor with
      | (.error error, top) => (.error error, { stack with top })
      | (.ok window, top) => (.ok (), { top := .ofWindow window, below := top :: stack.below })
  | .pop => (.ok (), stack.pop)

/-- What an operation does when it succeeds. The reader on top passes over the bytes that it has
understood, or over those that a new reader is for, and no other reader is moved. -/
inductive Moves (bytes : Bytes) (stack : ReaderStack) :
    (operation : ReaderOperation) → operation.Value → ReaderStack → Prop
  | read {item : ReaderItem} {taken : Bytes} {value : item.Value}
      (ahead : stack.top.HasAhead bytes taken) (encodes : item.Encodes taken value) :
      Moves bytes stack (.read item) value { stack with top := stack.top.advance taken.length }
  | split {taken : Bytes} (ahead : stack.top.HasAhead bytes taken) :
      Moves bytes stack (.split taken.length) ()
        { top := .ofWindow (stack.top.cursor.windowOver taken)
          below := stack.top.advance taken.length :: stack.below }
  | pop : Moves bytes stack .pop () stack.pop

/-- Every reader views the section, and each but the last one a part of what the next one does. -/
structure Sound (stack : ReaderStack) (source : DebugSection) (bytes : Bytes) : Prop where
  views : ∀ reader ∈ stack.readers, reader.Views source bytes
  nested : stack.readers.IsChain Reader.IsSplitOff

/-- The operation does not stop, and does what decoders do. It succeeds as it should; where it
fails it has moved no reader and blames the place where it began. -/
structure IsExact (stack : ReaderStack) (source : DebugSection) (bytes : Bytes)
    (operation : ReaderOperation) : Prop where
  decoders : stack.step operation = .ok (stack.decoded operation)
  success : ∀ value after,
    stack.step operation = .ok (.ok value, after) ↔ stack.Moves bytes operation value after
  failure : ∀ error after, stack.step operation = .ok (.error error, after) →
    after = stack ∧ error.source = source ∧ error.offset = stack.top.offset

/-- As long as a reader is on the stack, it is there with its window, and those below it are not
touched. -/
def KeepsWindows (stack : ReaderStack) : Prop :=
  ∀ (above : List Reader) (reader : Reader) (below : List Reader)
    (operations : List ReaderOperation), stack.readers = above ++ reader :: below →
    (∀ earlier, earlier <+: operations → ∀ middle, stack.run earlier = .ok middle →
      below.length < middle.readers.length) →
    ∃ after above' position, stack.run operations = .ok after ∧ reader.position ≤ position ∧
      after.readers = above' ++ { reader with position } :: below

section

variable {stack after : ReaderStack} {source : DebugSection} {bytes : Bytes}
  {operation : ReaderOperation} {value : operation.Value}

theorem step_eq_decoded (inside : stack.top.position ≤ stack.top.data.length)
    (operation : ReaderOperation) : stack.step operation = .ok (stack.decoded operation) := by
  cases operation with
  | read item =>
      simp only [step]
      rw [item.program_performs stack.top stack.top.cursor (Reader.stands_cursor inside)]
      rfl
  | split length =>
      simp only [step, decoded]
      rw [Reading.window_performs length stack.top stack.top.cursor (Reader.stands_cursor inside)]
      unfold Decoder.perform
      rw [Decoder.run_map]
      cases (Decoder.window length).run stack.top.cursor <;> rfl
  | pop => rfl

/-- Bytes that lie ahead and encode a value are read, and others are not. -/
theorem decoded_read_eq_ok_iff (views : stack.top.Views source bytes) {item : ReaderItem}
    {value : item.Value} :
    stack.decoded (.read item) = (.ok value, after) ↔
      stack.Moves bytes (.read item) value after := by
  have understands := item.decoder_understands
  simp only [decoded]
  constructor
  · intro found
    cases outcome : item.decoder.run stack.top.cursor with
    | error error =>
        rw [Decoder.perform_error outcome] at found
        cases found
    | ok result =>
        obtain ⟨value', next⟩ := result
        obtain ⟨taken, encodes, passes⟩ := understands.taken outcome
        rw [Decoder.perform_ok outcome passes] at found
        cases found
        exact .read (views.hasAhead_iff.mpr ⟨_, passes.1⟩) encodes
  · rintro (⟨ahead, encodes⟩)
    obtain ⟨suffix, stands⟩ := views.hasAhead_iff.mp ahead
    have outcome := (understands.reads encodes).run stands
    rw [Decoder.perform_ok outcome ⟨stands, rfl⟩]

theorem decoded_split_eq_ok_iff (views : stack.top.Views source bytes) {length : Nat} :
    stack.decoded (.split length) = (.ok (), after) ↔
      stack.Moves bytes (.split length) () after := by
  simp only [decoded]
  constructor
  · intro found
    cases outcome : (Decoder.window length).run stack.top.cursor with
    | error error =>
        rw [Decoder.perform_error outcome] at found
        cases found
    | ok result =>
        obtain ⟨window, next⟩ := result
        obtain ⟨taken, rfl, rfl, passes⟩ := Decoder.window_of_run outcome
        rw [Decoder.perform_ok outcome passes] at found
        cases found
        exact .split (views.hasAhead_iff.mpr ⟨_, passes.1⟩)
  · rintro (_ | ⟨ahead⟩)
    obtain ⟨suffix, stands⟩ := views.hasAhead_iff.mp ahead
    have outcome := (Decoder.window_reads rfl).run stands
    rw [Decoder.perform_ok outcome ⟨stands, rfl⟩]

theorem decoded_eq_ok_iff (views : stack.top.Views source bytes) :
    stack.decoded operation = (.ok value, after) ↔ stack.Moves bytes operation value after := by
  cases operation with
  | read item => exact decoded_read_eq_ok_iff views
  | split length => exact decoded_split_eq_ok_iff views
  | pop =>
      constructor
      · rintro ⟨⟩
        exact .pop
      · rintro ⟨⟩
        rfl

theorem decoded_failure {error : DecodeError}
    (failed : stack.decoded operation = (.error error, after)) :
    after = stack ∧ ∃ fault, error = stack.top.error fault := by
  cases operation with
  | read item =>
      simp only [decoded] at failed
      cases outcome : item.decoder.run stack.top.cursor with
      | error error' =>
          rw [Decoder.perform_error outcome] at failed
          cases failed
          exact ⟨rfl, item.decoder_understands.here outcome⟩
      | ok found =>
          unfold Decoder.perform at failed
          rw [outcome] at failed
          cases failed
  | split length =>
      simp only [decoded] at failed
      rcases Nat.lt_or_ge stack.top.cursor.left length with few | enough
      · rw [Decoder.perform_error (Decoder.run_window_of_left_lt few)] at failed
        cases failed
        exact ⟨rfl, _, rfl⟩
      · unfold Decoder.perform at failed
        rw [Decoder.run_window_of_le_left enough] at failed
        cases failed
  | pop => cases failed

theorem isExact (views : stack.top.Views source bytes) (operation : ReaderOperation) :
    stack.IsExact source bytes operation := by
  have steps := step_eq_decoded views.inside operation
  refine ⟨steps, ?_, ?_⟩
  · intro value after
    rw [steps, Except.ok.injEq]
    exact decoded_eq_ok_iff views
  · intro error after failed
    rw [steps, Except.ok.injEq] at failed
    obtain ⟨same, fault, rfl⟩ := decoded_failure failed
    exact ⟨same, views.source_eq, rfl⟩

theorem pop_of_only (only : stack.below = []) : stack.pop = stack := by
  unfold pop
  rw [only]

theorem readers_pop (more : stack.below ≠ []) : stack.pop.readers = stack.below := by
  unfold pop
  split
  · rename_i empty
    exact absurd empty more
  · rename_i parts
    exact parts.symm

/-- Moving the top does not touch what it was split off. -/
theorem nested_advance {top : Reader} {below : List Reader}
    (nested : (top :: below).IsChain Reader.IsSplitOff) (count : Nat) :
    (top.advance count :: below).IsChain Reader.IsSplitOff := by
  cases below with
  | nil => exact .singleton _
  | cons whole others =>
      rw [List.isChain_cons_cons] at nested ⊢
      obtain ⟨⟨origin_le, stop_eq, offset_le⟩, others⟩ := nested
      exact ⟨⟨origin_le, stop_eq, offset_le⟩, others⟩

theorem isSplitOff_ahead {top : Reader} {taken : Bytes} (ahead : top.HasAhead bytes taken) :
    (Reader.ofWindow (top.cursor.windowOver taken)).IsSplitOff (top.advance taken.length) where
  origin_le := Nat.le_add_right _ _
  stop_eq := by
    change top.origin + top.position + taken.length = top.origin + (top.position + taken.length)
    omega
  offset_le := by
    have inside := ahead.inside
    unfold Reader.offset at inside
    change top.origin + (top.position + taken.length) ≤ top.stop
    omega

/-- What a step leaves of a reader that stays on the stack, and of those below it. -/
theorem Moves.keeps (moves : stack.Moves bytes operation value after) {above below : List Reader}
    {reader : Reader} (stands : stack.readers = above ++ reader :: below)
    (stays : below.length < after.readers.length) :
    ∃ above' position, reader.position ≤ position ∧
      after.readers = above' ++ { reader with position } :: below := by
  -- The reader is the top, which a pop takes away unless it is the only one, or stands deeper.
  rcases List.cons_eq_append_iff.mp stands with ⟨rfl, top⟩ | ⟨rest, rfl, further⟩
  · obtain ⟨rfl, rfl⟩ := List.cons.inj top
    cases moves with
    | read _ _ => exact ⟨[], _, Nat.le_add_right _ _, rfl⟩
    | split _ => exact ⟨[_], _, Nat.le_add_right _ _, rfl⟩
    | pop =>
        by_cases only : stack.below = []
        · rw [pop_of_only only]
          exact ⟨[], _, Nat.le_refl _, stands⟩
        · rw [readers_pop only] at stays
          exact absurd stays (Nat.lt_irrefl _)
  · cases moves with
    | read _ _ => exact ⟨_ :: rest, _, Nat.le_refl _, congrArg (_ :: ·) further⟩
    | split _ => exact ⟨_ :: _ :: rest, _, Nat.le_refl _, congrArg (_ :: _ :: ·) further⟩
    | pop =>
        have more : stack.below ≠ [] := by
          rw [further]
          exact List.append_ne_nil_of_right_ne_nil _ (List.cons_ne_nil _ _)
        exact ⟨rest, _, Nat.le_refl _, (readers_pop more).trans further⟩

namespace Sound

theorem top (sound : stack.Sound source bytes) : stack.top.Views source bytes :=
  sound.views _ List.mem_cons_self

theorem moves (sound : stack.Sound source bytes)
    (moves : stack.Moves bytes operation value after) : after.Sound source bytes := by
  obtain ⟨viewsTop, viewsBelow⟩ := List.forall_mem_cons.mp sound.views
  cases moves with
  | read ahead _ =>
      exact ⟨List.forall_mem_cons.mpr ⟨viewsTop.advance ahead, viewsBelow⟩,
        nested_advance sound.nested _⟩
  | split ahead =>
      constructor
      · refine List.forall_mem_cons.mpr ⟨viewsTop.splitOff ahead, ?_⟩
        exact List.forall_mem_cons.mpr ⟨viewsTop.advance ahead, viewsBelow⟩
      · exact List.isChain_cons_cons.mpr
          ⟨isSplitOff_ahead ahead, nested_advance sound.nested _⟩
  | pop =>
      by_cases only : stack.below = []
      · rw [pop_of_only only]
        exact sound
      · have readers := readers_pop only
        exact ⟨readers ▸ viewsBelow, readers ▸ sound.nested.tail⟩

/-- A step keeps the stack as it was, or moves it. -/
theorem next (sound : stack.Sound source bytes) (operation : ReaderOperation) :
    ∃ after, (∀ operations, stack.run (operation :: operations) = after.run operations) ∧
      after.Sound source bytes ∧
        (after = stack ∨ ∃ value, stack.Moves bytes operation value after) := by
  have steps := isExact sound.top operation
  cases outcome : stack.decoded operation with
  | mk result after =>
      have stepped := steps.decoders.trans (congrArg Except.ok outcome)
      refine ⟨after, fun operations => ?_, ?_⟩
      · rw [ReaderStack.run, stepped]
        rfl
      · cases result with
        | error error =>
            obtain ⟨rfl, _⟩ := steps.failure error after stepped
            exact ⟨sound, .inl rfl⟩
        | ok value =>
            have moves := (steps.success value after).mp stepped
            exact ⟨sound.moves moves, .inr ⟨value, moves⟩⟩

theorem run (sound : stack.Sound source bytes) (operations : List ReaderOperation) :
    ∃ after, stack.run operations = .ok after ∧ after.Sound source bytes := by
  induction operations generalizing stack with
  | nil => exact ⟨stack, rfl, sound⟩
  | cons operation operations induction =>
      obtain ⟨middle, runs, soundMiddle, _⟩ := sound.next operation
      rw [runs]
      exact induction soundMiddle

/-- By induction on the run: what a step keeps of a reader and of those below it is kept. -/
theorem keepsWindows (sound : stack.Sound source bytes) : stack.KeepsWindows := by
  intro above reader below operations stands stays
  induction operations generalizing stack above reader with
  | nil => exact ⟨stack, above, _, rfl, Nat.le_refl _, stands⟩
  | cons operation operations induction =>
      obtain ⟨middle, runs, soundMiddle, stepped⟩ := sound.next operation
      have there : below.length < middle.readers.length := stays [operation] ⟨_, rfl⟩ _ (runs [])
      obtain ⟨above', position, further, stands'⟩ : ∃ above' position,
          reader.position ≤ position ∧
            middle.readers = above' ++ { reader with position } :: below := by
        rcases stepped with rfl | ⟨value, moves⟩
        · exact ⟨above, _, Nat.le_refl _, stands⟩
        · exact moves.keeps stands there
      obtain ⟨after, above'', position', runs', further', stands''⟩ :=
        induction soundMiddle above' _ stands' fun earlier inFront later outcome =>
          stays (operation :: earlier) (List.cons_prefix_cons.mpr ⟨rfl, inFront⟩) later
            ((runs earlier).trans outcome)
      exact ⟨after, above'', position', (runs operations).trans runs',
        Nat.le_trans further further', stands''⟩

end Sound

end

/-- Reading begins inside the section or not at all. However it goes on, every reader views its part
of the section and stands in it, the parts lie in one another, and the next operation moves the
reader on top behind exactly the bytes that it decodes, or fails where that reader stands and moves
none. -/
theorem readers_keep_to_windows (source : DebugSection) (bytes : Bytes) :
    (∀ offset, bytes.length < offset → (Reader.startAt source bytes offset).run =
      .ok (.error { source, offset, fault := .offsetOutOfBounds })) ∧
    ∀ start : Reader, start.Opens source bytes → ∀ operations : List ReaderOperation,
      ∃ stack, run { top := start, below := [] } operations = .ok stack ∧
        stack.Sound source bytes ∧ (∀ operation, stack.IsExact source bytes operation) ∧
          stack.KeepsWindows := by
  refine ⟨fun offset outside => ?_, fun start opens operations => ?_⟩
  · rw [Reader.run_startAt, if_neg (Nat.not_le.mpr outside)]
  · have sound : Sound { top := start, below := [] } source bytes :=
      ⟨List.forall_mem_singleton.mpr opens.views, .singleton _⟩
    obtain ⟨stack, runs, soundStack⟩ := sound.run operations
    exact ⟨stack, runs, soundStack, isExact soundStack.top, soundStack.keepsWindows⟩

/-- Behind a byte, three bytes are split off. A word is too long for them and a text is read; the
number behind it goes on behind the window, so it fails there and the readers stay. -/
theorem readers_keep_to_windows_split :
    Reader.Opens .info [0, 5, 0x61, 0, 0x80, 7] ⟨.info, 1, [5, 0x61, 0, 0x80, 7], 0⟩ ∧
    ∃ stack, run ⟨⟨.info, 1, [5, 0x61, 0, 0x80, 7], 0⟩, []⟩
        [.read .byte, .split 3, .read .uint32, .read .text, .read .unsigned] = .ok stack ∧
      stack = ⟨⟨.info, 2, [0x61, 0, 0x80], 2⟩, [⟨.info, 1, [5, 0x61, 0, 0x80, 7], 4⟩]⟩ ∧
      stack.step (.read .unsigned) = .ok (.error ⟨.info, 4, .unexpectedEnd⟩, stack) ∧
      stack.Sound .info [0, 5, 0x61, 0, 0x80, 7] ∧
      (∀ operation, stack.IsExact .info [0, 5, 0x61, 0, 0x80, 7] operation) ∧
      stack.KeepsWindows := by
  have opens : Reader.Opens .info [0, 5, 0x61, 0, 0x80, 7] ⟨.info, 1, [5, 0x61, 0, 0x80, 7], 0⟩ :=
    .part (show (Reader.startAt .info [0, 5, 0x61, 0, 0x80, 7] 1).run = _ from rfl)
  obtain ⟨stack, runs, keeps⟩ := (readers_keep_to_windows .info [0, 5, 0x61, 0, 0x80, 7]).2 _
    opens [.read .byte, .split 3, .read .uint32, .read .text, .read .unsigned]
  have reached : stack =
      ⟨⟨.info, 2, [0x61, 0, 0x80], 2⟩, [⟨.info, 1, [5, 0x61, 0, 0x80, 7], 4⟩]⟩ :=
    Except.ok.inj (runs.symm.trans rfl)
  refine ⟨opens, stack, runs, reached, ?_, keeps⟩
  rw [reached]
  rfl

end ReaderStack

end Symbolication
